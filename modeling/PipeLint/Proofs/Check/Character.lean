import Mathlib.Data.List.Pairwise
import PipeLint.Proofs.Check.Escape

/-!
# The findings on single characters

Some findings are about single characters: control characters outside quotes, and letters that are
not supported. They can be read off the characters of the stage and the tokens that these lie in,
each character being looked at once. A character that is not white space lies in exactly one token,
and white space lies in none but quoted strings.

## Main definitions

* `PipeLint.Text.Occurrence.LiesIn`: a character lies in a token of some kind.
* `PipeLint.Issue.isUnsupportedFlag`: the warnings about letters.

## Main results

* `PipeLint.Text.isWordCharacter_of_mem_text`: the characters of names, groups of flags and words.
* `PipeLint.Text.map_filter_occurrencesFrom`: the characters in tokens, token by token.
* `PipeLint.Text.filter_character_stageFindings`: the findings on the characters of a stage.
-/

namespace PipeLint

/-! ### Control characters -/

theorem utf8Size_of_isControl {c : Char} (h : isControl c = true) :
    c.utf8Size = 1 ∨ c.utf8Size = 2 := by
  have hcode : c.val.toNat ≤ 0x7FF := by
    have hval : c.toNat = c.val.toNat := rfl
    simp only [isControl, hval, Bool.or_eq_true, Bool.and_eq_true, decide_eq_true_eq] at h
    omega
  rw [Char.utf8Size]
  split
  · exact Or.inl rfl
  · rw [if_pos (UInt32.le_iff_toNat_le.mpr hcode)]
    exact Or.inr rfl

/-! ### Characters in tokens -/

namespace Text

/-- A character of a text lies in a token of some kind. -/
def Occurrence.LiesIn (o : Occurrence) (kind : Token.Kind) (tokens : List Token) : Prop :=
  ∃ k ∈ tokens, k.kind = kind ∧ o.span.Within k.span

instance (o : Occurrence) (kind : Token.Kind) (tokens : List Token) :
    Decidable (o.LiesIn kind tokens) :=
  inferInstanceAs (Decidable (∃ k ∈ tokens, _))

variable {t : Text} {k m : Token}

/-- Names of commands, groups of flags and words hold neither white space nor control characters. -/
theorem isWordCharacter_of_mem_text (hk : k ∈ t.tokens) (hquoted : k.kind ≠ .quoted)
    (hstray : k.kind ≠ .stray) : ∀ c ∈ k.text, isWordCharacter c = true := by
  obtain ⟨front, c, u, -, hblank, rfl⟩ := exists_of_mem_tokens hk
  rcases Lexeme.first_cases c u with
    ⟨-, heq⟩ | ⟨-, -, heq⟩ | ⟨-, heq⟩ | ⟨-, -, hplain, heq⟩ <;> simp only [heq] at hquoted hstray ⊢
  · exact absurd rfl hquoted
  · refine List.forall_mem_cons.mpr ⟨by decide, fun d hd => ?_⟩
    exact isWordCharacter_of_isFlagLetter (List.all_eq_true.mp List.all_takeWhile d hd)
  · exact absurd rfl hstray
  · exact isWordCharacter_of_mem_cons_takeWhile hblank hplain

theorem le_start_of_mem_tokensFrom {offset : Nat} (hk : k ∈ tokensFrom offset t) :
    offset ≤ k.span.start := by
  obtain ⟨front, c, u, -, -, rfl⟩ := exists_of_mem_tokensFrom hk
  exact Nat.le_add_right _ _

theorem within_of_mem_occurrences {s : Text} {o : Occurrence} (ho : o ∈ s.occurrences) (n : Nat) :
    (o.span.shift n).Within ⟨n, s.byteLength⟩ := by
  have hstop := stop_le_of_mem_occurrences ho
  constructor
  · exact Nat.le_add_left n _
  · rw [Span.stop_shift, Nat.add_comm]
    exact Nat.add_le_add_left hstop n

/-- A character that is not white space lies in a token. -/
theorem exists_within_of_mem_occurrencesFrom {offset : Nat} (front : Text)
    (hfront : front.byteLength = offset) {o : Occurrence} (ho : o ∈ occurrencesFrom front t)
    (hblank : isBlank o.char = false) : ∃ k ∈ tokensFrom offset t, o.span.Within k.span := by
  fun_induction tokensFrom offset t generalizing front with
  | case1 => simp [occurrencesFrom] at ho
  | case2 offset c t hc ih =>
    rcases List.mem_cons.mp ho with rfl | ho
    · simp [hc] at hblank
    · exact ih (front ++ [c]) (by simp [hfront]) ho
  | case3 offset c t hc lexeme ih =>
    rw [← Lexeme.text_append_rest_first c t, occurrencesFrom_append, List.mem_append] at ho
    rcases ho with ho | ho
    · obtain ⟨own, hown, rfl⟩ := List.mem_map.mp ho
      refine ⟨_, List.mem_cons_self, ?_⟩
      rw [Occurrence.span_inside, hfront]
      exact within_of_mem_occurrences hown offset
    · obtain ⟨k, hk, hwithin⟩ := ih (front ++ lexeme.text) (by simp [hfront]) ho
      exact ⟨k, List.mem_cons_of_mem _ hk, hwithin⟩

theorem eq_of_within_of_within (hk : k ∈ t.tokens) (hm : m ∈ t.tokens) {o : Occurrence}
    (hko : o.span.Within k.span) (hmo : o.span.Within m.span) : k = m := by
  have : Std.Symm fun k m : Token => k.span.stop ≤ m.span.start ∨ m.span.stop ≤ k.span.start :=
    ⟨fun _ _ => Or.symm⟩
  by_contra hne
  have hlength := o.start_lt_stop_span
  have hks := hko.start_le
  have hke := hko.stop_le
  have hms := hmo.start_le
  have hme := hmo.stop_le
  have hapart : t.tokens.Pairwise fun k m =>
      k.span.stop ≤ m.span.start ∨ m.span.stop ≤ k.span.start := (pairwise_tokens t).imp Or.inl
  rcases hapart.forall hk hm hne with hle | hle <;> omega

section Tokens

variable {o : Occurrence} {tokens : List Token} {q : Token → Prop}
  (htokens : ∀ m ∈ tokens, k.span.stop ≤ m.span.start)

include htokens

/-- A character of the first token lies in no other one. -/
theorem exists_within_cons_of_within (ho : o.span.Within k.span) :
    (∃ m ∈ k :: tokens, q m ∧ o.span.Within m.span) ↔ q k := by
  constructor
  · rintro ⟨m, hm, hq, hwithin⟩
    rcases List.mem_cons.mp hm with rfl | hm
    · exact hq
    · have hapart := htokens m hm
      have hstart := hwithin.start_le
      have hstop := ho.stop_le
      have hlength := o.start_lt_stop_span
      omega
  · exact fun hq => ⟨k, List.mem_cons_self, hq, ho⟩

omit htokens in
theorem exists_within_cons_of_le (ho : k.span.stop ≤ o.span.start) :
    (∃ m ∈ k :: tokens, q m ∧ o.span.Within m.span) ↔
      ∃ m ∈ tokens, q m ∧ o.span.Within m.span := by
  constructor
  · rintro ⟨m, hm, hq, hwithin⟩
    rcases List.mem_cons.mp hm with rfl | hm
    · have hstop := hwithin.stop_le
      have hlength := o.start_lt_stop_span
      omega
    · exact ⟨m, hm, hq, hwithin⟩
  · rintro ⟨m, hm, hq, hwithin⟩
    exact ⟨m, List.mem_cons_of_mem k hm, hq, hwithin⟩

end Tokens

/-- The characters that lie in tokens and are selected by the kind of their token, token by
token. -/
theorem map_filter_occurrencesFrom {β : Type*} (g : Char → Span → β)
    (p : Token.Kind → Char → Bool) {offset : Nat} (front : Text)
    (hfront : front.byteLength = offset) (t : Text) :
    ((occurrencesFrom front t).filter fun o =>
        ∃ k ∈ tokensFrom offset t, p k.kind o.char = true ∧ o.span.Within k.span).map
          (fun o => g o.char o.span) =
      (tokensFrom offset t).flatMap fun k =>
        (k.text.occurrences.filter fun o => p k.kind o.char).map
          fun o => g o.char (o.span.shift k.offset) := by
  fun_induction tokensFrom offset t generalizing front with
  | case1 => rfl
  | case2 offset c t hc ih =>
    -- white space between tokens lies in none of them
    have hnone : ¬ ∃ k ∈ tokensFrom (offset + c.utf8Size) t,
        p k.kind c = true ∧ (⟨front, c, t⟩ : Occurrence).span.Within k.span := by
      rintro ⟨k, hk, -, hwithin⟩
      have hstart := le_start_of_mem_tokensFrom hk
      have hle := hwithin.start_le
      have hpos := c.utf8Size_pos
      simp only [Occurrence.span] at hle
      omega
    rw [occurrencesFrom, List.filter_cons, if_neg (by simpa using hnone)]
    exact ih (front ++ [c]) (by simp [hfront])
  | case3 offset c t hc lexeme ih =>
    have hlater : ∀ k ∈ tokensFrom (offset + lexeme.text.byteLength) lexeme.rest,
        offset + lexeme.text.byteLength ≤ k.span.start := fun k => le_start_of_mem_tokensFrom
    rw [← Lexeme.text_append_rest_first c t, occurrencesFrom_append, List.filter_append,
      List.map_append, List.flatMap_cons, List.filter_map, List.map_map]
    congr 1
    · refine (congrArg (List.map _) (List.filter_congr fun o ho => ?_)).trans
        (List.map_congr_left fun o _ => ?_)
      · have hown : (o.inside front lexeme.rest).span.Within ⟨offset, lexeme.text.byteLength⟩ := by
          rw [Occurrence.span_inside, hfront]
          exact within_of_mem_occurrences ho offset
        have hfirst := exists_within_cons_of_within (k := ⟨lexeme.kind, lexeme.text, offset⟩)
          (q := fun m => p m.kind o.char = true) hlater hown
        exact Bool.eq_iff_iff.mpr (decide_eq_true_iff.trans hfirst)
      · rw [Function.comp_apply, Occurrence.span_inside, hfront]
        rfl
    · have hbehind : ∀ o ∈ occurrencesFrom (front ++ lexeme.text) lexeme.rest,
          offset + lexeme.text.byteLength ≤ o.span.start := by
        intro o ho
        have hstart := le_start_of_mem_occurrencesFrom ho
        rwa [byteLength_append, hfront] at hstart
      rw [← ih (front ++ lexeme.text) (by simp [hfront])]
      exact congrArg (List.map _) (List.filter_congr fun o ho =>
        decide_eq_decide.mpr (exists_within_cons_of_le (k := ⟨lexeme.kind, lexeme.text, offset⟩)
          (hbehind o ho)))

theorem map_filter_occurrences_cons {β : Type*} (g : Char → Span → β) (p : Char → Bool) (c : Char)
    (t : Text) (offset : Nat) :
    ((occurrences (c :: t)).filter (p ·.char)).map (fun o => g o.char (o.span.shift offset)) =
      (if p c then [g c ⟨offset, c.utf8Size⟩] else []) ++
        (t.occurrences.filter (p ·.char)).map
          fun o => g o.char (o.span.shift (offset + c.utf8Size)) := by
  have hlater : ((t.occurrences.map (·.inside [c] [])).filter (p ·.char)).map
        (fun o => g o.char (o.span.shift offset)) =
      (t.occurrences.filter (p ·.char)).map
        fun o => g o.char (o.span.shift (offset + c.utf8Size)) := by
    rw [List.filter_map, List.map_map]
    simp [Function.comp_def, Nat.add_comm]
  rw [occurrences_cons, List.filter_cons, ← hlater]
  by_cases hc : p c <;> simp [hc, Occurrence.span, Span.shift]

theorem char_mem_of_mem_occurrences {s : Text} {o : Occurrence} (ho : o ∈ s.occurrences) :
    o.char ∈ s := by
  rw [mem_occurrences_iff.mp ho]
  simp

end Text

/-! ### The findings on characters -/

/-- Whether a fault is a letter that is not supported. -/
def Issue.isUnsupportedFlag : Issue → Bool
  | unsupportedFlag _ => true
  | _ => false

theorem Issue.tokenKind?_of_isUnsupportedFlag {i : Issue} (h : i.isUnsupportedFlag = true) :
    i.tokenKind? = some .flags := by
  cases i <;> first | rfl | contradiction

theorem Token.letterFindings_eq_map (flags : FlagSet) (offset : Nat) (letters : Text) :
    letterFindings flags offset letters =
      ((Text.occurrences letters).filter (·.char ∉ flags)).map
        fun o => ⟨.unsupportedFlag o.char, o.span.shift offset⟩ := by
  induction letters generalizing offset with
  | nil => rfl
  | cons c letters ih =>
    rw [letterFindings, ih, Text.map_filter_occurrences_cons
      (fun c s => (⟨.unsupportedFlag c, s⟩ : Finding)) (· ∉ flags)]
    by_cases hc : c ∈ flags <;> simp [hc]

namespace Text

variable {t : Text} {k : Token}

/-- A stray character is one error at its place, and no other token has errors of its kind. -/
theorem filter_strayCharacter_findings (hk : k ∈ t.tokens) (flags : FlagSet) :
    (k.findings flags none).filter (·.issue = .strayCharacter) =
      (k.text.occurrences.filter fun o => k.kind ≠ .quoted && isStray o.char).map
        fun o => ⟨.strayCharacter, o.span.shift k.offset⟩ := by
  by_cases hkind : k.kind = .stray
  · obtain ⟨c, htext, hc⟩ := exists_of_kind_eq_stray hk hkind
    simp [Token.findings, hkind, htext, occurrences, occurrencesFrom, hc, Occurrence.span,
      Token.span, Span.shift]
  · have hother (i : Issue) (hi : decide (i = .strayCharacter) = true) :
        i.tokenKind? ≠ some k.kind := by
      intro heq
      rw [of_decide_eq_true hi] at heq
      exact hkind (Option.some.inj heq).symm
    rw [Token.filter_findings_eq_nil hother, eq_comm, List.map_eq_nil_iff, List.filter_eq_nil_iff]
    intro o ho hselected
    obtain ⟨hquoted, hstray⟩ := (Bool.and_eq_true _ _).mp hselected
    have hword := isWordCharacter_of_mem_text hk (of_decide_eq_true hquoted) hkind o.char
      (char_mem_of_mem_occurrences ho)
    simp [not_isStray_of_isWordCharacter hword] at hstray

theorem filter_isUnsupportedFlag_findings (hk : k ∈ t.tokens) (flags : FlagSet) :
    (k.findings flags none).filter (·.issue.isUnsupportedFlag) =
      (k.text.occurrences.filter fun o =>
        k.kind = .flags && (isFlagLetter o.char && o.char ∉ flags)).map
          fun o => ⟨.unsupportedFlag o.char, o.span.shift k.offset⟩ := by
  by_cases hkind : k.kind = .flags
  · obtain ⟨letters, htext, hne, hletters⟩ := exists_of_kind_eq_flags hk hkind
    have hfindings : k.findings flags none = Token.letterFindings flags (k.offset + 1) letters := by
      rw [Token.findings, hkind, Token.flagFindings, htext]
      simp
    have hall : (Token.letterFindings flags (k.offset + 1) letters).filter
        (·.issue.isUnsupportedFlag) = Token.letterFindings flags (k.offset + 1) letters := by
      refine List.filter_eq_self.mpr fun f hf => ?_
      obtain ⟨_, _, _, -, -, rfl⟩ := Token.mem_letterFindings_iff.mp hf
      rfl
    have hfilter : (occurrences letters).filter (fun o => k.kind = .flags &&
        (isFlagLetter o.char && o.char ∉ flags)) =
          (occurrences letters).filter (·.char ∉ flags) := by
      refine List.filter_congr fun o ho => ?_
      simp [hkind, hletters o.char (char_mem_of_mem_occurrences ho)]
    -- the dash in front of the letters is none
    rw [hfindings, hall, htext, map_filter_occurrences_cons
      (fun c s => (⟨.unsupportedFlag c, s⟩ : Finding))
      (fun c => k.kind = .flags && (isFlagLetter c && c ∉ flags)), hfilter,
      Token.letterFindings_eq_map]
    simp [show isFlagLetter '-' = false from rfl, show '-'.utf8Size = 1 from rfl]
  · have hother (i : Issue) (hi : i.isUnsupportedFlag = true) :
        i.tokenKind? ≠ some k.kind := by
      intro heq
      rw [Issue.tokenKind?_of_isUnsupportedFlag hi] at heq
      exact hkind (Option.some.inj heq).symm
    simp [Token.filter_findings_eq_nil hother, hkind]

/-! ### The findings on the characters of a stage -/

/-- The findings of some kinds on a stage are read off its characters if those on each token are. -/
theorem filter_stageFindings_eq_map {p : Issue → Bool} (hlike : p .likeWithoutWildcard = false)
    (hpattern : p .missingPattern = false) {flags : FlagSet} (g : Char → Span → Finding)
    (q : Token.Kind → Char → Bool)
    (h : ∀ k ∈ t.tokens, (k.findings flags none).filter (p ·.issue) =
      (k.text.occurrences.filter fun o => q k.kind o.char).map
        fun o => g o.char (o.span.shift k.offset)) :
    (stageFindings flags t t.tokens).filter (p ·.issue) =
      (t.occurrences.filter fun o =>
        ∃ k ∈ t.tokens, q k.kind o.char = true ∧ o.span.Within k.span).map
          fun o => g o.char o.span :=
  (filter_stageFindings_tokens hlike hpattern h).trans
    (map_filter_occurrencesFrom g q [] rfl t).symm

/-- A stray character that lies in a token that is no quoted string lies in no quoted string. -/
theorem exists_isStray_within_iff {o : Occurrence} (ho : o ∈ t.occurrences) :
    (∃ k ∈ t.tokens, (k.kind ≠ .quoted && isStray o.char) = true ∧ o.span.Within k.span) ↔
      isControl o.char = true ∧ isBlank o.char = false ∧ ¬ o.LiesIn .quoted t.tokens := by
  constructor
  · rintro ⟨k, hk, hselected, hwithin⟩
    obtain ⟨hquoted, hstray⟩ := (Bool.and_eq_true _ _).mp hselected
    obtain ⟨hcontrol, hblank⟩ := (Bool.and_eq_true _ _).mp hstray
    refine ⟨hcontrol, by simpa using hblank, ?_⟩
    rintro ⟨m, hm, hkind, hmwithin⟩
    obtain rfl := eq_of_within_of_within hk hm hwithin hmwithin
    exact of_decide_eq_true hquoted hkind
  · rintro ⟨hcontrol, hblank, hnone⟩
    obtain ⟨k, hk, hwithin⟩ := exists_within_of_mem_occurrencesFrom [] rfl ho hblank
    have hquoted : k.kind ≠ .quoted := fun hkind => hnone ⟨k, hk, hkind, hwithin⟩
    exact ⟨k, hk, by simp [hquoted, isStray, hcontrol, hblank], hwithin⟩

theorem exists_isFlagLetter_within_iff {flags : FlagSet} {o : Occurrence} :
    (∃ k ∈ t.tokens, (k.kind = .flags && (isFlagLetter o.char && o.char ∉ flags)) = true ∧
        o.span.Within k.span) ↔
      isFlagLetter o.char = true ∧ o.char ∉ flags ∧ o.LiesIn .flags t.tokens := by
  simp only [Bool.and_eq_true, decide_eq_true_eq]
  constructor
  · rintro ⟨k, hk, ⟨hkind, hletter, hflags⟩, hwithin⟩
    exact ⟨hletter, hflags, k, hk, hkind, hwithin⟩
  · rintro ⟨hletter, hflags, k, hk, hkind, hwithin⟩
    exact ⟨k, hk, ⟨hkind, hletter, hflags⟩, hwithin⟩

/-- **No character is missed or reported twice.** The errors about stray characters on a stage are,
in the order of the text and one each, the control characters that are not white space and lie in no
quoted string, and each has one byte or two. The warnings about letters are, in the order of the
text and one each, the letters in groups of flags that are not supported. The names of commands, the
groups of flags and the words hold neither white space nor control characters. -/
theorem filter_character_stageFindings (flags : FlagSet) (t : Text) :
    t.occurrences.Pairwise (·.span.stop ≤ ·.span.start) ∧
      (stageFindings flags t t.tokens).filter (·.issue = .strayCharacter) =
        (t.occurrences.filter fun o => isControl o.char = true ∧ isBlank o.char = false ∧
          ¬ o.LiesIn .quoted t.tokens).map (fun o => ⟨.strayCharacter, o.span⟩) ∧
      (∀ o ∈ t.occurrences, isControl o.char = true → o.span.length = 1 ∨ o.span.length = 2) ∧
      (stageFindings flags t t.tokens).filter (·.issue.isUnsupportedFlag) =
        (t.occurrences.filter fun o => isFlagLetter o.char = true ∧ o.char ∉ flags ∧
          o.LiesIn .flags t.tokens).map (fun o => ⟨.unsupportedFlag o.char, o.span⟩) ∧
      ∀ k ∈ t.tokens, k.kind = .command ∨ k.kind = .flags ∨ k.kind = .word →
        ∀ c ∈ k.text, isBlank c = false ∧ isControl c = false := by
  refine ⟨pairwise_occurrences t, ?_, fun o _ hcontrol => utf8Size_of_isControl hcontrol, ?_,
    fun k hk hkind c hc => ?_⟩
  · rw [filter_stageFindings_eq_map (p := (· = .strayCharacter)) rfl rfl
      (fun _ s => ⟨.strayCharacter, s⟩) (fun kind c => kind ≠ .quoted && isStray c)
      fun k hk => filter_strayCharacter_findings hk flags]
    exact congrArg (List.map _) (List.filter_congr fun o ho =>
      decide_eq_decide.mpr (exists_isStray_within_iff ho))
  · rw [filter_stageFindings_eq_map (p := Issue.isUnsupportedFlag) rfl rfl
      (fun c s => ⟨.unsupportedFlag c, s⟩)
      (fun kind c => kind = .flags && (isFlagLetter c && c ∉ flags))
      fun k hk => filter_isUnsupportedFlag_findings hk flags]
    exact congrArg (List.map _) (List.filter_congr fun o _ =>
      decide_eq_decide.mpr exists_isFlagLetter_within_iff)
  · have hquoted : k.kind ≠ .quoted := by
      rcases hkind with h | h | h <;> simp [h]
    have hstray : k.kind ≠ .stray := by
      rcases hkind with h | h | h <;> simp [h]
    exact isWordCharacter_iff.mp (isWordCharacter_of_mem_text hk hquoted hstray c hc)

/-- A letter that stands twice in a group, a control character of two bytes behind the group, one
that is white space, and one between quotes. -/
theorem filter_character_stageFindings_controls :
    ((stageFindings .standard "-iqq\u0080\u0085'\u0001'".toList
        (tokens "-iqq\u0080\u0085'\u0001'".toList)).filter (·.issue = .strayCharacter) =
          [⟨.strayCharacter, ⟨4, 2⟩⟩] ∧
      (stageFindings .standard "-iqq\u0080\u0085'\u0001'".toList
        (tokens "-iqq\u0080\u0085'\u0001'".toList)).filter (·.issue.isUnsupportedFlag) =
          [⟨.unsupportedFlag 'q', ⟨2, 1⟩⟩, ⟨.unsupportedFlag 'q', ⟨3, 1⟩⟩]) ∧
      (⟨"-iqq".toList, '\u0080', "\u0085'\u0001'".toList⟩ ∈
          occurrences "-iqq\u0080\u0085'\u0001'".toList ∧
        ('\u0080'.utf8Size = 1 ∨ '\u0080'.utf8Size = 2)) ∧
      ⟨.flags, "-iqq".toList, 0⟩ ∈ tokens "-iqq\u0080\u0085'\u0001'".toList ∧
        ∀ c ∈ "-iqq".toList, isBlank c = false ∧ isControl c = false := by
  obtain ⟨-, hstray, hsize, hletters, hwords⟩ :=
    filter_character_stageFindings .standard "-iqq\u0080\u0085'\u0001'".toList
  have hcontrol : ⟨"-iqq".toList, '\u0080', "\u0085'\u0001'".toList⟩ ∈
      occurrences "-iqq\u0080\u0085'\u0001'".toList := by decide +kernel
  have hgroup : ⟨.flags, "-iqq".toList, 0⟩ ∈ tokens "-iqq\u0080\u0085'\u0001'".toList := by
    decide +kernel
  exact ⟨⟨hstray.trans (by decide +kernel), hletters.trans (by decide +kernel)⟩,
    ⟨hcontrol, hsize _ hcontrol (by decide)⟩, hgroup, hwords _ hgroup (Or.inr (Or.inl rfl))⟩

end Text

end PipeLint
