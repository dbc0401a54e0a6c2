import PipeLint.Proofs.Grammar.Item

/-!
# The tokens of joined texts

White space between two texts keeps their tokens apart: the tokens of the whole are those of the
front and then those of the back. White space belongs to no word and ends every group of flags, so
only a string that is not closed can reach over it.

## Main results

* `PipeLint.Lexeme.first_append`: text behind white space does not change the first token.
* `PipeLint.Text.tokensFrom_append`: the tokens of joined texts.
* `PipeLint.Text.tokensFrom_append_of_blank`: white space in front of a text.
* `PipeLint.Text.tokens_append_append_iff`: white space between two texts.
-/

namespace PipeLint

/-! ### One token -/

variable {t back : Text}

/-- White space behind a text ends a run of other characters, as the end of the text does. -/
theorem takeWhile_append_of_blank {p : Char → Bool} (hp : ∀ d, isBlank d = true → p d = false)
    (hback : t.dropWhile p = [] → ∀ d, back.head? = some d → isBlank d = true) :
    (t ++ back).takeWhile p = t.takeWhile p ∧ (t ++ back).dropWhile p = t.dropWhile p ++ back := by
  have hrun : ∀ d ∈ t.takeWhile p, p d = true := List.all_eq_true.mp List.all_takeWhile
  have hrest : ∀ d, (t.dropWhile p ++ back).head? = some d → p d = false := by
    intro d hd
    cases hnil : t.dropWhile p with
    | nil => exact hp d (hback hnil d (by simpa [hnil] using hd))
    | cons e rest =>
      refine eq_false_of_head?_dropWhile (l := t) ?_
      simpa [hnil] using hd
  have happend : t ++ back = t.takeWhile p ++ (t.dropWhile p ++ back) := by
    rw [← List.append_assoc, List.takeWhile_append_dropWhile]
  rw [happend]
  exact ⟨takeWhile_append_eq hrun hrest, dropWhile_append_eq hrun hrest⟩

theorem any_head?_append_of_blank
    (hback : t = [] → ∀ d, back.head? = some d → isBlank d = true) :
    (t ++ back).head?.any isFlagLetter = t.head?.any isFlagLetter := by
  cases t with
  | cons d t => rfl
  | nil =>
    cases back with
    | nil => rfl
    | cons d back => simpa using isFlagLetter_of_isBlank (hback rfl d rfl)

namespace Lexeme

variable {c : Char}

/-- Text behind a token that is not open does not change it, if white space comes first whenever
the token reaches to the end of its text. -/
theorem first_append (hblank : isBlank c = false)
    (hclosed : ¬ ((first c t).kind = .quoted ∧ (first c t).text.EndsQuoted))
    (hback : (first c t).rest = [] → ∀ d, back.head? = some d → isBlank d = true) :
    first c (t ++ back) = ⟨(first c t).kind, (first c t).text, (first c t).rest ++ back⟩ := by
  rcases first_cases c t with
    ⟨hc, heq⟩ | ⟨rfl, hletter, heq⟩ | ⟨hc, heq⟩ | ⟨hquote, hflags, hplain, heq⟩ <;>
    rw [heq] at hclosed hback ⊢
  · -- a string is closed by a quote that stands in the front already
    obtain ⟨inner, rest, hinner, rfl⟩ :=
      Text.exists_isInterior_of_not_endsQuoted hc fun hends => hclosed ⟨rfl, hends⟩
    have happend : inner ++ c :: rest ++ back = inner ++ c :: (rest ++ back) := by simp
    rw [first, if_pos hc, quoted, quoted, happend, Text.quotedSpan_of_isInterior hc hinner,
      Text.quotedSpan_of_isInterior hc hinner]
  · -- a group of flags
    obtain ⟨htake, hdrop⟩ := takeWhile_append_of_blank (fun _ => isFlagLetter_of_isBlank) hback
    have hhead := any_head?_append_of_blank (t := t) fun ht => hback (by rw [ht]; rfl)
    rw [first, if_neg (by decide), if_pos ⟨rfl, hhead.trans hletter⟩, flags, flags, htake, hdrop]
  · exact first_of_isStray hc (t ++ back)
  · -- a word or the name of a command
    have hnot : ∀ d, isBlank d = true → isWordCharacter d = false :=
      fun d hd => isWordCharacter_eq_false_iff.mpr (Or.inl hd)
    obtain ⟨htake, hdrop⟩ := takeWhile_append_of_blank hnot hback
    have hhead := any_head?_append_of_blank (t := t) fun ht => hback (by rw [ht]; rfl)
    -- white space behind the word leaves it the name of a command, if it was one
    have hname : (t.dropWhile isWordCharacter ++ back).head?.all isBlank =
        (t.dropWhile isWordCharacter).head?.all isBlank := by
      cases hnil : t.dropWhile isWordCharacter with
      | cons d rest => rfl
      | nil =>
        rw [List.nil_append, List.head?_nil, Option.all_none, Option.all_eq_true]
        exact hback hnil
    rw [first, hhead, if_neg (by simp [hquote]), if_neg hflags, if_neg (by simp [hplain]), word,
      word, htake, hdrop, hname]

/-- A token that is not open does not end with white space. -/
theorem isBlank_of_getLast?_text_first (hblank : isBlank c = false)
    (hclosed : ¬ ((first c t).kind = .quoted ∧ (first c t).text.EndsQuoted)) {d : Char}
    (hd : (first c t).text.getLast? = some d) : isBlank d = false := by
  by_cases hstray : (first c t).kind = .stray
  · rcases first_cases c t with ⟨-, heq⟩ | ⟨-, -, heq⟩ | ⟨-, heq⟩ | ⟨-, -, -, heq⟩ <;>
      rw [heq] at hstray hd
    · simp at hstray
    · simp at hstray
    · obtain rfl := Option.some.inj hd
      exact hblank
    · rcases kind_word c t with h | h <;> simp [h] at hstray
  · obtain ⟨i, hfits, -, htext⟩ := Item.exists_fits_of_first hblank hstray
      fun hquoted hends => hclosed ⟨hquoted, hends⟩
    exact hfits.isBlank_of_getLast? (htext ▸ hd)

end Lexeme

/-! ### All tokens -/

namespace Text

/-- White space between two texts keeps their tokens apart, if the front has no open string. -/
theorem tokensFrom_append {offset : Nat} {a b : Text}
    (hclosed : ∀ k ∈ tokensFrom offset a, ¬ k.IsOpen)
    (hgap : (∀ c, a.getLast? = some c → isBlank c = true) ∨
      ∀ c, b.head? = some c → isBlank c = true) :
    tokensFrom offset (a ++ b) =
      tokensFrom offset a ++ tokensFrom (offset + a.byteLength) b := by
  fun_induction tokensFrom offset a with
  | case1 offset => simp
  | case2 offset c t hc ih =>
    have hrest : (∀ d, t.getLast? = some d → isBlank d = true) ∨
        ∀ d, b.head? = some d → isBlank d = true :=
      hgap.imp_left fun h d hd => h d (by rw [List.getLast?_cons, hd]; rfl)
    rw [List.cons_append, tokensFrom_cons_of_isBlank hc, ih hclosed hrest, byteLength_cons,
      Nat.add_assoc]
  | case3 offset c t hc lexeme ih =>
    have hblank : isBlank c = false := by simpa using hc
    obtain ⟨hfirst, hclosed⟩ := List.forall_mem_cons.mp hclosed
    have happend : lexeme.text ++ lexeme.rest = c :: t := Lexeme.text_append_rest_first c t
    have hrest : (∀ d, lexeme.rest.getLast? = some d → isBlank d = true) ∨
        ∀ d, b.head? = some d → isBlank d = true :=
      hgap.imp_left fun h d hd => h d (by rw [← happend, List.getLast?_append, hd]; rfl)
    have hback : lexeme.rest = [] → ∀ d, b.head? = some d → isBlank d = true := by
      intro hnil
      refine hgap.resolve_left fun hlast => ?_
      rw [← happend, hnil, List.append_nil] at hlast
      obtain ⟨d, hd⟩ := Option.isSome_iff_exists.mp
        (List.getLast?_isSome.mpr (Lexeme.text_first_ne_nil c t))
      have hnot := Lexeme.isBlank_of_getLast?_text_first hblank hfirst hd
      simp [hlast d hd] at hnot
    rw [List.cons_append, tokensFrom_cons_of_not_isBlank hblank,
      Lexeme.first_append hblank hfirst hback, ih hclosed hrest, ← happend, byteLength_append,
      Nat.add_assoc]
    rfl

/-- White space in front of a text moves its tokens. -/
theorem tokensFrom_append_of_blank {offset : Nat} {w : Text} (hw : w.Blank) (t : Text) :
    tokensFrom offset (w ++ t) = tokensFrom (offset + w.byteLength) t := by
  induction w generalizing offset with
  | nil => simp
  | cons c w ih =>
    obtain ⟨hc, hw⟩ := blank_cons.mp hw
    rw [List.cons_append, tokensFrom_cons_of_isBlank hc, ih hw, byteLength_cons, Nat.add_assoc]

theorem Blank.tokens_eq_nil {w : Text} (hw : w.Blank) : w.tokens = [] := by
  rw [tokens, ← List.append_nil w, tokensFrom_append_of_blank hw, tokensFrom_nil]

theorem stop_span_of_isOpen {t : Text} {k : Token} (hk : k ∈ t.tokens) (hopen : k.IsOpen) :
    k.span.stop = t.byteLength := by
  obtain ⟨front, _, -, hfront, ⟨_, _, -, -, hclosed, -⟩ | ⟨_, ht, -⟩⟩ :=
    cases_of_kind_eq_quoted hk hopen.1
  · exact absurd hopen.2 hclosed
  · rw [ht, byteLength_append, hfront]
    rfl

/-- **White space keeps the tokens of two texts apart.** The tokens of two texts with white space
between them are the tokens of the front and behind them those of the back, moved there, exactly if
the front does not end in an open string. -/
theorem tokens_append_append_iff {w : Text} (hw : w.Blank) (hne : w ≠ []) (a b : Text) :
    tokens (a ++ w ++ b) =
        a.tokens ++ b.tokens.map (·.shift (a.byteLength + w.byteLength)) ↔
      ∀ k, a.tokens.getLast? = some k → ¬ k.IsOpen := by
  constructor
  · intro heq k hlast hopen
    have hfront : k ∈ a.tokens := List.mem_of_getLast? hlast
    have hwhole : k ∈ tokens (a ++ w ++ b) := by
      rw [heq]
      exact List.mem_append_left _ hfront
    -- the string would end where the front ends and where the whole ends
    have hstop := (stop_span_of_isOpen hfront hopen).symm.trans (stop_span_of_isOpen hwhole hopen)
    have hpos := mt byteLength_eq_zero_iff.mp hne
    simp only [byteLength_append] at hstop
    omega
  · intro hlast
    have hclosed : ∀ k ∈ a.tokens, ¬ k.IsOpen := by
      intro k hk hopen
      obtain ⟨init, htokens, -⟩ := exists_tokens_eq_of_isOpen hk hopen
      exact hlast k (by rw [htokens, List.getLast?_concat]) hopen
    have hhead : ∀ c, (w ++ b).head? = some c → isBlank c = true := by
      obtain ⟨c, w, rfl⟩ := List.exists_cons_of_ne_nil hne
      intro d hd
      exact Option.some.inj hd ▸ (blank_cons.mp hw).1
    calc tokens (a ++ w ++ b)
        = a.tokens ++ tokensFrom (0 + a.byteLength) (w ++ b) := by
          rw [List.append_assoc]
          exact tokensFrom_append hclosed (Or.inr hhead)
      _ = a.tokens ++ b.tokens.map (·.shift (a.byteLength + w.byteLength)) := by
          rw [tokensFrom_append_of_blank hw, Nat.zero_add, tokensFrom_eq_map_shift]

/-- White space of several bytes between an escape behind a dash and a command. -/
theorem tokens_append_append_iff_wide :
    Blank "\u2003\t".toList ∧ "\u2003\t".toList ≠ [] ∧
      tokens ("'é' -\\".toList ++ "\u2003\t".toList ++ "grep -x".toList) =
        tokens "'é' -\\".toList ++ (tokens "grep -x".toList).map (·.shift 11) := by
  have hblank : Blank "\u2003\t".toList := by decide +kernel
  have hne : "\u2003\t".toList ≠ [] := by decide
  refine ⟨hblank, hne, (tokens_append_append_iff hblank hne _ _).mpr fun k hk => ?_⟩
  have hlast : (tokens "'é' -\\".toList).getLast? = some ⟨.word, "-\\".toList, 5⟩ := by
    decide +kernel
  obtain rfl := Option.some.inj (hlast.symm.trans hk)
  decide +kernel

end Text

end PipeLint
