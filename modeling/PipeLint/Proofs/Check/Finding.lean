import PipeLint.Check.Stage

/-!
# What the findings on a stage are about

The findings on a stage, traced back to the token, the letter or the backslash that they are about.
The tokens are arbitrary here: nothing is assumed about their texts or their offsets.

## Main results

* `PipeLint.mem_tokenFindings_iff`: a finding on a list of tokens is one on a token of it.
* `PipeLint.Token.mem_letterFindings_iff`: the warnings on letters are about the letters that are
  not supported.
* `PipeLint.Text.exists_of_mem_invalidEscapes`: the warnings on escapes are about backslashes that
  start none.
* `PipeLint.Token.cases_of_mem_flagFindings`, `PipeLint.Token.cases_of_mem_quotedFindings`,
  `PipeLint.Token.cases_of_mem_wordFindings`: what the findings on a token are about.
* `PipeLint.Token.issue_of_mem_flagFindings`, `PipeLint.Token.issue_of_mem_quotedFindings`,
  `PipeLint.Token.issue_of_mem_wordFindings`: the faults that the checks on a token look for.
* `PipeLint.Token.tokenKind?_of_mem_findings`: findings of different kinds of tokens are different.
* `PipeLint.isOfToken_of_mem_tokenFindings`: no finding on tokens is about a stage or a pipeline.
* `PipeLint.filter_stageFindings`: the findings of some kinds, token by token.
-/

namespace PipeLint

variable {flags : FlagSet} {f : Finding} {k : Token}

/-! ### Tokens -/

/-- A finding on a list of tokens is a finding on one of them, given the token after it. -/
theorem mem_tokenFindings_iff {tokens : List Token} :
    f ∈ tokenFindings flags tokens ↔
      ∃ front k back, tokens = front ++ k :: back ∧ f ∈ k.findings flags back.head? := by
  induction tokens with
  | nil => simp [tokenFindings]
  | cons k tokens ih =>
    rw [tokenFindings, List.mem_append, ih]
    constructor
    · rintro (h | ⟨front, k', back, rfl, h⟩)
      · exact ⟨[], k, tokens, rfl, h⟩
      · exact ⟨k :: front, k', back, rfl, h⟩
    · rintro ⟨front, k', back, heq, h⟩
      cases front with
      | nil =>
        obtain ⟨rfl, rfl⟩ := List.cons.inj heq
        exact Or.inl h
      | cons _ front =>
        obtain ⟨-, rfl⟩ := List.cons.inj heq
        exact Or.inr ⟨front, k', back, rfl, h⟩

/-- A finding on a stage is one on its tokens, or says that the stage has nothing to search for. -/
theorem mem_stageFindings_iff {stage : Text} {tokens : List Token} :
    f ∈ stageFindings flags stage tokens ↔
      ¬ stage.Blank ∧ (f ∈ tokenFindings flags tokens ∨
        (∀ k ∈ tokens, k.isSearchable flags = false) ∧
          f = ⟨.missingPattern, ⟨0, stage.byteLength⟩⟩) := by
  rw [stageFindings]
  split
  · simp [*]
  split
  · rename_i hblank hany
    simp only [hblank, not_false_eq_true, true_and]
    refine ⟨Or.inl, ?_⟩
    rintro (h | ⟨hall, -⟩)
    · exact h
    · obtain ⟨k, hk, hsearch⟩ := List.any_eq_true.mp hany
      simp [hall k hk] at hsearch
  · rename_i hblank hany
    have hall : ∀ k ∈ tokens, k.isSearchable flags = false := by simpa using hany
    simp only [hblank, not_false_eq_true, true_and, List.mem_append, List.mem_singleton]
    exact or_congr_right (and_iff_right hall).symm

/-! ### Letters of a group of flags -/

/-- The warnings on letters are about the letters that are not supported, each at its place. -/
theorem Token.mem_letterFindings_iff {offset : Nat} {letters : Text} :
    f ∈ letterFindings flags offset letters ↔
      ∃ front c back, letters = front ++ c :: back ∧ c ∉ flags ∧
        f = ⟨.unsupportedFlag c, ⟨offset + Text.byteLength front, c.utf8Size⟩⟩ := by
  induction letters generalizing offset with
  | nil => simp [letterFindings]
  | cons c letters ih =>
    have hlater : f ∈ letterFindings flags (offset + c.utf8Size) letters ↔
        ∃ front d back, letters = front ++ d :: back ∧ d ∉ flags ∧
          f = ⟨.unsupportedFlag d, ⟨offset + Text.byteLength (c :: front), d.utf8Size⟩⟩ := by
      simp only [ih, Text.byteLength_cons, Nat.add_assoc]
    have hcons : f ∈ letterFindings flags offset (c :: letters) ↔
        (c ∉ flags ∧ f = ⟨.unsupportedFlag c, ⟨offset, c.utf8Size⟩⟩) ∨
          f ∈ letterFindings flags (offset + c.utf8Size) letters := by
      by_cases hc : c ∈ flags <;> simp [letterFindings, hc]
    rw [hcons, hlater]
    constructor
    · rintro (⟨hc, hf⟩ | ⟨front, d, back, rfl, hd, hf⟩)
      · exact ⟨[], c, letters, rfl, hc, hf⟩
      · exact ⟨c :: front, d, back, rfl, hd, hf⟩
    · rintro ⟨front, d, back, heq, hd, hf⟩
      cases front with
      | nil =>
        obtain ⟨rfl, rfl⟩ := List.cons.inj heq
        exact Or.inl ⟨hd, hf⟩
      | cons _ front =>
        obtain ⟨rfl, rfl⟩ := List.cons.inj heq
        exact Or.inr ⟨front, d, back, rfl, hd, hf⟩

/-! ### Escapes -/

/-- The warnings on escapes are about backslashes that start no escape, each at its place. -/
theorem Text.exists_of_mem_invalidEscapes {offset : Nat} {t : Text}
    (h : f ∈ invalidEscapes offset t) :
    ∃ front c back, t = front ++ '\\' :: c :: back ∧ isEscape c back = false ∧
      f = ⟨.invalidEscape, ⟨offset + front.byteLength, 1 + c.utf8Size⟩⟩ := by
  fun_induction invalidEscapes offset t with
  | case1 => simp at h
  | case2 offset c t later hesc ih =>
    obtain ⟨front, d, back, rfl, hd, rfl⟩ := ih h
    refine ⟨'\\' :: c :: front, d, back, rfl, hd, ?_⟩
    simp [Nat.add_assoc, show '\\'.utf8Size = 1 from rfl]
  | case3 offset c t later hesc ih =>
    rcases List.mem_cons.mp h with rfl | h
    · exact ⟨[], c, t, rfl, by simpa using hesc, rfl⟩
    · obtain ⟨front, d, back, rfl, hd, rfl⟩ := ih h
      refine ⟨'\\' :: c :: front, d, back, rfl, hd, ?_⟩
      simp [Nat.add_assoc, show '\\'.utf8Size = 1 from rfl]
  | case4 offset c t _ ih =>
    obtain ⟨front, d, back, rfl, hd, rfl⟩ := ih h
    exact ⟨c :: front, d, back, rfl, hd, by simp [Nat.add_assoc]⟩

theorem Text.eq_concat_of_interior?_eq {quote : Char} {rest interior : Text}
    (h : interior? (quote :: rest) = some interior) : rest = interior ++ [quote] := by
  rw [interior?] at h
  split at h
  · rename_i hend
    obtain ⟨front, rfl⟩ := List.getLast?_eq_some_iff.mp hend.1
    rw [← Option.some.inj h, List.dropLast_concat]
  · contradiction

/-! ### The faults of a token -/

namespace Token

/-- A finding on a group of flags is about the group as a whole, or about a letter behind its dash
that is not supported. -/
theorem cases_of_mem_flagFindings (h : f ∈ k.flagFindings flags) :
    f.span = k.span ∧ (f.issue = .missingDash ∨ f.issue = .emptyFlags) ∨
      ∃ front c back, k.text = '-' :: (front ++ c :: back) ∧ c ∉ flags ∧
        f = ⟨.unsupportedFlag c, ⟨k.offset + 1 + Text.byteLength front, c.utf8Size⟩⟩ := by
  rw [flagFindings] at h
  split at h
  · obtain rfl := List.mem_singleton.mp h
    exact Or.inl ⟨rfl, Or.inr rfl⟩
  · rename_i letters _ htext
    obtain ⟨front, c, back, rfl, hc, rfl⟩ := mem_letterFindings_iff.mp h
    exact Or.inr ⟨front, c, back, htext, hc, rfl⟩
  · obtain rfl := List.mem_singleton.mp h
    exact Or.inl ⟨rfl, Or.inl rfl⟩

/-- A finding on a quoted string is about the string as a whole, or about a backslash between its
quotes that starts no escape. The place of the backslash is counted as if the quote had one byte. -/
theorem cases_of_mem_quotedFindings (h : f ∈ k.quotedFindings) :
    f.span = k.span ∧ (f.issue = .malformedString ∨ ∃ quote, f.issue = .openQuote quote) ∨
      ∃ quote front c back, k.text = quote :: (front ++ '\\' :: c :: back ++ [quote]) ∧
        isEscape c back = false ∧
        f = ⟨.invalidEscape, ⟨k.offset + 1 + Text.byteLength front, 1 + c.utf8Size⟩⟩ := by
  rw [quotedFindings] at h
  split at h
  · simp at h
  rename_i quote rest htext
  split at h
  · obtain rfl := List.mem_singleton.mp h
    exact Or.inl ⟨rfl, Or.inl rfl⟩
  split at h
  · obtain rfl := List.mem_singleton.mp h
    exact Or.inl ⟨rfl, Or.inr ⟨quote, rfl⟩⟩
  · rename_i interior hinterior
    obtain ⟨front, c, back, rfl, hesc, rfl⟩ := Text.exists_of_mem_invalidEscapes h
    rw [Text.eq_concat_of_interior?_eq hinterior] at htext
    exact Or.inr ⟨quote, front, c, back, htext, hesc, rfl⟩

/-- A finding on a word is about the word, or about the token after it. -/
theorem cases_of_mem_wordFindings {next? : Option Token} (h : f ∈ k.wordFindings next?) :
    f = ⟨.likeWithoutWildcard, k.span⟩ ∨
      ∃ n, next? = some n ∧ f = ⟨.likeWithoutWildcard, n.span⟩ := by
  rw [wordFindings] at h
  split at h
  · split at h
    · exact Or.inl (List.mem_singleton.mp h)
    · rename_i n hn
      split at h
      · simp at h
      · exact Or.inr ⟨n, (Option.filter_eq_some_iff.mp hn).1, List.mem_singleton.mp h⟩
  · simp at h

theorem issue_of_mem_flagFindings (h : f ∈ k.flagFindings flags) :
    f.issue = .missingDash ∨ f.issue = .emptyFlags ∨ ∃ c, f.issue = .unsupportedFlag c := by
  rcases cases_of_mem_flagFindings h with ⟨-, hdash | hempty⟩ | ⟨_, c, _, _, _, rfl⟩
  · exact Or.inl hdash
  · exact Or.inr (Or.inl hempty)
  · exact Or.inr (Or.inr ⟨c, rfl⟩)

theorem issue_of_mem_quotedFindings (h : f ∈ k.quotedFindings) :
    f.issue = .malformedString ∨ (∃ quote, f.issue = .openQuote quote) ∨
      f.issue = .invalidEscape := by
  rcases cases_of_mem_quotedFindings h with ⟨-, hshort | hopen⟩ | ⟨_, _, _, _, _, _, rfl⟩
  · exact Or.inl hshort
  · exact Or.inr (Or.inl hopen)
  · exact Or.inr (Or.inr rfl)

theorem issue_of_mem_wordFindings {next? : Option Token} (h : f ∈ k.wordFindings next?) :
    f.issue = .likeWithoutWildcard := by
  rcases cases_of_mem_wordFindings h with rfl | ⟨n, -, rfl⟩ <;> rfl

end Token

/-- The kind of the tokens that can have a fault, if any token can. -/
def Issue.tokenKind? : Issue → Option Token.Kind
  | missingDash | emptyFlags | unsupportedFlag _ => some .flags
  | malformedString | openQuote _ | invalidEscape => some .quoted
  | strayCharacter => some .stray
  | likeWithoutWildcard => some .word
  | missingPattern | trailingEscape | negatedFinalStage | repeatedIgnoreCase => none

/-- A finding on a token tells the kind of the token. -/
theorem Token.tokenKind?_of_mem_findings {next? : Option Token} (h : f ∈ k.findings flags next?) :
    f.issue.tokenKind? = some k.kind := by
  cases hkind : k.kind <;> simp only [findings, hkind] at h
  case command => simp at h
  case flags => rcases issue_of_mem_flagFindings h with hf | hf | ⟨c, hf⟩ <;> rw [hf] <;> rfl
  case quoted => rcases issue_of_mem_quotedFindings h with hf | ⟨quote, hf⟩ | hf <;> rw [hf] <;> rfl
  case word =>
    rw [issue_of_mem_wordFindings h]
    rfl
  case stray =>
    obtain rfl := List.mem_singleton.mp h
    rfl

/-- A token has no findings about faults of other kinds of tokens. -/
theorem Token.filter_findings_eq_nil {p : Issue → Bool}
    (hp : ∀ i, p i = true → i.tokenKind? ≠ some k.kind) (next? : Option Token) :
    (k.findings flags next?).filter (p ·.issue) = [] :=
  List.filter_eq_nil_iff.mpr fun f hf hissue => hp f.issue hissue (tokenKind?_of_mem_findings hf)

/-- Whether a fault is one that a token can have. -/
def Issue.isOfToken : Issue → Bool
  | missingPattern | trailingEscape | negatedFinalStage | repeatedIgnoreCase => false
  | _ => true

theorem Issue.isOfToken_eq_isSome (i : Issue) : i.isOfToken = i.tokenKind?.isSome := by
  cases i <;> rfl

theorem Token.isOfToken_of_mem_findings {next? : Option Token} (h : f ∈ k.findings flags next?) :
    f.issue.isOfToken = true := by
  rw [Issue.isOfToken_eq_isSome, tokenKind?_of_mem_findings h, Option.isSome_some]

theorem isOfToken_of_mem_tokenFindings {tokens : List Token}
    (h : f ∈ tokenFindings flags tokens) : f.issue.isOfToken = true := by
  obtain ⟨_, k, _, _, hk⟩ := mem_tokenFindings_iff.mp h
  exact Token.isOfToken_of_mem_findings hk

/-! ### Findings of some kinds -/

section Kind

variable {p : Issue → Bool} (hlike : p .likeWithoutWildcard = false)

include hlike

/-- Only the check on the word `LIKE` looks at the token after it. -/
theorem Token.filter_findings (k : Token) (next? : Option Token) :
    (k.findings flags next?).filter (p ·.issue) = (k.findings flags none).filter (p ·.issue) := by
  have hword (next? : Option Token) : (k.wordFindings next?).filter (p ·.issue) = [] :=
    List.filter_eq_nil_iff.mpr fun f hf => by simp [issue_of_mem_wordFindings hf, hlike]
  cases hkind : k.kind <;> simp only [findings, hkind, hword]

theorem filter_tokenFindings (tokens : List Token) :
    (tokenFindings flags tokens).filter (p ·.issue) =
      tokens.flatMap fun k => (k.findings flags none).filter (p ·.issue) := by
  induction tokens with
  | nil => rfl
  | cons k tokens ih =>
    rw [tokenFindings, List.filter_append, Token.filter_findings hlike, ih, List.flatMap_cons]

theorem filter_stageFindings (hpattern : p .missingPattern = false) (stage : Text)
    (tokens : List Token) :
    (stageFindings flags stage tokens).filter (p ·.issue) =
      if stage.Blank then []
      else tokens.flatMap fun k => (k.findings flags none).filter (p ·.issue) := by
  rw [← filter_tokenFindings hlike, stageFindings]
  split
  · rfl
  split
  · rfl
  · simp [hpattern]

end Kind

end PipeLint
