import Mathlib.Logic.Basic
import Mathlib.Tactic.ByContra
import PipeLint.Proofs.Check.Finding
import PipeLint.Proofs.Token.Shape

/-!
# What the supported letters decide

The letters that are supported decide two things about a stage: which letters of its groups of flags
are warned about, and whether such a group gives the stage something to search for. The warnings
under any set of letters are those under the empty set, less the ones about letters of the set. A
stage can lose what it has to search for when more letters are supported, since a group of flags
with supported letters only is not taken for a pattern any more.

## Main definitions

* `PipeLint.Issue.isAboutLetterOf`: the warnings about the letters of a set.
* `PipeLint.Text.LosesPattern`: the stages that have something to search for under one set of
  letters only because the set lacks a letter that another one has.

## Main results

* `PipeLint.tokenFindings_eq_filter`: the findings on tokens in terms of the empty set.
* `PipeLint.Text.losesPattern_iff`: what it means to lose something to search for.
* `PipeLint.Text.stageFindings_congr`: sets that agree on the letters of groups find the same.
* `PipeLint.Text.filter_error_stageFindings_of_subset`: the errors on a stage when more letters are
  supported.
-/

namespace PipeLint

/-! ### Warnings about letters -/

/-- Whether a fault is that a letter of a set is not supported. -/
def Issue.isAboutLetterOf (flags : FlagSet) : Issue → Bool
  | unsupportedFlag c => c ∈ flags
  | _ => false

theorem Issue.severity_of_isAboutLetterOf {flags : FlagSet} {i : Issue}
    (h : i.isAboutLetterOf flags = true) : i.severity = .warning := by
  cases i <;> first | rfl | simp [isAboutLetterOf] at h

namespace Token

variable (flags : FlagSet)

theorem letterFindings_eq_filter (offset : Nat) (letters : Text) :
    letterFindings flags offset letters =
      (letterFindings ∅ offset letters).filter (!·.issue.isAboutLetterOf flags) := by
  induction letters generalizing offset with
  | nil => rfl
  | cons c letters ih =>
    by_cases hc : c ∈ flags <;>
      simp [letterFindings, Issue.isAboutLetterOf, hc, ih (offset + c.utf8Size)]

theorem flagFindings_eq_filter (k : Token) :
    k.flagFindings flags = (k.flagFindings ∅).filter (!·.issue.isAboutLetterOf flags) := by
  simp only [flagFindings]
  split
  · rfl
  · exact letterFindings_eq_filter flags _ _
  · rfl

/-- The findings on a token under a set of letters are those under the empty set, less the warnings
about letters of the set. -/
theorem findings_eq_filter (k : Token) (next? : Option Token) :
    k.findings flags next? =
      (k.findings ∅ next?).filter (!·.issue.isAboutLetterOf flags) := by
  simp only [findings]
  split
  · rfl
  · exact flagFindings_eq_filter flags k
  · refine (List.filter_eq_self.mpr fun f hf => ?_).symm
    rcases issue_of_mem_quotedFindings hf with h | ⟨quote, h⟩ | h <;> rw [h] <;> rfl
  · refine (List.filter_eq_self.mpr fun f hf => ?_).symm
    rw [issue_of_mem_wordFindings hf]
    rfl
  · rfl

end Token

theorem tokenFindings_eq_filter (flags : FlagSet) (tokens : List Token) :
    tokenFindings flags tokens =
      (tokenFindings ∅ tokens).filter (!·.issue.isAboutLetterOf flags) := by
  induction tokens with
  | nil => rfl
  | cons k tokens ih =>
    rw [tokenFindings, tokenFindings, List.filter_append, ← ih, ← Token.findings_eq_filter]

/-! ### Something to search for -/

namespace Token

theorem flagLetters_eq_nil {k : Token} (h : k.kind ≠ .flags) : k.flagLetters = [] := by
  rw [flagLetters]
  split
  · exact absurd (by assumption) h
  · exact absurd (by assumption) h
  · rfl

theorem flagLetters_eq {k : Token} {letters : Text} (hkind : k.kind = .flags)
    (htext : k.text = '-' :: letters) : k.flagLetters = letters := by
  simp only [flagLetters, hkind, htext]

end Token

namespace Text

/-- A stage has something to search for under one set of letters, but not under another one, when
its groups of flags are all there is to search for, and only the first set lacks a letter of
them. -/
def LosesPattern (fewer more : FlagSet) (t : Text) : Prop :=
  (∀ k ∈ t.tokens, k.kind ≠ .word ∧ k.kind ≠ .quoted) ∧
    (∃ k ∈ t.tokens, ∃ c ∈ k.flagLetters, c ∉ fewer) ∧
    ∀ k ∈ t.tokens, ∀ c ∈ k.flagLetters, c ∈ more

variable {t : Text} {k : Token} {flags fewer more : FlagSet}

theorem isFlagLetter_of_mem_flagLetters (hk : k ∈ t.tokens) {c : Char} (hc : c ∈ k.flagLetters) :
    isFlagLetter c = true := by
  by_cases hkind : k.kind = .flags
  · obtain ⟨letters, htext, -, hletters⟩ := exists_of_kind_eq_flags hk hkind
    exact hletters c (Token.flagLetters_eq hkind htext ▸ hc)
  · simp [Token.flagLetters_eq_nil hkind] at hc

theorem isSearchable_iff_of_mem_tokens (hk : k ∈ t.tokens) :
    k.isSearchable flags = true ↔
      (k.kind = .word ∨ k.kind = .quoted) ∨ ∃ c ∈ k.flagLetters, c ∉ flags := by
  have hpattern : k.isPattern = true ↔ k.kind = .word ∨ k.kind = .quoted := by
    simp [Token.isPattern]
  rw [Token.isSearchable, Bool.or_eq_true, hpattern]
  refine or_congr_right ?_
  by_cases hkind : k.kind = .flags
  · obtain ⟨letters, htext, -, -⟩ := exists_of_kind_eq_flags hk hkind
    simp [htext]
  · simp [Token.flagLetters_eq_nil hkind]

theorem any_isSearchable_eq_false_iff :
    t.tokens.any (·.isSearchable flags) = false ↔
      (∀ k ∈ t.tokens, k.kind ≠ .word ∧ k.kind ≠ .quoted) ∧
        ∀ k ∈ t.tokens, ∀ c ∈ k.flagLetters, c ∈ flags := by
  rw [← forall₂_and, List.any_eq_false]
  refine forall₂_congr fun k hk => ?_
  rw [isSearchable_iff_of_mem_tokens hk]
  simp only [not_or, not_exists, not_and, not_not]

/-- A stage loses what it has to search for when it has something under the first set and nothing
under the second. -/
theorem losesPattern_iff :
    t.LosesPattern fewer more ↔
      t.tokens.any (·.isSearchable fewer) = true ∧ t.tokens.any (·.isSearchable more) = false := by
  rw [LosesPattern, any_isSearchable_eq_false_iff, ← Bool.not_eq_false,
    any_isSearchable_eq_false_iff]
  constructor
  · rintro ⟨hkind, ⟨k, hk, c, hc, hnot⟩, hall⟩
    exact ⟨fun h => hnot (h.2 k hk c hc), hkind, hall⟩
  · rintro ⟨hfewer, hkind, hall⟩
    refine ⟨hkind, ?_, hall⟩
    by_contra hnone
    simp only [not_exists, not_and, not_not] at hnone
    exact hfewer ⟨hkind, hnone⟩

instance (fewer more : FlagSet) (t : Text) : Decidable (t.LosesPattern fewer more) :=
  decidable_of_iff _ losesPattern_iff.symm

/-! ### Stages -/

theorem isFlagLetter_of_mem_tokenFindings {f : Finding} (h : f ∈ tokenFindings flags t.tokens)
    {c : Char} (hc : f.issue = .unsupportedFlag c) : isFlagLetter c = true := by
  obtain ⟨front, k, back, htokens, hf⟩ := mem_tokenFindings_iff.mp h
  have hk : k ∈ t.tokens := by simp [htokens]
  cases hkind : k.kind with
  | flags =>
    obtain ⟨letters, htext, hne, hletters⟩ := exists_of_kind_eq_flags hk hkind
    obtain ⟨d, letters, rfl⟩ := List.exists_cons_of_ne_nil hne
    simp only [Token.findings, hkind, Token.flagFindings, htext] at hf
    obtain ⟨_, e, _, heq, -, rfl⟩ := Token.mem_letterFindings_iff.mp hf
    obtain rfl := Issue.unsupportedFlag.inj hc
    exact hletters e (by simp [heq])
  | command => simp [Token.findings, hkind] at hf
  | quoted =>
    simp only [Token.findings, hkind] at hf
    rcases Token.issue_of_mem_quotedFindings hf with h | ⟨quote, h⟩ | h <;> simp [h] at hc
  | word =>
    simp only [Token.findings, hkind] at hf
    simp [Token.issue_of_mem_wordFindings hf] at hc
  | stray =>
    simp only [Token.findings, hkind, List.mem_singleton] at hf
    simp [hf] at hc

/-- Sets that agree on ASCII letters and digits find the same on a stage. -/
theorem stageFindings_congr (h : ∀ c, isFlagLetter c = true → (c ∈ fewer ↔ c ∈ more)) (t : Text) :
    stageFindings fewer t t.tokens = stageFindings more t t.tokens := by
  have htokens : tokenFindings fewer t.tokens = tokenFindings more t.tokens := by
    rw [tokenFindings_eq_filter fewer, tokenFindings_eq_filter more]
    refine List.filter_congr fun f hf => ?_
    cases hissue : f.issue with
    | unsupportedFlag c =>
      simp [Issue.isAboutLetterOf, h c (isFlagLetter_of_mem_tokenFindings hf hissue)]
    | _ => rfl
  have hsearch : t.tokens.any (·.isSearchable fewer) = t.tokens.any (·.isSearchable more) := by
    rw [← Bool.not_inj_iff, Bool.eq_iff_iff, Bool.not_eq_true', Bool.not_eq_true',
      any_isSearchable_eq_false_iff, any_isSearchable_eq_false_iff]
    refine and_congr_right fun _ => forall₂_congr fun k hk => forall₂_congr fun c hc => ?_
    exact h c (isFlagLetter_of_mem_flagLetters hk hc)
  rw [stageFindings, stageFindings, htokens, hsearch]

theorem filter_error_tokenFindings (flags : FlagSet) (tokens : List Token) :
    (tokenFindings flags tokens).filter (·.issue.severity = .error) =
      (tokenFindings ∅ tokens).filter (·.issue.severity = .error) := by
  rw [tokenFindings_eq_filter, List.filter_filter]
  refine List.filter_congr fun f _ => ?_
  cases h : f.issue.isAboutLetterOf flags with
  | false => simp
  | true => simp [Issue.severity_of_isAboutLetterOf h]

theorem filter_warning_stageFindings (flags : FlagSet) (t : Text) (tokens : List Token) :
    (stageFindings flags t tokens).filter (·.issue.severity = .warning) =
      ((stageFindings ∅ t tokens).filter (·.issue.severity = .warning)).filter
        (!·.issue.isAboutLetterOf flags) := by
  have htokens (l : FlagSet) : (stageFindings l t tokens).filter (·.issue.severity = .warning) =
      if t.Blank then [] else (tokenFindings l tokens).filter (·.issue.severity = .warning) := by
    rw [stageFindings]
    split
    · rfl
    split
    · rfl
    · simp [Issue.severity]
  rw [htokens, htokens]
  split
  · rfl
  · rw [tokenFindings_eq_filter, List.filter_filter, List.filter_filter]
    simp only [Bool.and_comm]

/-- The errors on a stage with text are those on its tokens, and one more if the stage has nothing
to search for. -/
theorem filter_error_stageFindings (hblank : ¬ t.Blank) (flags : FlagSet) (tokens : List Token) :
    (stageFindings flags t tokens).filter (·.issue.severity = .error) =
      (tokenFindings ∅ tokens).filter (·.issue.severity = .error) ++
        if tokens.any (·.isSearchable flags) then []
        else [⟨.missingPattern, ⟨0, t.byteLength⟩⟩] := by
  rw [stageFindings, if_neg hblank]
  split
  · rw [filter_error_tokenFindings, List.append_nil]
  · rw [List.filter_append, filter_error_tokenFindings]
    rfl

/-- When more letters are supported, the errors on a stage are the same, unless the stage loses what
it has to search for; then this is an error more. -/
theorem filter_error_stageFindings_of_subset (hsub : ∀ c ∈ fewer, c ∈ more) (t : Text) :
    (stageFindings fewer t t.tokens).filter (·.issue.severity = .error) =
      ((stageFindings more t t.tokens).filter (·.issue.severity = .error)).filter
        (fun f => ¬ (f.issue = .missingPattern ∧ t.LosesPattern fewer more)) := by
  by_cases hblank : t.Blank
  · simp [stageFindings, hblank]
  have hkeep : ((tokenFindings ∅ t.tokens).filter (·.issue.severity = .error)).filter
      (fun f => ¬ (f.issue = .missingPattern ∧ t.LosesPattern fewer more)) =
      (tokenFindings ∅ t.tokens).filter (·.issue.severity = .error) := by
    refine List.filter_eq_self.mpr fun f hf => ?_
    have hissue : f.issue ≠ .missingPattern := by
      intro hissue
      have hoften := isOfToken_of_mem_tokenFindings (List.mem_filter.mp hf).1
      rw [hissue] at hoften
      exact absurd hoften (by decide)
    simp [hissue]
  rw [filter_error_stageFindings hblank, filter_error_stageFindings hblank, List.filter_append,
    hkeep]
  have hloses : t.LosesPattern fewer more ↔ _ := losesPattern_iff
  cases hfewer : t.tokens.any (·.isSearchable fewer) with
  | true => cases hmore : t.tokens.any (·.isSearchable more) <;> simp [hloses, hfewer, hmore]
  | false =>
    -- what is supported by fewer letters is supported by more
    have hmore : t.tokens.any (·.isSearchable more) = false := by
      rw [any_isSearchable_eq_false_iff] at hfewer ⊢
      exact ⟨hfewer.1, fun k hk c hc => hsub c (hfewer.2 k hk c hc)⟩
    simp [hloses, hfewer, hmore]

end Text

end PipeLint
