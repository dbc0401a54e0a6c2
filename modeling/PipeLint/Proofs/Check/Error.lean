import PipeLint.Proofs.Check.Finding
import PipeLint.Proofs.Quoting.Tokens

/-!
# The errors on a stage

Of the tokens of a text, only stray characters and open strings are errors, and each of them is one
error and nothing else; all other findings on tokens are warnings. Hence a stage has an error if it
has such a token, or if it has text but nothing to search for.

## Main definitions

* `PipeLint.Issue.isQuoteFault`: the faults of a string that is not closed.

## Main results

* `PipeLint.Text.cases_findings_of_mem_tokens`: the findings on a token of a text.
* `PipeLint.Text.forall_warning_stageFindings_iff`: the stages without errors.
-/

namespace PipeLint

/-! ### Faults of open strings -/

/-- Whether a fault is one of a string that is not closed. -/
def Issue.isQuoteFault : Issue → Bool
  | malformedString | openQuote _ => true
  | _ => false

theorem Issue.severity_of_isQuoteFault {i : Issue} (h : i.isQuoteFault = true) :
    i.severity = .error := by
  cases i <;> first | rfl | simp [isQuoteFault] at h

theorem Issue.isQuoteFault_of_severity {i : Issue} (h : i.severity = .warning) :
    i.isQuoteFault = false := by
  cases i <;> first | rfl | simp [severity] at h

/-! ### Tokens -/

namespace Token

variable {flags : FlagSet} {f : Finding}

theorem severity_of_mem_flagFindings {k : Token} {letters : Text}
    (htext : k.text = '-' :: letters) (hne : letters ≠ []) (h : f ∈ k.flagFindings flags) :
    f.issue.severity = .warning := by
  cases letters with
  | nil => exact absurd rfl hne
  | cons c letters =>
    rw [flagFindings, htext] at h
    obtain ⟨_, d, _, _, _, rfl⟩ := mem_letterFindings_iff.mp h
    rfl

end Token

namespace Text

variable {t : Text} {k : Token}

/-- An open string is one fault and nothing else. -/
theorem exists_findings_eq_of_isOpen (hk : k ∈ t.tokens) (hopen : k.IsOpen) (flags : FlagSet)
    (next? : Option Token) :
    ∃ i : Issue, i.isQuoteFault = true ∧ k.findings flags next? = [⟨i, k.span⟩] := by
  obtain ⟨hkind, hends⟩ := hopen
  obtain ⟨front, quote, hquote, -, hcases⟩ := cases_of_kind_eq_quoted hk hkind
  rcases hcases with ⟨inner, back, -, -, hclosed, -⟩ | ⟨body, -, htext, -, hnone⟩
  · exact absurd hends hclosed
  · refine ⟨if body = [] then .malformedString else .openQuote quote, ?_, ?_⟩
    · split <;> rfl
    · rw [Token.findings, hkind]
      exact Token.quotedFindings_of_open hquote htext hnone

theorem severity_of_mem_quotedFindings (hk : k ∈ t.tokens) (hkind : k.kind = .quoted)
    (hopen : ¬ k.IsOpen) {f : Finding} (hf : f ∈ k.quotedFindings) :
    f.issue.severity = .warning := by
  obtain ⟨front, quote, -, -, hcases⟩ := cases_of_kind_eq_quoted hk hkind
  rcases hcases with ⟨inner, back, -, htext, -, hinner⟩ | ⟨body, -, -, hends, -⟩
  · rw [Token.quotedFindings_of_closed htext hinner] at hf
    obtain ⟨_, c, _, _, _, rfl⟩ := exists_of_mem_invalidEscapes hf
    rfl
  · exact absurd ⟨hkind, hends⟩ hopen

/-- The findings on a token of a text: an open string and a stray character are one error each, and
any other token can have warnings only. -/
theorem cases_findings_of_mem_tokens (hk : k ∈ t.tokens) (flags : FlagSet) (next? : Option Token) :
    (k.IsOpen ∧ ∃ i : Issue, i.isQuoteFault = true ∧ k.findings flags next? = [⟨i, k.span⟩]) ∨
      (k.kind = .stray ∧ ¬ k.IsOpen ∧
        k.findings flags next? = [⟨.strayCharacter, k.span⟩]) ∨
      (k.kind ≠ .stray ∧ ¬ k.IsOpen ∧
        ∀ f ∈ k.findings flags next?, f.issue.severity = .warning) := by
  by_cases hopen : k.IsOpen
  · exact Or.inl ⟨hopen, exists_findings_eq_of_isOpen hk hopen flags next?⟩
  cases hkind : k.kind with
  | stray =>
    refine Or.inr (Or.inl ⟨rfl, hopen, ?_⟩)
    rw [Token.findings, hkind]
  | command =>
    refine Or.inr (Or.inr ⟨by simp, hopen, fun f hf => ?_⟩)
    simp [Token.findings, hkind] at hf
  | flags =>
    refine Or.inr (Or.inr ⟨by simp, hopen, fun f hf => ?_⟩)
    rw [Token.findings, hkind] at hf
    obtain ⟨letters, htext, hne, -⟩ := exists_of_kind_eq_flags hk hkind
    exact Token.severity_of_mem_flagFindings htext hne hf
  | quoted =>
    refine Or.inr (Or.inr ⟨by simp, hopen, fun f hf => ?_⟩)
    rw [Token.findings, hkind] at hf
    exact severity_of_mem_quotedFindings hk hkind hopen hf
  | word =>
    refine Or.inr (Or.inr ⟨by simp, hopen, fun f hf => ?_⟩)
    rw [Token.findings, hkind] at hf
    rw [Token.issue_of_mem_wordFindings hf]
    rfl

/-- A token has no errors exactly if it is neither a stray character nor an open string. -/
theorem forall_warning_findings_iff (hk : k ∈ t.tokens) (flags : FlagSet) (next? : Option Token) :
    (∀ f ∈ k.findings flags next?, f.issue.severity = .warning) ↔
      k.kind ≠ .stray ∧ ¬ k.IsOpen := by
  rcases cases_findings_of_mem_tokens hk flags next? with
    ⟨hopen, i, hi, heq⟩ | ⟨hkind, -, heq⟩ | ⟨hkind, hopen, hall⟩
  · simp [heq, hopen, Issue.severity_of_isQuoteFault hi]
  · simp [heq, hkind, Issue.severity]
  · exact iff_of_true hall ⟨hkind, hopen⟩

/-! ### Stages -/

/-- A stage with text has no errors exactly if none of its tokens is a stray character or an open
string and one of them is something to search for. -/
theorem forall_warning_stageFindings_iff (hblank : ¬ t.Blank) (flags : FlagSet) :
    (∀ f ∈ stageFindings flags t t.tokens, f.issue.severity = .warning) ↔
      (∀ k ∈ t.tokens, k.kind ≠ .stray ∧ ¬ k.IsOpen) ∧
        ∃ k ∈ t.tokens, k.isSearchable flags = true := by
  have htokens : (∀ f ∈ tokenFindings flags t.tokens, f.issue.severity = .warning) ↔
      ∀ k ∈ t.tokens, k.kind ≠ .stray ∧ ¬ k.IsOpen := by
    constructor
    · intro h k hk
      obtain ⟨front, back, htokens⟩ := List.append_of_mem hk
      refine (forall_warning_findings_iff hk flags back.head?).mp fun f hf => ?_
      exact h f (mem_tokenFindings_iff.mpr ⟨front, k, back, htokens, hf⟩)
    · intro h f hf
      obtain ⟨front, k, back, htokens, hf⟩ := mem_tokenFindings_iff.mp hf
      have hk : k ∈ t.tokens := by simp [htokens]
      exact (forall_warning_findings_iff hk flags back.head?).mpr (h k hk) f hf
  rw [stageFindings, if_neg hblank, ← htokens]
  split
  · rename_i hany
    exact (and_iff_left (List.any_eq_true.mp hany)).symm
  · rename_i hany
    have hnone : ¬ ∃ k ∈ t.tokens, k.isSearchable flags = true :=
      fun h => hany (List.any_eq_true.mpr h)
    refine iff_of_false (fun h => ?_) fun h => hnone h.2
    exact absurd (h _ (List.mem_append_right _ (List.mem_singleton_self _)))
      (by simp [Issue.severity])

end Text

end PipeLint
