import PipeLint.Proofs.Check.Error
import PipeLint.Proofs.Pipeline.Join

/-!
# Valid expressions

An expression is valid if every stage with text is: no token is a stray character or an open string,
and one of them is something to search for. An expression that ends inside quotes can be valid, for
a quote inside a word opens a quotation but no string: then the word that leaves it open stands in
the last stage, and the pipes behind it separate nothing.

## Main definitions

* `PipeLint.Rules.Accepts`: the stages without errors.

## Main results

* `PipeLint.Rules.isValid_report_iff`: an expression is valid exactly if its stages are.
* `PipeLint.Rules.isValid_report_iff_of_endsQuoted`: when an expression that ends inside quotes is
  valid.
-/

namespace PipeLint.Rules

variable (r : Rules) {t : Text}

/-- A stage is accepted when none of its tokens is a stray character or an open string, and one of
them is something to search for. -/
def Accepts (stage : Text) : Prop :=
  (∀ k ∈ stage.tokens, k.kind ≠ .stray ∧ ¬ k.IsOpen) ∧
    ∃ k ∈ stage.tokens, k.isSearchable r.flags = true

instance (stage : Text) : Decidable (r.Accepts stage) :=
  inferInstanceAs (Decidable (_ ∧ _))

theorem forall_warning_findingsAt_iff {s : Stage} :
    (∀ f ∈ r.findingsAt s, f.issue.severity = .warning) ↔
      (¬ s.text.Blank → r.Accepts s.text) := by
  by_cases hblank : s.text.Blank
  · simp [r.findingsAt_of_blank hblank, hblank]
  · rw [findingsAt, List.forall_mem_map]
    simp only [Finding.issue_shift, hblank, not_false_eq_true, forall_const]
    exact Text.forall_warning_stageFindings_iff hblank r.flags

/-- **Valid expressions.** An expression is valid exactly if every stage of it that is not blank is
accepted. -/
theorem isValid_report_iff :
    (r.report t).isValid = true ↔
      ∀ s ∈ (Pipeline.ofText t).stages, ¬ s.text.Blank → r.Accepts s.text := by
  have htrailing : ∀ f ∈ r.trailingFindings (Pipeline.ofText t), f.issue.severity = .warning := by
    intro f hf
    obtain ⟨-, rfl⟩ := r.mem_trailingFindings hf
    rfl
  have hpipeline : ∀ f ∈ pipelineFindings ((Pipeline.ofText t).stages.map (·.text)),
      f.issue.severity = .warning :=
    fun f hf => (severity_of_mem_pipelineFindings hf).1
  have hstages : (∀ f ∈ (Pipeline.ofText t).stages.flatMap r.findingsAt,
      f.issue.severity = .warning) ↔
        ∀ s ∈ (Pipeline.ofText t).stages, ¬ s.text.Blank → r.Accepts s.text := by
    simp only [← forall_warning_findingsAt_iff, List.mem_flatMap]
    exact ⟨fun h s hs f hf => h f ⟨s, hs, hf⟩, fun h f ⟨s, hs, hf⟩ => h s hs f hf⟩
  rw [report, Report.ofFindings, Report.isValid_ofEntries, List.forall_mem_map, findings_eq,
    placedFindings, List.forall_mem_append, List.forall_mem_append]
  exact (and_iff_left hpipeline).trans ((and_iff_left htrailing).trans hstages)

/-- **Valid expressions that end inside quotes.** An expression that ends inside quotes is valid
exactly if a word of the last stage leaves the quote open, and all its stages are accepted. -/
theorem isValid_report_iff_of_endsQuoted (hends : t.EndsQuoted) :
    (r.report t).isValid = true ↔
      (∃ s k, (Pipeline.ofText t).stages.getLast? = some s ∧ k ∈ s.text.tokens ∧
        k.kind = .word ∧ k.text.EndsQuoted) ∧
      ∀ s ∈ (Pipeline.ofText t).stages, ¬ s.text.Blank → r.Accepts s.text := by
  rw [isValid_report_iff, iff_and_self]
  intro haccepts
  obtain ⟨init, s, hstages, hlast, -⟩ := Pipeline.exists_stages_eq_of_endsQuoted hends
  have hblank : ¬ s.text.Blank := fun hblank => hlast (by rw [hblank.scan_neutral])
  obtain ⟨hclosed, -⟩ := haccepts s (by simp [hstages]) hblank
  refine ⟨s, ?_⟩
  by_contra hnone
  -- without such a word the two readers agree, and the last token is an open string
  have hwords : ∀ k ∈ s.text.tokens, k.kind = .word → ¬ k.text.EndsQuoted :=
    fun k hk hkind hopen => hnone ⟨k, by simp [hstages], hk, hkind, hopen⟩
  obtain ⟨k, hk, hopen⟩ := (Text.endsQuoted_iff_exists_isOpen hwords).mp hlast
  exact (hclosed k hk).2 hopen

/-- A quote inside a word takes the pipe behind it, and nothing is reported. -/
theorem isValid_report_word_open_quote :
    Text.EndsQuoted "a\"b|c".toList ∧ (({} : Rules).report "a\"b|c".toList).isValid = true := by
  refine ⟨by decide, (isValid_report_iff_of_endsQuoted {} (by decide)).mpr ⟨?_, by decide +kernel⟩⟩
  exact ⟨⟨"a\"b|c".toList, 0⟩, ⟨.word, "a\"b|c".toList, 0⟩, by decide +kernel, by decide +kernel,
    rfl, by decide⟩

end PipeLint.Rules
