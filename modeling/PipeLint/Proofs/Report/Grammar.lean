import PipeLint.Proofs.Grammar.Reading
import PipeLint.Proofs.Pipeline.Pieces
import PipeLint.Proofs.Report.Valid

/-!
# Valid expressions by the grammar of stages

The check on a stage with text finds no error exactly if the stage is in the grammar, and so an
expression is valid exactly if all its stages with text are.

## Main results

* `PipeLint.Rules.accepts_iff_inGrammar`: the accepted stages are those of the grammar.
* `PipeLint.Rules.isValid_report_iff_inGrammar`: valid expressions.
-/

namespace PipeLint

theorem Severity.ne_error_iff {s : Severity} : s ≠ .error ↔ s = .warning := by
  cases s <;> simp

namespace Rules

/-- The accepted stages are those of the grammar. -/
theorem accepts_iff_inGrammar (r : Rules) {stage : Text} :
    r.Accepts stage ↔ stage.InGrammar r.flags :=
  Text.inGrammar_iff.symm

/-- **The grammar of valid expressions.** A stage that is not blank is free of errors exactly if it
can be read as white space and items, one of them something to search for. An expression is valid
exactly if each of its stages with text can, and exactly if its report lists no errors. -/
theorem isValid_report_iff_inGrammar (r : Rules) :
    (∀ stage : Text, ¬ stage.Blank →
      ((∀ f ∈ stageFindings r.flags stage stage.tokens, f.issue.severity ≠ .error) ↔
        stage.InGrammar r.flags)) ∧
    ∀ t : Text,
      ((r.report t).isValid = true ↔
        ∀ s ∈ (Pipeline.ofText t).stages, s.text ≠ [] → s.text.InGrammar r.flags) ∧
      ((r.report t).isValid = true ↔ (r.report t).errors = []) := by
  refine ⟨fun stage hblank => ?_, fun t => ⟨?_, Report.isValid_ofFindings_iff _⟩⟩
  · simp only [Severity.ne_error_iff]
    rw [Text.forall_warning_stageFindings_iff hblank, Text.inGrammar_iff]
  · rw [isValid_report_iff]
    refine forall₂_congr fun s hs => ?_
    -- stages are trimmed, so a blank one has no text at all
    have hblank : ¬ s.text.Blank ↔ s.text ≠ [] := by
      refine ⟨?_, (Pipeline.trimmed_of_mem_stages s hs).not_blank⟩
      rintro hblank heq
      exact hblank (heq ▸ Text.blank_nil)
    rw [hblank, accepts_iff_inGrammar]

/-- An escaped quote does not end a string, and a command with its flags alone is no stage. -/
theorem isValid_report_escaped_quote :
    ¬ Text.Blank "grep \"a\\\" b\"".toList ∧
      Text.InGrammar .standard "grep \"a\\\" b\"".toList ∧
      ¬ Text.InGrammar .standard "grep -i".toList := by
  obtain ⟨hstages, -⟩ := isValid_report_iff_inGrammar {}
  refine ⟨by decide, (hstages _ (by decide)).mp (by decide +kernel), fun h => ?_⟩
  exact absurd ((hstages _ (by decide)).mpr h) (by decide +kernel)

end Rules

end PipeLint
