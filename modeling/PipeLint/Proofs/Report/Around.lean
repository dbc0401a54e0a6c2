import PipeLint.Proofs.Pipeline.Around
import PipeLint.Proofs.Report.Warning

/-!
# Reports on expressions with white space or pipes around them

White space in front of an expression moves everything that is reported at a place of it. White
space behind it takes the place of a backslash at the end, and makes no other difference. Pipes
behind it have no faults of their own, but a pipe that closes a piece without text makes it the last
stage. If the last stage of the expression is negated, it is the last one no more then, and this is
not reported.

## Main definitions

* `PipeLint.Report.shift`: a report with all that has a place moved to the right.

## Main results

* `PipeLint.Rules.report_padded`: white space around an expression.
* `PipeLint.Rules.report_append_barePipes`: pipes and white space behind an expression.
-/

namespace PipeLint

/-! ### Reports that are moved -/

/-- The finding moved to the right by a number of bytes. A finding on the pipeline as a whole stays
where it is, since it has no place in the expression. -/
def Finding.shiftPlace (f : Finding) (distance : Nat) : Finding :=
  if f.issue.isPipelineWide then f else f.shift distance

@[simp]
theorem Finding.issue_shiftPlace (f : Finding) (n : Nat) : (f.shiftPlace n).issue = f.issue := by
  rw [shiftPlace]
  split <;> rfl

/-- The entry moved to the right by a number of bytes, unless it is about the pipeline as a
whole. -/
def Entry.shiftPlace (e : Entry) (distance : Nat) : Entry :=
  if e.isPipelineWide then e else e.shift distance

@[simp]
theorem Entry.shiftPlace_entry (f : Finding) (n : Nat) :
    f.entry.shiftPlace n = (f.shiftPlace n).entry := by
  rw [shiftPlace, Finding.isPipelineWide_entry, Finding.shiftPlace]
  split <;> rfl

/-- The report on an expression that is moved to the right by a number of bytes. -/
def Report.shift (r : Report) (distance : Nat) : Report :=
  { r with
    errors := r.errors.map (·.shiftPlace distance)
    warnings := r.warnings.map (·.shiftPlace distance) }

theorem Report.shift_ofFindings (l : List Finding) (n : Nat) :
    (ofFindings l).shift n = ofFindings (l.map (·.shiftPlace n)) := by
  have hmoved (severity : Severity) :
      ((l.filter (·.issue.severity = severity)).map Finding.entry).map (·.shiftPlace n) =
        ((l.map (·.shiftPlace n)).filter (·.issue.severity = severity)).map Finding.entry := by
    rw [List.filter_map, List.map_map, List.map_map]
    simp [Function.comp_def]
  have herrors : (ofFindings l).errors.map (·.shiftPlace n) =
      (ofFindings (l.map (·.shiftPlace n))).errors := by
    rw [errors_ofFindings, errors_ofFindings, hmoved]
  refine Report.ext ?_ herrors ?_
  · calc (ofFindings l).errors.isEmpty
        = ((ofFindings l).errors.map (·.shiftPlace n)).isEmpty := List.isEmpty_map.symm
      _ = (ofFindings (l.map (·.shiftPlace n))).errors.isEmpty := by rw [herrors]
  · rw [warnings_ofFindings, ← hmoved, ← warnings_ofFindings]
    rfl

namespace Rules

variable (r : Rules)

/-! ### White space -/

section Blank

variable {w : Text} (hw : w.Blank) (t : Text)

include hw

/-- White space behind an expression takes the place of a backslash at the end. -/
theorem report_append_blank (hne : w ≠ []) :
    r.report (t ++ w) = (r.report t).without .trailingEscape := by
  have hnone : r.trailingFindings (Pipeline.ofText (t ++ w)) = [] :=
    r.trailingFindings_of_not_escaped (Text.escaped_scan_append_blank hw hne t)
  rw [report, report, Report.without_ofFindings rfl, filter_ne_trailingEscape_findings,
    findings_of_trailingFindings_eq_nil hnone, Pipeline.stages_append_blank hw]

theorem placedFindings_blank_append :
    r.placedFindings (w ++ t) = (r.placedFindings t).map (·.shift w.byteLength) := by
  rw [placedFindings, placedFindings, Pipeline.stages_blank_append hw,
    flatMap_findingsAt_map_shift, trailingFindings_append r hw.scan_neutral, List.map_append]

/-- White space in front of an expression moves the findings that have a place in it. -/
theorem findings_blank_append :
    r.findings (w ++ t) = (r.findings t).map (·.shiftPlace w.byteLength) := by
  have htexts : (Pipeline.ofText (w ++ t)).stages.map (·.text) =
      (Pipeline.ofText t).stages.map (·.text) := by
    rw [Pipeline.stages_blank_append hw, List.map_map]
    rfl
  have hplaced : (r.placedFindings t).map (·.shift w.byteLength) =
      (r.placedFindings t).map (·.shiftPlace w.byteLength) := by
    refine List.map_congr_left fun f hf => ?_
    simp [Finding.shiftPlace, r.isPipelineWide_of_mem_placedFindings hf]
  have hwide (stages : List Text) :
      (pipelineFindings stages).map (·.shiftPlace w.byteLength) = pipelineFindings stages := by
    refine (List.map_congr_left fun f hf => ?_).trans (List.map_id _)
    simp [Finding.shiftPlace, (severity_of_mem_pipelineFindings hf).2]
  rw [findings_eq, findings_eq, List.map_append, placedFindings_blank_append r hw, htexts, hplaced,
    hwide]

theorem report_blank_append : r.report (w ++ t) = (r.report t).shift w.byteLength := by
  rw [report, report, findings_blank_append r hw, Report.shift_ofFindings]

end Blank

/-- **White space around an expression.** Everything that is reported at a place of the expression
is reported at the place where the expression puts it, and what is reported about the pipeline as a
whole is reported again. A backslash at the end is reported only if there is no white space behind
it. -/
theorem report_padded {left right : Text} (hleft : left.Blank) (hright : right.Blank) (t : Text) :
    r.report (left ++ t ++ right) =
      (if right = [] then r.report t else (r.report t).without .trailingEscape).shift
        left.byteLength := by
  rw [List.append_assoc, report_blank_append r hleft]
  split
  · rename_i hnil
    rw [hnil, List.append_nil]
  · rename_i hne
    rw [report_append_blank r hright t hne]

/-- White space of three bytes in front of a string that is left open and that ends in a
backslash. -/
theorem report_padded_open_string :
    Text.Blank ['\u3000'] ∧ Text.Blank " \n".toList ∧
      ({} : Rules).report (['\u3000'] ++ "a | \"b \\".toList ++ " \n".toList) =
        ⟨false, [⟨"unterminated double quote".toList, ⟨7, 4⟩, .error⟩], []⟩ :=
  ⟨by decide, by decide,
    (report_padded {} (by decide) (by decide) _).trans (by decide +kernel)⟩

/-! ### Pipes behind an expression -/

/-- The findings on an expression with pipes and white space behind it are those on the expression,
but for those on the pipeline as a whole, which has stages without text behind the others. -/
theorem exists_findings_append_barePipes {front piece t : Text}
    (hpiece : Pipeline.IsPiece front piece [])
    (hscan : Quoting.neutral.scan (front ++ piece) = Quoting.neutral) (ht : t.BarePipes) :
    ∃ added : List Text,
      r.findings (front ++ piece ++ t) =
        r.placedFindings (front ++ piece) ++
          pipelineFindings ((Pipeline.ofText (front ++ piece)).stages.map (·.text) ++ added) ∧
      (∀ text ∈ added, text = []) ∧
      (added ≠ [] ↔ '|' ∈ t ∧ (piece.Blank ∨ 1 < t.count '|')) := by
  obtain ⟨added, hstages, htexts, hadded⟩ :=
    Pipeline.exists_stages_append_barePipes ht hpiece hscan
  have hend : r.trailingFindings (Pipeline.ofText (front ++ piece)) = [] :=
    r.trailingFindings_of_not_escaped (by rw [hscan])
  have hwholeEnd : r.trailingFindings (Pipeline.ofText (front ++ piece ++ t)) = [] := by
    refine r.trailingFindings_of_not_escaped ?_
    rw [Quoting.scan_append, hscan, ht.scan_neutral]
  have hnone : added.flatMap r.findingsAt = [] := by
    refine List.flatMap_eq_nil_iff.mpr fun u hu => r.findingsAt_of_blank ?_
    rw [htexts u hu]
    exact Text.blank_nil
  refine ⟨added.map (·.text), ?_, List.forall_mem_map.mpr htexts, by simpa using hadded⟩
  rw [findings_of_trailingFindings_eq_nil hwholeEnd, hstages, List.flatMap_append, hnone,
    placedFindings, hend, List.map_append]

/-- **Pipes behind an expression.** If the expression leaves nothing open, the report on it with
pipes and white space behind it is the report on it alone, unless one of the pipes closes a stage
without text. There is such a stage if there is more than one pipe, and also behind a last piece of
white space only. It is the last stage then, and that the last stage of the expression is negated is
not reported. -/
theorem report_append_barePipes {s t : Text} (hscan : Quoting.neutral.scan s = Quoting.neutral)
    (ht : t.BarePipes) :
    ∃ front piece : Text, s = front ++ piece ∧ Pipeline.IsPiece front piece [] ∧
      r.report (s ++ t) =
        if '|' ∈ t ∧ (piece.Blank ∨ 1 < t.count '|') then
          (r.report s).without .negatedFinalStage
        else r.report s := by
  obtain ⟨front, piece, rfl, hpiece⟩ := Pipeline.exists_isPiece_last s
  refine ⟨front, piece, rfl, hpiece, ?_⟩
  obtain ⟨added, hfindings, htexts, hadded⟩ :=
    r.exists_findings_append_barePipes hpiece hscan ht
  rw [report, report, hfindings]
  split
  · rename_i hcloses
    rw [pipelineFindings_append_nil _ htexts (hadded.mpr hcloses), Report.without_ofFindings rfl,
      filter_ne_findings_of_isPipelineWide r rfl]
  · rename_i hcloses
    obtain rfl : added = [] := not_not.mp (mt hadded.mp hcloses)
    rw [List.append_nil, findings_eq]

/-- One pipe behind a negated stage. -/
theorem report_append_barePipes_one :
    Quoting.neutral.scan "a | grep -v b".toList = Quoting.neutral ∧
      Text.BarePipes " | ".toList ∧
      ∃ front piece : Text, "a | grep -v b".toList = front ++ piece ∧
        Pipeline.IsPiece front piece [] ∧
        ({} : Rules).report ("a | grep -v b".toList ++ " | ".toList) =
          if '|' ∈ " | ".toList ∧ (piece.Blank ∨ 1 < " | ".toList.count '|') then
            (({} : Rules).report "a | grep -v b".toList).without .negatedFinalStage
          else ({} : Rules).report "a | grep -v b".toList :=
  ⟨by decide, by decide, report_append_barePipes {} (by decide) (by decide)⟩

/-- Pipes and white space behind an expression do make a difference to its report: behind a negated
stage a second pipe closes a stage without text, which is not negated. -/
theorem not_report_append_barePipes_eq :
    ¬ ∀ (r : Rules) (s t : Text), Quoting.neutral.scan s = Quoting.neutral → t.BarePipes →
      r.report (s ++ t) = r.report s := by
  intro h
  have hsame := h {} "grep -v a".toList "||".toList (by decide) (by decide)
  exact absurd hsame (by decide +kernel)

end Rules

end PipeLint
