import PipeLint.Finding

/-!
# Reports

A report lists the faults of one expression, errors apart from warnings. Its entries carry the
wording of a fault and not its cause, so a report can be written out, read back and compared as it
is. Whether the expression is valid is stored beside the lists; a report made from findings is
valid when it has no errors.

## Main definitions

* `PipeLint.Entry`: one line of a report.
* `PipeLint.Report`: the verdict on an expression, with `Report.ofEntries` and `Report.ofFindings`.
* `PipeLint.Report.verdict`: the warnings of a valid expression, or the errors of an invalid one.

## Main results

* `PipeLint.Report.isValid_ofEntries`: a report made from entries is valid exactly if none of them
  is an error.
-/

namespace PipeLint

/-- A fault as a report shows it. -/
@[ext]
structure Entry where
  /-- The wording of the fault. -/
  message : Text
  /-- The bytes that the fault is about. -/
  span : Span
  /-- How grave the fault is. -/
  severity : Severity
deriving DecidableEq, Repr

/-- The entry that a finding makes in a report. -/
def Finding.entry (f : Finding) : Entry :=
  ⟨f.issue.message, f.span, f.issue.severity⟩

namespace Entry

/-- The entry moved to the right by a number of bytes. -/
def shift (e : Entry) (distance : Nat) : Entry :=
  { e with span := e.span.shift distance }

/-- The entry in one line. -/
def summary (e : Entry) : Text :=
  e.severity.name ++ ": ".toList ++ e.message ++ " at position ".toList ++
    Text.decimal e.span.start

end Entry

/-- The verdict on an expression and the faults found in it. -/
@[ext]
structure Report where
  /-- Whether the expression is valid. -/
  isValid : Bool
  /-- The faults that make it invalid. -/
  errors : List Entry
  /-- The other faults. -/
  warnings : List Entry
deriving DecidableEq, Repr

namespace Report

/-- The report on an expression with no faults. -/
def clean : Report :=
  ⟨true, [], []⟩

/-- The report with the given entries, which keep their order among those of their severity. -/
def ofEntries (entries : List Entry) : Report :=
  let errors := entries.filter (·.severity = .error)
  ⟨errors.isEmpty, errors, entries.filter (·.severity = .warning)⟩

/-- The report on an expression with the given faults. -/
def ofFindings (findings : List Finding) : Report :=
  ofEntries (findings.map Finding.entry)

/-- All entries, the errors before the warnings. -/
def entries (r : Report) : List Entry :=
  r.errors ++ r.warnings

/-- Whether there is anything but errors to report. -/
def hasWarnings (r : Report) : Bool :=
  !r.warnings.isEmpty

/-- The warnings of a valid expression, or the errors of an invalid one. -/
def verdict (r : Report) : Except (List Entry) (List Entry) :=
  if r.isValid then .ok r.warnings else .error r.errors

/-- A report made from entries is valid exactly if none of them is an error. -/
theorem isValid_ofEntries (entries : List Entry) :
    (ofEntries entries).isValid = true ↔ ∀ e ∈ entries, e.severity = .warning := by
  simp only [ofEntries, List.isEmpty_iff, List.filter_eq_nil_iff, decide_eq_true_eq]
  refine forall_congr' fun e => imp_congr_right fun _ => ?_
  cases e.severity <;> simp

end Report

end PipeLint
