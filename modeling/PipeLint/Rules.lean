import PipeLint.Check.Pipeline
import PipeLint.Check.Stage
import PipeLint.Pipeline.Basic
import PipeLint.Report.Basic

/-!
# Rules

What an expression is checked against: the flag letters that are supported, and whether a backslash
at the end is worth a warning. An expression is cut into stages; each stage is checked with its own
tokens, and then the expression as a whole.

## Main definitions

* `PipeLint.Rules`: the choices that a check depends on.
* `PipeLint.Rules.findings`: the faults of an expression, at their places in it.
* `PipeLint.Rules.report`: the report on an expression.
-/

namespace PipeLint

/-- The choices that a check depends on. -/
structure Rules where
  /-- The flag letters that are supported. -/
  flags : FlagSet := .standard
  /-- Whether a backslash at the end of an expression is a fault. -/
  trailingEscape : Bool := true
deriving DecidableEq

namespace Rules

/-- The rules that support the letters of a text and no others. -/
def withFlags (r : Rules) (letters : Text) : Rules :=
  { r with flags := .ofList letters }

/-- The rules that support the letters of a text and no others, or the first of them that can
never stand in a group of flags. -/
def withFlags? (r : Rules) (letters : Text) : Except Char Rules :=
  (FlagSet.ofLetters? letters).map fun flags => { r with flags }

/-- The rules that support one more letter. -/
def allowFlag (r : Rules) (letter : Char) : Rules :=
  { r with flags := r.flags.insert letter }

/-- The faults of one stage of an expression, at their places in the expression. -/
def findingsAt (r : Rules) (stage : Stage) : List Finding :=
  (stageFindings r.flags stage.text stage.text.tokens).map (·.shift stage.offset)

/-- The fault of an expression that ends in a backslash. -/
def trailingFindings (r : Rules) (p : Pipeline) : List Finding :=
  match p.trailingEscape? with
  | none => []
  | some offset => if r.trailingEscape then [⟨.trailingEscape, ⟨offset, 1⟩⟩] else []

/-- The faults of an expression: those of its stages from left to right, then a backslash at the
end, then those of the pipeline as a whole. -/
def findings (r : Rules) (t : Text) : List Finding :=
  let p := Pipeline.ofText t
  p.stages.flatMap r.findingsAt ++ r.trailingFindings p ++ pipelineFindings (p.stages.map (·.text))

/-- The report on an expression. -/
def report (r : Rules) (t : Text) : Report :=
  .ofFindings (r.findings t)

end Rules

end PipeLint
