import PipeLint.Finding
import PipeLint.Token.Lexeme

/-!
# Checks on a whole pipeline

Some flags are questionable only because of where they stand among the stages: `-v` in the last
stage, since an inverted match leaves nothing to highlight, and `-i` in more than one stage. These
findings have no place in the text; they are reported at its start, with no length.

## Main definitions

* `PipeLint.usesFlag`: whether a stage uses a flag.
* `PipeLint.pipelineFindings`: what is wrong with a row of stages.
-/

namespace PipeLint

/-- Whether a stage has a group of flags with a letter in it. -/
def usesFlag (letter : Char) (stage : Text) : Bool :=
  stage.tokens.any (letter ∈ ·.flagLetters)

/-- What is wrong with a row of stages, given by their texts. -/
def pipelineFindings (stages : List Text) : List Finding :=
  (if stages.getLast?.any (usesFlag 'v') then [⟨.negatedFinalStage, ⟨0, 0⟩⟩] else []) ++
    (if 1 < stages.countP (usesFlag 'i') then [⟨.repeatedIgnoreCase, ⟨0, 0⟩⟩] else [])

end PipeLint
