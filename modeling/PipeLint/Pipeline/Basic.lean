import PipeLint.Pipeline.Quoting

/-!
# Pipelines

A filter expression is a row of stages with pipes between them. Each separating pipe closes a
stage, which may be empty; what follows the last pipe is a stage only if it is not blank. So a
blank expression has no stages, and a pipe at the end opens none.

## Main definitions

* `PipeLint.Stage`: the trimmed text of a stage, and where it starts.
* `PipeLint.Pipeline`: the stages of an expression, and the backslash that it ends in, if any.
* `PipeLint.Pipeline.ofText`: the pipeline that an expression spells.
-/

namespace PipeLint

/-- One stage of a pipeline. -/
@[ext]
structure Stage where
  /-- The text of the stage, without the white space around it. -/
  text : Text
  /-- The byte offset in the expression at which the text starts. -/
  offset : Nat
deriving DecidableEq, Repr

namespace Stage

/-- The stage that a piece of the expression makes, given the offset of the piece. The stage
starts behind the white space of the piece; if the piece is all white space, at its end. -/
def ofSegment (offset : Nat) (segment : Text) : Stage where
  text := segment.trim
  offset := offset + Text.byteLength (segment.takeWhile isBlank)

/-- The stage moved to the right by a number of bytes. -/
def shift (s : Stage) (distance : Nat) : Stage :=
  { s with offset := s.offset + distance }

@[simp]
theorem text_shift (s : Stage) (n : Nat) : (s.shift n).text = s.text := rfl

@[simp]
theorem offset_shift (s : Stage) (n : Nat) : (s.shift n).offset = s.offset + n := rfl

theorem ofSegment_add (distance offset : Nat) (segment : Text) :
    ofSegment (distance + offset) segment = (ofSegment offset segment).shift distance := by
  ext
  · rfl
  · simp only [ofSegment, offset_shift]
    omega

/-- The stages of a list of pieces, given by the first piece, its offset, and the other pieces.
Between two pieces stands a pipe of one byte. -/
def ofSegments (offset : Nat) (segment : Text) : List Text → List Stage
  | [] => if segment.Blank then [] else [ofSegment offset segment]
  | next :: others =>
    ofSegment offset segment :: ofSegments (offset + Text.byteLength segment + 1) next others

theorem ofSegments_add (distance offset : Nat) (segment : Text) (others : List Text) :
    ofSegments (distance + offset) segment others =
      (ofSegments offset segment others).map (·.shift distance) := by
  induction others generalizing offset segment with
  | nil =>
    simp only [ofSegments]
    split <;> simp [ofSegment_add]
  | cons next others ih =>
    have hoffset : distance + offset + Text.byteLength segment + 1 =
        distance + (offset + Text.byteLength segment + 1) := by omega
    simp [ofSegments, ofSegment_add, hoffset, ih]

end Stage

/-- An expression cut into stages. -/
structure Pipeline where
  /-- The stages, from left to right. -/
  stages : List Stage
  /-- The byte offset of a backslash that ends the expression and escapes nothing. -/
  trailingEscape? : Option Nat
deriving DecidableEq, Repr

namespace Pipeline

/-- The pipeline that an expression spells. -/
def ofText (t : Text) : Pipeline where
  stages :=
    let (segment, others) := Quoting.neutral.segments t
    Stage.ofSegments 0 segment others
  trailingEscape? :=
    if (Quoting.neutral.scan t).escaped then some (t.byteLength - 1) else none

end Pipeline

end PipeLint
