/-!
# Spans

A span is a run of bytes of a text: where it starts and how many bytes it has. A span need not fit
the text that it is used with; `PipeLint.Text.slice?` tells whether it does.
-/

namespace PipeLint

/-- A run of bytes: the offset of its first byte and its length. -/
@[ext]
structure Span where
  /-- The offset of the first byte. -/
  start : Nat
  /-- The number of bytes. -/
  length : Nat
deriving DecidableEq, Repr

namespace Span

/-- The offset just past the last byte. -/
def stop (s : Span) : Nat :=
  s.start + s.length

/-- The span moved to the right by a number of bytes. -/
def shift (s : Span) (distance : Nat) : Span :=
  { s with start := s.start + distance }

@[simp]
theorem start_shift (s : Span) (n : Nat) : (s.shift n).start = s.start + n := rfl

@[simp]
theorem length_shift (s : Span) (n : Nat) : (s.shift n).length = s.length := rfl

@[simp]
theorem shift_zero (s : Span) : s.shift 0 = s := rfl

@[simp]
theorem shift_shift (s : Span) (m n : Nat) : (s.shift m).shift n = s.shift (m + n) := by
  ext <;> simp [Nat.add_assoc]

end Span

end PipeLint
