import PipeLint.Token.Lexeme

/-!
# Reading a text at a cursor

A program that reads a text at byte offsets can go wrong: a slice whose ends are not both places in
the text does not exist, and a difference of offsets does not exist if the second one is larger. The
operations here have no value then. Neither has a loop that would go on for ever, which is one whose
cursor does not move on, or one that leaves the text.

A cursor is a place in the text if it is the number of bytes of what stands in front of it. Whatever
is done at such a cursor has a value, and leaves the cursor at such a place.

## Main definitions

* `PipeLint.difference?`: the difference of two offsets.
* `PipeLint.Text.from?`: what a text has from a cursor on.
* `PipeLint.Text.peek?`, `PipeLint.Text.bump?`, `PipeLint.Text.skip?`: looking at a character, and
  passing one or several.
* `PipeLint.Text.HasRestAt`: the cursors that are places, with what stands there.

## Main results

* `PipeLint.Text.HasRestAt.slice?_eq`, `PipeLint.Text.HasRestAt.append`: what is passed is a slice,
  and the cursor behind it is a place.
* `PipeLint.Text.HasRestAt.skip?_eq`: the characters that a loop passes.
-/

namespace PipeLint

/-- The difference of two offsets, unless the second one is larger. -/
def difference? (m n : Nat) : Option Nat :=
  if n ≤ m then some (m - n) else none

theorem difference?_of_le {m n : Nat} (h : n ≤ m) : difference? m n = some (m - n) :=
  if_pos h

namespace Text

/-! ### Operations on a cursor -/

/-- A cursor moves on, and does not leave the text. -/
abbrev MovesOn (t : Text) (cursor next : Nat) : Prop :=
  cursor < next ∧ next ≤ t.byteLength

/-- What a text has from a cursor on. -/
def from? (t : Text) (cursor : Nat) : Option Text :=
  t.slice? cursor t.byteLength

/-- The character at a cursor, if there is one. -/
def peek? (t : Text) (cursor : Nat) : Option (Option Char) := do
  return (← t.from? cursor).head?

/-- The cursor behind the next character, or the same cursor at the end of the text. -/
def bump? (t : Text) (cursor : Nat) : Option Nat := do
  match ← t.peek? cursor with
  | some c => return cursor + c.utf8Size
  | none => return cursor

/-- The cursor behind the characters of a class. -/
def skip? (isPassed : Char → Bool) (t : Text) (cursor : Nat) : Option Nat := do
  match ← t.peek? cursor with
  | some c =>
    if isPassed c then
      let next ← t.bump? cursor
      if _h : t.MovesOn cursor next then skip? isPassed t next else none
    else
      return cursor
  | none => return cursor
termination_by t.byteLength - cursor

/-! ### Cursors that are places -/

/-- A text goes on with a rest at a cursor: the cursor is the number of bytes in front of the
rest. -/
def HasRestAt (t rest : Text) (cursor : Nat) : Prop :=
  ∃ front, t = front ++ rest ∧ byteLength front = cursor

theorem hasRestAt_zero (t : Text) : HasRestAt t t 0 :=
  ⟨[], rfl, rfl⟩

namespace HasRestAt

variable {t passed rest : Text} {c : Char} {cursor : Nat}

/-- A cursor behind what is passed is a place again. -/
theorem append (h : HasRestAt t (passed ++ rest) cursor) :
    HasRestAt t rest (cursor + byteLength passed) := by
  obtain ⟨front, rfl, rfl⟩ := h
  exact ⟨front ++ passed, (List.append_assoc ..).symm, byteLength_append front passed⟩

theorem cons (h : HasRestAt t (c :: rest) cursor) : HasRestAt t rest (cursor + c.utf8Size) :=
  @append t [c] rest cursor h

theorem movesOn (h : HasRestAt t (passed ++ rest) cursor) (hne : passed ≠ []) :
    t.MovesOn cursor (cursor + byteLength passed) := by
  obtain ⟨front, rfl, rfl⟩ := h
  have hpos := mt byteLength_eq_zero_iff.mp hne
  simp only [MovesOn, byteLength_append]
  omega

theorem movesOn_cons (h : HasRestAt t (c :: rest) cursor) :
    t.MovesOn cursor (cursor + c.utf8Size) :=
  @movesOn t [c] rest cursor h (List.cons_ne_nil c [])

/-- What is passed is a slice. -/
theorem slice?_eq (h : HasRestAt t (passed ++ rest) cursor) :
    t.slice? cursor (cursor + byteLength passed) = some passed := by
  obtain ⟨front, rfl, rfl⟩ := h
  exact slice?_eq_some_iff.mpr
    ⟨front, rest, (List.append_assoc ..).symm, rfl, byteLength_append front passed⟩

theorem from?_eq (h : HasRestAt t rest cursor) : t.from? cursor = some rest := by
  obtain ⟨front, rfl, rfl⟩ := h
  exact slice?_eq_some_iff.mpr ⟨front, [], (List.append_nil _).symm, rfl, rfl⟩

theorem peek?_eq (h : HasRestAt t rest cursor) : t.peek? cursor = some rest.head? := by
  rw [peek?, h.from?_eq]
  rfl

theorem bump?_eq (h : HasRestAt t (c :: rest) cursor) :
    t.bump? cursor = some (cursor + c.utf8Size) := by
  rw [bump?, h.peek?_eq]
  rfl

theorem bump?_nil (h : HasRestAt t [] cursor) : t.bump? cursor = some cursor := by
  rw [bump?, h.peek?_eq]
  rfl

/-- The loop passes all characters up to the first one of another class. -/
theorem skip?_eq (isPassed : Char → Bool) (h : HasRestAt t rest cursor) :
    t.skip? isPassed cursor = some (cursor + byteLength (rest.takeWhile isPassed)) := by
  induction rest generalizing cursor with
  | nil =>
    rw [skip?, h.peek?_eq]
    rfl
  | cons c rest ih =>
    rw [skip?, h.peek?_eq]
    by_cases hc : isPassed c = true
    · have hmoves := h.movesOn_cons
      have hnext := ih h.cons
      simp [hc, h.bump?_eq, hmoves, hnext, Nat.add_assoc]
    · simp [hc]

end HasRestAt

end Text

end PipeLint
