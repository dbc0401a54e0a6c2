import PipeLint.Token.Lexeme

/-!
# Quoting

Whether a pipe separates two stages depends on the text before it: a pipe inside quotes, or after
a backslash, is an ordinary character. `Quoting` is what has to be remembered of the text before a
place.

## Main definitions

* `PipeLint.Quoting`: the open quote, if any, and whether a backslash escapes the next character.
* `PipeLint.Quoting.scan`: the quoting after a text.
* `PipeLint.Quoting.segments`: a text cut at its separating pipes.

## Main results

* `PipeLint.Quoting.scan_append`: texts are scanned one after the other.
* `PipeLint.Quoting.segments_append_pipe`: texts joined by a separating pipe are cut apart there.
-/

namespace PipeLint

/-- What the text before a place means for the characters after it. -/
@[ext]
structure Quoting where
  /-- The quote that is open, if one is. -/
  openQuote : Option Char := none
  /-- Whether a backslash escapes the next character. -/
  escaped : Bool := false
deriving DecidableEq, Repr

namespace Quoting

/-- The quoting outside quotes with no escape pending, as it is at the start of a text. -/
abbrev neutral : Quoting := {}

/-- The quoting after one more character. An escape covers one character, whatever it is; a
backslash escapes inside quotes as well as outside. -/
def step (q : Quoting) (c : Char) : Quoting :=
  if q.escaped then
    { q with escaped := false }
  else if c = '\\' then
    { q with escaped := true }
  else
    match q.openQuote with
    | none => if isQuote c then { q with openQuote := some c } else q
    | some quote => if c = quote then { q with openQuote := none } else q

/-- The quoting after a text. -/
def scan (q : Quoting) (t : Text) : Quoting :=
  t.foldl step q

/-- Whether a character is a pipe that separates two stages. -/
def separates (q : Quoting) (c : Char) : Bool :=
  c = '|' && q = neutral

@[simp]
theorem scan_nil (q : Quoting) : q.scan [] = q := rfl

@[simp]
theorem scan_cons (q : Quoting) (c : Char) (t : Text) : q.scan (c :: t) = (q.step c).scan t := rfl

/-- Texts are scanned one after the other. -/
@[simp]
theorem scan_append (q : Quoting) (s t : Text) : q.scan (s ++ t) = (q.scan s).scan t :=
  List.foldl_append

theorem step_eq_neutral_of_separates {q : Quoting} {c : Char} (h : q.separates c = true) :
    q.step c = neutral := by
  simp only [separates, Bool.and_eq_true, decide_eq_true_eq] at h
  obtain ⟨rfl, rfl⟩ := h
  rfl

/-! ### Cutting at the separating pipes -/

/-- The pieces between the separating pipes of a text: the first one, and those after it. -/
def segments (q : Quoting) : Text → Text × List Text
  | [] => ([], [])
  | c :: t =>
    let (segment, others) := (q.step c).segments t
    if q.separates c then ([], segment :: others) else (c :: segment, others)

@[simp]
theorem segments_nil (q : Quoting) : q.segments [] = ([], []) := rfl

theorem segments_cons_of_separates {q : Quoting} {c : Char} (h : q.separates c = true)
    (t : Text) :
    q.segments (c :: t) = ([], (neutral.segments t).1 :: (neutral.segments t).2) := by
  simp only [segments, h, if_true, step_eq_neutral_of_separates h]

theorem segments_cons_of_not_separates {q : Quoting} {c : Char} (h : q.separates c = false)
    (t : Text) :
    q.segments (c :: t) = (c :: ((q.step c).segments t).1, ((q.step c).segments t).2) := by
  simp only [segments, h, Bool.false_eq_true, if_false]

/-- A separating pipe between two texts cuts them apart: the pieces of the one come before the
pieces of the other. -/
theorem segments_append_pipe {q : Quoting} {s : Text} (h : q.scan s = neutral) (t : Text) :
    q.segments (s ++ '|' :: t) =
      ((q.segments s).1, (q.segments s).2 ++ (neutral.segments t).1 :: (neutral.segments t).2) := by
  induction s generalizing q with
  | nil =>
    have hsep : q.separates '|' = true := by
      simp only [scan_nil] at h
      simp [separates, h]
    rw [List.nil_append, segments_cons_of_separates hsep]
    rfl
  | cons c s ih =>
    cases hsep : q.separates c with
    | true =>
      rw [scan_cons, step_eq_neutral_of_separates hsep] at h
      rw [List.cons_append, segments_cons_of_separates hsep, segments_cons_of_separates hsep, ih h]
      simp
    | false =>
      rw [scan_cons] at h
      rw [List.cons_append, segments_cons_of_not_separates hsep,
        segments_cons_of_not_separates hsep, ih h]

end Quoting

end PipeLint
