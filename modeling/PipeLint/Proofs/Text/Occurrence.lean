import PipeLint.Span
import PipeLint.Text.Basic

/-!
# The characters of a text where they stand

One character may stand in a text many times. An occurrence is a character together with what stands
before it and behind it, so it tells where the character stands, and what a reader that has come
this far has passed and has in front of it. A list of findings that is read off the occurrences of a
text is in the order of the text and has nothing twice.

## Main definitions

* `PipeLint.Text.Occurrence`: a character of a text where it stands, with `Occurrence.span`.
* `PipeLint.Text.occurrences`: the characters of a text from left to right.

## Main results

* `PipeLint.Text.mem_occurrences_iff`: an occurrence is a way to cut a text at a character.
* `PipeLint.Text.pairwise_occurrences`: occurrences follow one another without overlap.
* `PipeLint.Text.occurrencesFrom_append`: the occurrences of joined texts.
-/

namespace PipeLint.Text

/-- A character of a text, with what stands before it and behind it. -/
@[ext]
structure Occurrence where
  /-- What stands before the character. -/
  front : Text
  /-- The character. -/
  char : Char
  /-- What stands behind the character. -/
  back : Text
deriving DecidableEq, Repr

namespace Occurrence

/-- The bytes of the character in its text. -/
def span (o : Occurrence) : Span :=
  ⟨o.front.byteLength, o.char.utf8Size⟩

/-- The occurrence in a longer text, with more text before and behind. -/
def inside (o : Occurrence) (front back : Text) : Occurrence :=
  ⟨front ++ o.front, o.char, o.back ++ back⟩

@[simp]
theorem char_inside (o : Occurrence) (front back : Text) : (o.inside front back).char = o.char :=
  rfl

@[simp]
theorem span_inside (o : Occurrence) (front back : Text) :
    (o.inside front back).span = o.span.shift front.byteLength := by
  ext
  · simp [span, inside, Nat.add_comm]
  · rfl

theorem start_lt_stop_span (o : Occurrence) : o.span.start < o.span.stop :=
  Nat.lt_add_of_pos_right o.char.utf8Size_pos

end Occurrence

/-- The characters of a text that stands behind other text, from left to right. -/
def occurrencesFrom (front : Text) : Text → List Occurrence
  | [] => []
  | c :: t => ⟨front, c, t⟩ :: occurrencesFrom (front ++ [c]) t

/-- The characters of a text from left to right. -/
def occurrences (t : Text) : List Occurrence :=
  occurrencesFrom [] t

theorem mem_occurrencesFrom_iff {front t : Text} {o : Occurrence} :
    o ∈ occurrencesFrom front t ↔
      ∃ passed, o.front = front ++ passed ∧ t = passed ++ o.char :: o.back := by
  induction t generalizing front with
  | nil => simp [occurrencesFrom]
  | cons c t ih =>
    rw [occurrencesFrom, List.mem_cons, ih]
    constructor
    · rintro (rfl | ⟨passed, hfront, rfl⟩)
      · exact ⟨[], by simp, rfl⟩
      · exact ⟨c :: passed, by simp [hfront], rfl⟩
    · rintro ⟨passed, hfront, ht⟩
      cases passed with
      | nil =>
        obtain ⟨rfl, rfl⟩ := List.cons.inj ht
        exact Or.inl (Occurrence.ext (by simpa using hfront) rfl rfl)
      | cons d passed =>
        obtain ⟨rfl, rfl⟩ := List.cons.inj ht
        exact Or.inr ⟨passed, by simp [hfront], rfl⟩

/-- An occurrence is a way to cut the text at a character. -/
theorem mem_occurrences_iff {t : Text} {o : Occurrence} :
    o ∈ t.occurrences ↔ t = o.front ++ o.char :: o.back := by
  rw [occurrences, mem_occurrencesFrom_iff]
  constructor
  · rintro ⟨passed, hfront, ht⟩
    rwa [hfront]
  · exact fun ht => ⟨o.front, rfl, ht⟩

theorem le_start_of_mem_occurrencesFrom {front t : Text} {o : Occurrence}
    (ho : o ∈ occurrencesFrom front t) : front.byteLength ≤ o.span.start := by
  obtain ⟨passed, hfront, -⟩ := mem_occurrencesFrom_iff.mp ho
  simp only [Occurrence.span, hfront, byteLength_append]
  omega

theorem stop_le_of_mem_occurrences {t : Text} {o : Occurrence} (ho : o ∈ t.occurrences) :
    o.span.stop ≤ t.byteLength := by
  have hlength := congrArg byteLength (mem_occurrences_iff.mp ho)
  simp only [byteLength_append, byteLength_cons] at hlength
  simp only [Occurrence.span, Span.stop]
  omega

theorem pairwise_occurrencesFrom (front t : Text) :
    (occurrencesFrom front t).Pairwise (·.span.stop ≤ ·.span.start) := by
  induction t generalizing front with
  | nil => exact .nil
  | cons c t ih =>
    refine List.pairwise_cons.mpr ⟨fun o ho => ?_, ih (front ++ [c])⟩
    have hstart := le_start_of_mem_occurrencesFrom ho
    rwa [byteLength_append] at hstart

/-- Occurrences follow one another without overlap. -/
theorem pairwise_occurrences (t : Text) :
    t.occurrences.Pairwise (·.span.stop ≤ ·.span.start) :=
  pairwise_occurrencesFrom [] t

/-! ### Joined texts -/

theorem occurrencesFrom_append_left (front passed t : Text) :
    occurrencesFrom (front ++ passed) t =
      (occurrencesFrom passed t).map (·.inside front []) := by
  induction t generalizing passed with
  | nil => rfl
  | cons c t ih =>
    rw [occurrencesFrom, occurrencesFrom, List.append_assoc, ih, List.map_cons,
      Occurrence.inside, List.append_nil]

theorem occurrencesFrom_eq_map (front t : Text) :
    occurrencesFrom front t = t.occurrences.map (·.inside front []) := by
  rw [occurrences, ← occurrencesFrom_append_left, List.append_nil]

theorem occurrences_cons (c : Char) (t : Text) :
    occurrences (c :: t) = ⟨[], c, t⟩ :: t.occurrences.map (·.inside [c] []) := by
  rw [occurrences, occurrencesFrom, List.nil_append, occurrencesFrom_eq_map]

/-- The occurrences of joined texts are those of the one and those of the other. -/
theorem occurrencesFrom_append (front s t : Text) :
    occurrencesFrom front (s ++ t) =
      s.occurrences.map (·.inside front t) ++ occurrencesFrom (front ++ s) t := by
  induction s generalizing front with
  | nil => simp [occurrences, occurrencesFrom]
  | cons c s ih =>
    rw [List.cons_append, occurrencesFrom, ih, occurrences_cons, List.map_cons, List.map_map,
      List.append_assoc]
    simp [Occurrence.inside, Function.comp_def]

end PipeLint.Text
