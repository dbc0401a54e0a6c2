import Mathlib.Data.List.TakeWhile
import PipeLint.Text.Blank

/-!
# Trimmed texts

Trimming cuts white space off both ends of a text and nothing else: what is cut off at the start is
the longest run of white space there, and what is left of a text that is not blank starts with
something else. So a text that has no white space at its ends is what trimming leaves of it, and of
it with white space around it.

## Main definitions

* `PipeLint.Text.Trimmed`: a text that neither starts nor ends with white space.

## Main results

* `PipeLint.Text.exists_eq_append_trim`: the text is its leading white space, the trimmed text, and
  white space.
* `PipeLint.Text.blank_trim_iff` and `PipeLint.Text.trim_eq_nil_iff`: only blank texts are trimmed
  to nothing, and a trimmed text is blank only if it is empty.
* `PipeLint.Text.trimmed_trim` and `PipeLint.Text.Trimmed.trim_append`: trimming gives the trimmed
  texts, and takes off the white space that is put around one.
* `PipeLint.Text.Trimmed.trim_append_append`: trimming leaves a trimmed text in the middle as it is.
* `PipeLint.Text.trim_append_of_blank`: trimming takes off the white space that is put around a
  text.
-/

namespace PipeLint

/-! ### Runs -/

section Run

variable {α : Type*} {p : α → Bool} {run rest : List α} (hrun : ∀ a ∈ run, p a = true)
  (hrest : ∀ a, rest.head? = some a → p a = false)

include hrun hrest

theorem takeWhile_append_eq : (run ++ rest).takeWhile p = run := by
  rw [List.takeWhile_append_of_pos hrun]
  cases rest with
  | nil => simp
  | cons a rest => simp [hrest a rfl]

theorem dropWhile_append_eq : (run ++ rest).dropWhile p = rest := by
  rw [List.dropWhile_append_of_pos hrun]
  cases rest with
  | nil => rfl
  | cons a rest => simp [hrest a rfl]

/-- A list starts with one longest run. -/
theorem append_inj_of_run {run' rest' : List α} (hrun' : ∀ a ∈ run', p a = true)
    (hrest' : ∀ a, rest'.head? = some a → p a = false) (h : run ++ rest = run' ++ rest') :
    run = run' ∧ rest = rest' := by
  constructor
  · rw [← takeWhile_append_eq hrun hrest, h, takeWhile_append_eq hrun' hrest']
  · rw [← dropWhile_append_eq hrun hrest, h, dropWhile_append_eq hrun' hrest']

end Run

theorem eq_false_of_head?_dropWhile {α : Type*} {p : α → Bool} {l : List α} {a : α}
    (h : (l.dropWhile p).head? = some a) : p a = false := by
  have hnot := List.head?_dropWhile_not p l
  rw [h] at hnot
  simpa using hnot

namespace Text

/-! ### Blank texts -/

@[simp]
theorem blank_nil : Blank [] :=
  fun _ h => absurd h List.not_mem_nil

@[simp]
theorem blank_cons {c : Char} {t : Text} : Blank (c :: t) ↔ isBlank c = true ∧ Blank t :=
  List.forall_mem_cons

@[simp]
theorem blank_append {s t : Text} : Blank (s ++ t) ↔ Blank s ∧ Blank t :=
  List.forall_mem_append

@[simp]
theorem blank_reverse {t : Text} : Blank t.reverse ↔ Blank t := by
  simp [Blank]

theorem blank_takeWhile (t : Text) : Blank (t.takeWhile isBlank) :=
  List.all_eq_true.mp List.all_takeWhile

theorem Blank.dropWhile_eq_nil {t : Text} (h : Blank t) : t.dropWhile isBlank = [] :=
  List.dropWhile_eq_nil_iff.mpr h

theorem blank_dropWhile_iff {t : Text} : Blank (t.dropWhile isBlank) ↔ Blank t := by
  constructor
  · intro h
    rw [← List.takeWhile_append_dropWhile (p := isBlank) (l := t)]
    exact blank_append.mpr ⟨blank_takeWhile t, h⟩
  · intro h
    rw [h.dropWhile_eq_nil]
    exact blank_nil

/-! ### Trimming -/

/-- A text is what trimming its end leaves, and white space. -/
theorem exists_eq_trimEnd_append (t : Text) : ∃ back, Blank back ∧ t.trimEnd ++ back = t := by
  refine ⟨(t.reverse.takeWhile isBlank).reverse, blank_reverse.mpr (blank_takeWhile _), ?_⟩
  rw [trimEnd, ← List.reverse_append, List.takeWhile_append_dropWhile, List.reverse_reverse]

theorem isBlank_of_getLast?_trimEnd {t : Text} {c : Char} (h : t.trimEnd.getLast? = some c) :
    isBlank c = false := by
  rw [trimEnd, List.getLast?_reverse] at h
  exact eq_false_of_head?_dropWhile h

/-- A text is its leading white space, the trimmed text, and white space. -/
theorem exists_eq_append_trim (t : Text) :
    ∃ back, Blank back ∧ t.takeWhile isBlank ++ t.trim ++ back = t := by
  obtain ⟨back, hback, htail⟩ := exists_eq_trimEnd_append t.trimStart
  refine ⟨back, hback, ?_⟩
  rw [List.append_assoc, trim, htail, trimStart, List.takeWhile_append_dropWhile]

/-- A trimmed text is blank only if the text is. -/
theorem blank_trim_iff {t : Text} : Blank t.trim ↔ Blank t := by
  rw [trim, trimEnd, blank_reverse, blank_dropWhile_iff, blank_reverse, trimStart,
    blank_dropWhile_iff]

/-- Only a blank text is trimmed to nothing. -/
theorem trim_eq_nil_iff {t : Text} : t.trim = [] ↔ Blank t := by
  constructor
  · intro h
    exact blank_trim_iff.mp (by simp [h])
  · intro h
    simp [trim, trimStart, trimEnd, h.dropWhile_eq_nil]

/-! ### Texts without white space at their ends -/

/-- A text that neither starts nor ends with white space. -/
structure Trimmed (t : Text) : Prop where
  /-- The first character is not white space. -/
  head : ∀ c, t.head? = some c → isBlank c = false
  /-- The last character is not white space. -/
  last : ∀ c, t.getLast? = some c → isBlank c = false

/-- Trimming leaves no white space at the ends. -/
theorem trimmed_trim (t : Text) : t.trim.Trimmed := by
  constructor
  · intro c hc
    obtain ⟨back, -, ht⟩ := exists_eq_append_trim t
    obtain ⟨rest, htrim⟩ := List.head?_eq_some_iff.mp hc
    -- what is left starts where the leading white space ends
    have hstart : t.dropWhile isBlank = t.trim ++ back := by
      rw [List.append_assoc] at ht
      exact List.append_cancel_left (List.takeWhile_append_dropWhile.trans ht.symm)
    exact eq_false_of_head?_dropWhile (l := t) (by rw [hstart, htrim]; rfl)
  · exact fun c => isBlank_of_getLast?_trimEnd

namespace Trimmed

variable {t left right : Text} (ht : t.Trimmed) (hleft : left.Blank) (hright : right.Blank)

include ht

theorem not_blank (hne : t ≠ []) : ¬ t.Blank := by
  obtain ⟨c, rest, rfl⟩ := List.exists_cons_of_ne_nil hne
  intro hblank
  simp [ht.head c rfl] at hblank

theorem head_append (hne : t ≠ []) (right : Text) :
    ∀ c, (t ++ right).head? = some c → isBlank c = false := by
  obtain ⟨d, rest, rfl⟩ := List.exists_cons_of_ne_nil hne
  exact fun c hc => ht.head c hc

include hleft in
theorem takeWhile_append (hne : t ≠ []) (right : Text) :
    (left ++ t ++ right).takeWhile isBlank = left := by
  rw [List.append_assoc]
  exact takeWhile_append_eq hleft (ht.head_append hne right)

include hleft hright in
/-- Trimming takes off the white space around a trimmed text. -/
theorem trim_append : (left ++ t ++ right).trim = t := by
  rcases eq_or_ne t [] with rfl | hne
  · exact trim_eq_nil_iff.mpr (by simp [hleft, hright])
  have hstart : trimStart (left ++ t ++ right) = t ++ right := by
    rw [trimStart, List.append_assoc]
    exact dropWhile_append_eq hleft (ht.head_append hne right)
  have hend : (right.reverse ++ t.reverse).dropWhile isBlank = t.reverse := by
    refine dropWhile_append_eq (blank_reverse.mpr hright) fun c hc => ht.last c ?_
    rwa [List.head?_reverse] at hc
  rw [trim, hstart, trimEnd, List.reverse_append, hend, List.reverse_reverse]

theorem trim_eq : t.trim = t := by
  simpa using ht.trim_append blank_nil blank_nil

/-- Text around a trimmed text with something in it makes a trimmed text, if it has no white space
at the outer ends. -/
theorem trimStart_append (hne : t ≠ []) (front back : Text) :
    (front.trimStart ++ t ++ back.trimEnd).Trimmed where
  head c hc := by
    cases hfront : front.trimStart with
    | nil =>
      rw [hfront, List.nil_append] at hc
      exact ht.head_append hne back.trimEnd c hc
    | cons d rest =>
      refine eq_false_of_head?_dropWhile (l := front) ?_
      rw [← trimStart, hfront]
      rw [hfront] at hc
      exact hc
  last c hc := by
    rw [List.getLast?_append] at hc
    cases hback : back.trimEnd.getLast? with
    | some d =>
      rw [hback, Option.some_or] at hc
      exact isBlank_of_getLast?_trimEnd (hback.trans hc)
    | none =>
      obtain ⟨d, hd⟩ := Option.isSome_iff_exists.mp (List.getLast?_isSome.mpr hne)
      rw [hback, Option.none_or, List.getLast?_append, hd, Option.some_or] at hc
      exact ht.last c (hd.trans hc)

/-- Trimming a text with a trimmed text in it trims what stands around that. -/
theorem trim_append_append (hne : t ≠ []) (front back : Text) :
    (front ++ t ++ back).trim = front.trimStart ++ t ++ back.trimEnd ∧
      (front ++ t ++ back).takeWhile isBlank = front.takeWhile isBlank := by
  obtain ⟨right, hright, hback⟩ := exists_eq_trimEnd_append back
  have hwhole : front ++ t ++ back =
      front.takeWhile isBlank ++ (front.trimStart ++ t ++ back.trimEnd) ++ right := by
    calc front ++ t ++ back
        = front.takeWhile isBlank ++ front.trimStart ++ t ++ (back.trimEnd ++ right) := by
          rw [trimStart, List.takeWhile_append_dropWhile, hback]
      _ = _ := by simp
  have htrimmed := ht.trimStart_append hne front back
  rw [hwhole]
  exact ⟨htrimmed.trim_append (blank_takeWhile front) hright,
    htrimmed.takeWhile_append (blank_takeWhile front) (by simp [hne]) right⟩

end Trimmed

/-! ### White space around a text -/

/-- White space around a text makes no difference to what trimming leaves of it. -/
theorem trim_append_of_blank {left right : Text} (hleft : left.Blank) (hright : right.Blank)
    (t : Text) : (left ++ t ++ right).trim = t.trim := by
  obtain ⟨back, hback, ht⟩ := exists_eq_append_trim t
  have hwhole : left ++ t ++ right =
      left ++ t.takeWhile isBlank ++ t.trim ++ (back ++ right) := by
    calc left ++ t ++ right
        = left ++ (t.takeWhile isBlank ++ t.trim ++ back) ++ right := by rw [ht]
      _ = _ := by simp
  rw [hwhole]
  exact (trimmed_trim t).trim_append (blank_append.mpr ⟨hleft, blank_takeWhile t⟩)
    (blank_append.mpr ⟨hback, hright⟩)

/-- The white space at the start of a text ends in the text, unless the text has nothing else. -/
theorem takeWhile_append_of_not_blank {t : Text} (ht : ¬ t.Blank) (right : Text) :
    (t ++ right).takeWhile isBlank = t.takeWhile isBlank := by
  obtain ⟨back, -, hwhole⟩ := exists_eq_append_trim t
  calc (t ++ right).takeWhile isBlank
      = (t.takeWhile isBlank ++ t.trim ++ (back ++ right)).takeWhile isBlank := by
        rw [← List.append_assoc, hwhole]
    _ = t.takeWhile isBlank :=
        (trimmed_trim t).takeWhile_append (blank_takeWhile t) (mt trim_eq_nil_iff.mp ht) _

theorem trimmed_iff {t : Text} : t.Trimmed ↔ t.trim = t :=
  ⟨Trimmed.trim_eq, fun h => h ▸ trimmed_trim t⟩

instance (t : Text) : Decidable t.Trimmed :=
  decidable_of_iff _ trimmed_iff.symm

end Text

end PipeLint
