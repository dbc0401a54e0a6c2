import Mathlib.Data.List.Forall2

/-!
# Partial maps of lists

A partial function maps a list if it has a value at every item; otherwise the whole has no value.

## Main results

* `PipeLint.mapM_eq_some_iff`: a list is mapped item by item.
* `PipeLint.mapM_eq_some_map`, `PipeLint.mapM_eq_none_of_mem`: a function with a value at every
  item, and one without a value at some item.
-/

namespace PipeLint

variable {α β : Type} {f : α → Option β} {l : List α}

/-- A list is mapped to another one exactly if every item is mapped to the item at its place. -/
theorem mapM_eq_some_iff {l' : List β} :
    l.mapM f = some l' ↔ List.Forall₂ (fun a b => f a = some b) l l' := by
  induction l generalizing l' with
  | nil => simp [eq_comm]
  | cons a l ih =>
    rw [List.mapM_cons, List.forall₂_cons_left_iff]
    constructor
    · intro h
      obtain ⟨b, hb, h⟩ := Option.bind_eq_some_iff.mp h
      obtain ⟨l'', hl, h⟩ := Option.bind_eq_some_iff.mp h
      exact ⟨b, l'', hb, ih.mp hl, (Option.some.inj h).symm⟩
    · rintro ⟨b, l'', hb, hl, rfl⟩
      rw [hb, ih.mpr hl]
      rfl

/-- A list is mapped if there is a value at each of its items. -/
theorem mapM_eq_some_map {g : α → β} (h : ∀ a ∈ l, f a = some (g a)) :
    l.mapM f = some (l.map g) :=
  mapM_eq_some_iff.mpr (List.forall₂_map_right_iff.mpr (List.forall₂_same.mpr h))

/-- A list is not mapped if one of its items is not. -/
theorem mapM_eq_none_of_mem {a : α} (ha : a ∈ l) (h : f a = none) : l.mapM f = none := by
  refine Option.eq_none_iff_forall_ne_some.mpr fun l' hl => ?_
  obtain ⟨i, hi, rfl⟩ := List.getElem_of_mem ha
  have hforall := mapM_eq_some_iff.mp hl
  have hget := hforall.get hi (hforall.length_eq ▸ hi)
  simp [h] at hget

end PipeLint
