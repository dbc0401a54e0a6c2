import Mathlib.Data.List.Nodup

/-!
# Items that stand in a list twice

That no item stands in a list twice is `List.Nodup`. Here an item may do so under a condition.

## Main definitions

* `PipeLint.AtMostTwice`: an item stands in a list no more than twice, and when it does so twice.

## Main results

* `PipeLint.AtMostTwice.map`, `PipeLint.AtMostTwice.append`: the same for the images of items and
  for two lists together.
* `PipeLint.count_le_one_of_pairwise`: items that stand in a list once.
-/

namespace PipeLint

variable {α : Type} [DecidableEq α] {l l' : List α} {a : α} {p p' : Prop}

/-- An item stands in a list no more than twice, and twice exactly if a condition holds. -/
def AtMostTwice (l : List α) (a : α) (p : Prop) : Prop :=
  l.count a ≤ 2 ∧ (l.count a = 2 ↔ p)

/-- An item that is not related to itself stands only once in a list whose items are related to all
those behind them. -/
theorem count_le_one_of_pairwise {R : α → α → Prop} (h : l.Pairwise R) (ha : ¬ R a a) :
    l.count a ≤ 1 := by
  by_contra hlt
  have hsub : (List.replicate 2 a).Sublist l := List.replicate_sublist_iff.mpr (by omega)
  exact ha (List.pairwise_pair.mp (h.sublist hsub))

theorem AtMostTwice.of_count_le_one (h : l.count a ≤ 1) : AtMostTwice l a False :=
  ⟨by omega, iff_of_false (by omega) id⟩

theorem AtMostTwice.of_notMem (h : a ∉ l) (hp : ¬ p) : AtMostTwice l a p := by
  rw [AtMostTwice, List.count_eq_zero.mpr h]
  exact ⟨by omega, iff_of_false (by omega) hp⟩

theorem AtMostTwice.congr (h : AtMostTwice l a p) (hp : p ↔ p') : AtMostTwice l a p' :=
  ⟨h.1, h.2.trans hp⟩

theorem AtMostTwice.mem (h : AtMostTwice l a p) (hp : p) : a ∈ l :=
  List.count_pos_iff.mp (h.2.mpr hp ▸ Nat.two_pos)

/-- An item stands in a list as often as its image in the images, if it shares this image with no
other item of the list. -/
theorem AtMostTwice.map {β : Type} [DecidableEq β] {g : α → β} (h : AtMostTwice l a p)
    (hg : ∀ b ∈ l, g b = g a → b = a) : AtMostTwice (l.map g) (g a) p := by
  have hcount : (l.map g).count (g a) = l.count a := by
    rw [List.count, List.countP_map]
    exact List.countP_congr fun b hb => by simpa using ⟨hg b hb, congrArg g⟩
  rwa [AtMostTwice, hcount]

/-- If an item does not stand in both of two lists, then it stands twice in both together if it does
in one of them. -/
theorem AtMostTwice.append (h : AtMostTwice l a p) (h' : AtMostTwice l' a p')
    (hdisjoint : a ∈ l → a ∉ l') : AtMostTwice (l ++ l') a (p ∨ p') := by
  obtain ⟨hle, hp⟩ := h
  obtain ⟨hle', hp'⟩ := h'
  rw [AtMostTwice, List.count_append, ← hp, ← hp']
  by_cases ha : a ∈ l
  · have hzero : l'.count a = 0 := List.count_eq_zero.mpr (hdisjoint ha)
    omega
  · have hzero : l.count a = 0 := List.count_eq_zero.mpr ha
    omega

end PipeLint
