import PipeLint.Text.Basic

/-!
# Parts of a text at their places

A part stands at a byte offset of a text when that many bytes come before it. This is what a span
means: the bytes of the span are a part of the text exactly if the text has that part at the start
of the span, so a part of a part is found by adding the offsets.

## Main definitions

* `PipeLint.Text.HasPartAt`: a part of a text at a byte offset.

## Main results

* `PipeLint.Text.hasPartAt_iff_slice?`: the part is what the text has between the two offsets.
* `PipeLint.Text.HasPartAt.trans`: a part of a part is a part.
-/

namespace PipeLint.Text

/-- A text has a part at a byte offset when the text before the part has that many bytes. -/
def HasPartAt (t part : Text) (offset : Nat) : Prop :=
  ∃ front back, t = front ++ part ++ back ∧ byteLength front = offset

/-- The part at an offset is what the text has from there on, as far as the part is long. -/
theorem hasPartAt_iff_slice? {t part : Text} {offset : Nat} :
    t.HasPartAt part offset ↔ t.slice? offset (offset + part.byteLength) = some part := by
  rw [slice?_eq_some_iff]
  constructor
  · rintro ⟨front, back, rfl, rfl⟩
    exact ⟨front, back, rfl, rfl, byteLength_append front part⟩
  · rintro ⟨front, back, rfl, rfl, -⟩
    exact ⟨front, back, rfl, rfl⟩

namespace HasPartAt

variable {s t part : Text} {m n : Nat}

theorem add_byteLength_le (h : t.HasPartAt part n) : n + part.byteLength ≤ t.byteLength := by
  obtain ⟨front, back, rfl, rfl⟩ := h
  simp only [byteLength_append]
  omega

/-- A part of a part is a part. -/
theorem trans (hs : t.HasPartAt s m) (hpart : s.HasPartAt part n) : t.HasPartAt part (m + n) := by
  obtain ⟨front, back, rfl, rfl⟩ := hs
  obtain ⟨front', back', rfl, rfl⟩ := hpart
  exact ⟨front ++ front', back' ++ back, by simp, byteLength_append front front'⟩

theorem append_left (h : t.HasPartAt part n) (s : Text) :
    (s ++ t).HasPartAt part (s.byteLength + n) :=
  trans ⟨s, [], by simp, rfl⟩ h

theorem append_right (h : t.HasPartAt part n) (s : Text) : (t ++ s).HasPartAt part n := by
  obtain ⟨front, back, rfl, rfl⟩ := h
  exact ⟨front, back ++ s, by simp, rfl⟩

end HasPartAt

end PipeLint.Text
