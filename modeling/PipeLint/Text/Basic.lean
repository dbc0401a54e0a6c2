/-!
# Texts and byte offsets

A text is a list of characters. Places in a text are given by byte offsets into its UTF-8 form:
the offset of a place is the `byteLength` of what stands before it. An offset that lies inside a
character, or past the end, is no place at all, and the operations that take offsets say so by
returning `none`.

## Main definitions

* `PipeLint.Text.byteLength`: the length of the UTF-8 form.
* `PipeLint.Text.cutAt?`, `PipeLint.Text.slice?`: a text cut at a byte offset, and the part of it
  between two offsets.
* `PipeLint.Text.decimal`: the decimal numeral of a number.

## Main results

* `PipeLint.Text.size_utf8Encode`: the byte length is what the encoder of the core library gives.
* `PipeLint.Text.cutAt?_eq_some_iff` and `PipeLint.Text.slice?_eq_some_iff` say which cuts and
  slices exist, in terms of concatenation alone.
-/

namespace PipeLint

/-- A text, character by character. -/
abbrev Text := List Char

namespace Text

/-! ### Byte length -/

/-- The number of bytes in the UTF-8 form of a text. -/
def byteLength : Text → Nat
  | [] => 0
  | c :: t => c.utf8Size + byteLength t

@[simp]
theorem byteLength_nil : byteLength [] = 0 := rfl

@[simp]
theorem byteLength_cons (c : Char) (t : Text) :
    byteLength (c :: t) = c.utf8Size + byteLength t := rfl

@[simp]
theorem byteLength_append (s t : Text) :
    byteLength (s ++ t) = byteLength s + byteLength t := by
  induction s with
  | nil => simp
  | cons c s ih =>
    simp only [List.cons_append, byteLength_cons, ih]
    omega

/-- The byte length of a text is the number of bytes of its UTF-8 form. -/
theorem size_utf8Encode (t : Text) : t.utf8Encode.size = byteLength t := by
  induction t with
  | nil => rfl
  | cons c t ih =>
    rw [List.utf8Encode_cons, ByteArray.size_append, ih, List.utf8Encode_singleton,
      List.size_toByteArray, String.length_utf8EncodeChar, byteLength_cons]

theorem byteLength_eq_zero_iff {t : Text} : byteLength t = 0 ↔ t = [] := by
  cases t with
  | nil => simp
  | cons c t =>
    have := c.utf8Size_pos
    simp only [byteLength_cons, reduceCtorEq, iff_false]
    omega

theorem append_inj_of_byteLength_eq {a b a' b' : Text} (h : a ++ b = a' ++ b')
    (hlen : byteLength a = byteLength a') : a = a' ∧ b = b' := by
  induction a generalizing a' with
  | nil =>
    have : a' = [] := byteLength_eq_zero_iff.mp (by simpa using hlen.symm)
    simp_all
  | cons c a ih =>
    cases a' with
    | nil =>
      have := c.utf8Size_pos
      simp only [byteLength_cons, byteLength_nil] at hlen
      omega
    | cons c' a' =>
      simp only [List.cons_append, List.cons.injEq] at h
      obtain ⟨rfl, h⟩ := h
      obtain ⟨rfl, rfl⟩ := ih h (by simpa using hlen)
      exact ⟨rfl, rfl⟩

/-! ### Cutting at byte offsets -/

/-- Cuts a text at a byte offset. There is no cut inside a character or past the end. -/
def cutAt? (t : Text) (offset : Nat) : Option (Text × Text) :=
  match offset, t with
  | 0, t => some ([], t)
  | _ + 1, [] => none
  | n + 1, c :: t =>
    if c.utf8Size ≤ n + 1 then
      (cutAt? t (n + 1 - c.utf8Size)).map fun (front, back) => (c :: front, back)
    else
      none

/-- A cut splits the text where the part before it has as many bytes as asked for. -/
theorem cutAt?_eq_some_iff {t a b : Text} {n : Nat} :
    cutAt? t n = some (a, b) ↔ t = a ++ b ∧ byteLength a = n := by
  induction t generalizing a n with
  | nil =>
    cases n with
    | zero =>
      simp only [cutAt?, Option.some.injEq, Prod.mk.injEq, List.nil_eq_append_iff,
        byteLength_eq_zero_iff]
      exact ⟨fun ⟨ha, hb⟩ => ⟨⟨ha.symm, hb.symm⟩, ha.symm⟩, fun ⟨⟨ha, hb⟩, _⟩ => ⟨ha.symm, hb.symm⟩⟩
    | succ n =>
      simp only [cutAt?, reduceCtorEq, List.nil_eq_append_iff, false_iff, not_and, and_imp]
      rintro rfl -
      simp
  | cons c t ih =>
    cases n with
    | zero =>
      simp only [cutAt?, Option.some.injEq, Prod.mk.injEq, byteLength_eq_zero_iff]
      constructor
      · rintro ⟨rfl, rfl⟩
        exact ⟨rfl, rfl⟩
      · rintro ⟨h, rfl⟩
        exact ⟨rfl, h⟩
    | succ n =>
      have hpos := c.utf8Size_pos
      simp only [cutAt?]
      constructor
      · intro h
        split at h
        · obtain ⟨⟨front, back⟩, hcut, heq⟩ := Option.map_eq_some_iff.mp h
          obtain ⟨rfl, rfl⟩ := Prod.mk.inj heq
          obtain ⟨rfl, hlen⟩ := ih.mp hcut
          exact ⟨rfl, by simp only [byteLength_cons]; omega⟩
        · contradiction
      · rintro ⟨h, hlen⟩
        cases a with
        | nil => simp at hlen
        | cons d a =>
          simp only [List.cons_append, List.cons.injEq] at h
          obtain ⟨rfl, rfl⟩ := h
          simp only [byteLength_cons] at hlen
          rw [ite_cond_eq_true _ _ (eq_true (by omega)),
            ih.mpr ⟨rfl, (by omega : byteLength a = n + 1 - c.utf8Size)⟩]
          rfl

/-- The part of a text from one byte offset up to another, if both are places in the text and
stand in this order. -/
def slice? (t : Text) (start stop : Nat) : Option Text :=
  if start ≤ stop then
    (cutAt? t start).bind fun (_, back) =>
      (cutAt? back (stop - start)).map fun (front, _) => front
  else
    none

/-- A slice is a middle part of the text, with as many bytes before it as its start says. -/
theorem slice?_eq_some_iff {t m : Text} {i j : Nat} :
    slice? t i j = some m ↔
      ∃ a b, t = a ++ m ++ b ∧ byteLength a = i ∧ byteLength (a ++ m) = j := by
  simp only [slice?]
  constructor
  · intro h
    split at h
    · obtain ⟨⟨a, r⟩, hcut, h⟩ := Option.bind_eq_some_iff.mp h
      obtain ⟨⟨m', b⟩, hcut', rfl⟩ := Option.map_eq_some_iff.mp h
      obtain ⟨rfl, ha⟩ := cutAt?_eq_some_iff.mp hcut
      obtain ⟨rfl, hm⟩ := cutAt?_eq_some_iff.mp hcut'
      exact ⟨a, b, by simp, ha, by simp only [byteLength_append]; omega⟩
    · contradiction
  · rintro ⟨a, b, rfl, rfl, rfl⟩
    have hcut : cutAt? (a ++ m ++ b) (byteLength a) = some (a, m ++ b) :=
      cutAt?_eq_some_iff.mpr ⟨by simp, rfl⟩
    have hcut' : cutAt? (m ++ b) (byteLength (a ++ m) - byteLength a) = some (m, b) :=
      cutAt?_eq_some_iff.mpr ⟨rfl, by simp only [byteLength_append]; omega⟩
    rw [ite_cond_eq_true _ _ (eq_true (by simp)), hcut, Option.bind_some, hcut']
    rfl

/-! ### Numerals -/

/-- The decimal numeral of a number. -/
def decimal (n : Nat) : Text :=
  Nat.toDigits 10 n

end Text

end PipeLint
