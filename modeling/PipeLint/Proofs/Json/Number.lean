import PipeLint.Json.Number
import PipeLint.Proofs.Text.Trim

/-!
# The grammar of numbers

A number is an optional minus sign, digits without a leading zero, an optional fraction and an
optional exponent. The reader decides this along the text, each part where the one before it ends.

## Main definitions

* `PipeLint.Json.NumberLiteral`: the numbers, given by their parts.

## Main results

* `PipeLint.Json.isNumber_iff`: the reader takes the numbers and nothing else.
-/

namespace PipeLint.Json

/-! ### The parts of a number -/

/-- A run of at least one digit. -/
def Digits (t : Text) : Prop :=
  t ≠ [] ∧ ∀ c ∈ t, c.isDigit = true

/-- The digits before the decimal point: a single zero, or a run that does not start with one. -/
inductive WholePart : Text → Prop
  | zero : WholePart ['0']
  | digits {d : Char} {ds : Text} (hd : d ≠ '0') (h : Digits (d :: ds)) : WholePart (d :: ds)

/-- A fraction, which may be absent. -/
inductive FractionPart : Text → Prop
  | absent : FractionPart []
  | present {ds : Text} (h : Digits ds) : FractionPart ('.' :: ds)

/-- An exponent, which may be absent. -/
inductive ExponentPart : Text → Prop
  | absent : ExponentPart []
  | present {e : Char} {sign ds : Text} (he : e = 'e' ∨ e = 'E')
      (hsign : sign = [] ∨ sign = ['+'] ∨ sign = ['-']) (h : Digits ds) :
      ExponentPart (e :: (sign ++ ds))

/-- The numbers: a sign or none, and the parts in their order. -/
inductive NumberLiteral : Text → Prop
  | mk {sign whole fraction exponent : Text} (hsign : sign = [] ∨ sign = ['-'])
      (hwhole : WholePart whole) (hfraction : FractionPart fraction)
      (hexponent : ExponentPart exponent) :
      NumberLiteral (sign ++ (whole ++ (fraction ++ exponent)))

/-! ### The reader takes every number -/

theorem isDigits_iff {t : Text} : isDigits t = true ↔ Digits t := by
  simp [isDigits, Digits]

theorem ExponentPart.isDigit_head? {t : Text} (h : ExponentPart t) :
    ∀ c, t.head? = some c → c.isDigit = false := by
  rintro c hc
  cases h with
  | absent => contradiction
  | present he =>
    obtain rfl := Option.some.inj hc
    rcases he with rfl | rfl <;> rfl

theorem FractionPart.isDigit_head?_append {s t : Text} (h : FractionPart s) (ht : ExponentPart t) :
    ∀ c, (s ++ t).head? = some c → c.isDigit = false := by
  cases h with
  | absent => exact ht.isDigit_head?
  | present =>
    rintro c hc
    obtain rfl := Option.some.inj hc
    rfl

theorem Digits.dropSign_append {sign ds : Text} (h : Digits ds)
    (hsign : sign = [] ∨ sign = ['+'] ∨ sign = ['-']) : dropSign (sign ++ ds) = ds := by
  rcases hsign with rfl | rfl | rfl
  · cases ds with
    | nil => rfl
    | cons d ds =>
      have hd := h.2 d List.mem_cons_self
      rw [List.nil_append, dropSign]
      all_goals
        rintro t ht
        obtain ⟨rfl, -⟩ := List.cons.inj ht
        contradiction
  · rfl
  · rfl

theorem ExponentPart.isExponent {t : Text} (h : ExponentPart t) : isExponent t = true := by
  cases h with
  | absent => rfl
  | present he hsign h =>
    rw [Json.isExponent, h.dropSign_append hsign, isDigits_iff.mpr h, Bool.and_true]
    simpa using he

theorem FractionPart.isFraction_append {s t : Text} (h : FractionPart s) (ht : ExponentPart t) :
    isFraction (s ++ t) = true := by
  cases h with
  | absent =>
    rw [List.nil_append, isFraction]
    · exact ht.isExponent
    · rintro u rfl
      cases ht with
      | present he => simp at he
  | present h =>
    rw [List.cons_append, isFraction, takeWhile_append_eq h.2 ht.isDigit_head?,
      dropWhile_append_eq h.2 ht.isDigit_head?, isDigits_iff.mpr h, ht.isExponent]
    rfl

theorem WholePart.isUnsigned_append {s t u : Text} (h : WholePart s) (ht : FractionPart t)
    (hu : ExponentPart u) : isUnsigned (s ++ (t ++ u)) = true := by
  cases h with
  | zero => exact ht.isFraction_append hu
  | @digits d ds hd h =>
    obtain ⟨hdigit, hdigits⟩ := List.forall_mem_cons.mp h.2
    rw [List.cons_append, isUnsigned, dropWhile_append_eq hdigits (ht.isDigit_head?_append hu),
      ht.isFraction_append hu, hdigit]
    · rfl
    · exact fun h => hd h

theorem NumberLiteral.isNumber {t : Text} (h : NumberLiteral t) : isNumber t = true := by
  obtain ⟨hsign, hwhole, hfraction, hexponent⟩ := h
  have hunsigned := hwhole.isUnsigned_append hfraction hexponent
  rcases hsign with rfl | rfl
  · rw [List.nil_append, Json.isNumber, hunsigned]
    rintro u hu
    rw [hu] at hunsigned
    simp [isUnsigned, Char.isDigit] at hunsigned
  · exact hunsigned

/-! ### The reader takes nothing else -/

theorem exponentPart_of_isExponent {t : Text} (h : isExponent t = true) : ExponentPart t := by
  cases t with
  | nil => exact .absent
  | cons e t =>
    simp only [isExponent, Bool.and_eq_true, Bool.or_eq_true, decide_eq_true_eq] at h
    obtain ⟨he, hdigits⟩ := h
    unfold dropSign at hdigits
    split at hdigits
    · exact @ExponentPart.present e ['+'] _ he (Or.inr (Or.inl rfl)) (isDigits_iff.mp hdigits)
    · exact @ExponentPart.present e ['-'] _ he (Or.inr (Or.inr rfl)) (isDigits_iff.mp hdigits)
    · exact @ExponentPart.present e [] _ he (Or.inl rfl) (isDigits_iff.mp hdigits)

theorem exists_parts_of_isFraction {t : Text} (h : isFraction t = true) :
    ∃ fraction exponent, t = fraction ++ exponent ∧ FractionPart fraction ∧
      ExponentPart exponent := by
  unfold isFraction at h
  split at h
  · rename_i t
    obtain ⟨hdigits, hexponent⟩ := Bool.and_eq_true_iff.mp h
    refine ⟨'.' :: t.takeWhile Char.isDigit, t.dropWhile Char.isDigit, ?_,
      .present (isDigits_iff.mp hdigits), exponentPart_of_isExponent hexponent⟩
    rw [List.cons_append, List.takeWhile_append_dropWhile]
  · exact ⟨[], t, rfl, .absent, exponentPart_of_isExponent h⟩

theorem exists_parts_of_isUnsigned {t : Text} (h : isUnsigned t = true) :
    ∃ whole fraction exponent, t = whole ++ (fraction ++ exponent) ∧ WholePart whole ∧
      FractionPart fraction ∧ ExponentPart exponent := by
  unfold isUnsigned at h
  split at h
  · contradiction
  · obtain ⟨fraction, exponent, rfl, hfraction, hexponent⟩ := exists_parts_of_isFraction h
    exact ⟨['0'], fraction, exponent, rfl, .zero, hfraction, hexponent⟩
  · rename_i d t hd
    obtain ⟨hdigit, h⟩ := Bool.and_eq_true_iff.mp h
    obtain ⟨fraction, exponent, heq, hfraction, hexponent⟩ := exists_parts_of_isFraction h
    refine ⟨d :: t.takeWhile Char.isDigit, fraction, exponent, ?_, .digits (fun h => hd h)
      ⟨List.cons_ne_nil _ _, List.forall_mem_cons.mpr ⟨hdigit, List.all_eq_true.mp
        List.all_takeWhile⟩⟩, hfraction, hexponent⟩
    rw [← heq, List.cons_append, List.takeWhile_append_dropWhile]

/-- The reader takes the numbers and nothing else. -/
theorem isNumber_iff {t : Text} : isNumber t = true ↔ NumberLiteral t := by
  refine ⟨fun h => ?_, NumberLiteral.isNumber⟩
  unfold isNumber at h
  split at h
  · obtain ⟨whole, fraction, exponent, rfl, hwhole, hfraction, hexponent⟩ :=
      exists_parts_of_isUnsigned h
    exact @NumberLiteral.mk ['-'] _ _ _ (Or.inr rfl) hwhole hfraction hexponent
  · obtain ⟨whole, fraction, exponent, rfl, hwhole, hfraction, hexponent⟩ :=
      exists_parts_of_isUnsigned h
    exact @NumberLiteral.mk [] _ _ _ (Or.inl rfl) hwhole hfraction hexponent

end PipeLint.Json
