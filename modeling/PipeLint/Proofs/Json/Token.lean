import Mathlib.Data.List.Chain
import Mathlib.Data.List.TakeWhile
import PipeLint.Json.Token
import PipeLint.Proofs.Json.Quoted

/-!
# Texts that are read as tokens

A text is taken for a token if the reader, wherever it meets the text, finds the token in it and
goes on behind it. A number goes on as long as it can, so its text has to be followed by something
that no number goes on with; all tokens but numbers start in such a way.

## Main definitions

* `PipeLint.Json.EndsNumber`: the texts that no number goes on with.
* `PipeLint.Json.Token.SpelledBy`: the texts that the reader takes for a token.
* `PipeLint.Json.Token.Separated`: rows of tokens without two numbers side by side.

## Main results

* `PipeLint.Json.isNumberCharacter_of_mem`: the characters of a number.
* `PipeLint.Json.Token.spelledBy_number`, `PipeLint.Json.Token.spelledBy_string`,
  `PipeLint.Json.Token.spelledBy_word`: what is taken for a number, a string and a name.
-/

namespace PipeLint.Json

/-! ### The characters of a number -/

theorem isNumberCharacter_of_isDigits {t : Text} (h : isDigits t = true) {c : Char} (hc : c ∈ t) :
    isNumberCharacter c = true := by
  simp only [isDigits, Bool.and_eq_true, List.all_eq_true] at h
  simp [isNumberCharacter, h.2 c hc]

theorem isNumberCharacter_of_isExponent {t : Text} (h : isExponent t = true) {c : Char}
    (hc : c ∈ t) : isNumberCharacter c = true := by
  cases t with
  | nil => contradiction
  | cons e t =>
    simp only [isExponent, Bool.and_eq_true, Bool.or_eq_true, decide_eq_true_eq] at h
    obtain ⟨he, hdigits⟩ := h
    rcases List.mem_cons.mp hc with rfl | hc
    · rcases he with rfl | rfl <;> rfl
    · unfold dropSign at hdigits
      split at hdigits
      case h_1 | h_2 =>
        rcases List.mem_cons.mp hc with rfl | hc
        · rfl
        · exact isNumberCharacter_of_isDigits hdigits hc
      case h_3 => exact isNumberCharacter_of_isDigits hdigits hc

theorem isNumberCharacter_of_isFraction {t : Text} (h : isFraction t = true) {c : Char}
    (hc : c ∈ t) : isNumberCharacter c = true := by
  unfold isFraction at h
  split at h
  · rename_i t
    obtain ⟨hdigits, hexponent⟩ := Bool.and_eq_true_iff.mp h
    rw [← List.takeWhile_append_dropWhile (p := Char.isDigit) (l := t)] at hc
    rcases List.mem_cons.mp hc with rfl | hc
    · rfl
    · rcases List.mem_append.mp hc with hc | hc
      · exact isNumberCharacter_of_isDigits hdigits hc
      · exact isNumberCharacter_of_isExponent hexponent hc
  · exact isNumberCharacter_of_isExponent h hc

theorem isNumberCharacter_of_isUnsigned {t : Text} (h : isUnsigned t = true) {c : Char}
    (hc : c ∈ t) : isNumberCharacter c = true := by
  unfold isUnsigned at h
  split at h
  · contradiction
  · rcases List.mem_cons.mp hc with rfl | hc
    · rfl
    · exact isNumberCharacter_of_isFraction h hc
  · rename_i d t _
    obtain ⟨hd, hfraction⟩ := Bool.and_eq_true_iff.mp h
    rw [← List.takeWhile_append_dropWhile (p := Char.isDigit) (l := t)] at hc
    rcases List.mem_cons.mp hc with rfl | hc
    · simp [isNumberCharacter, hd]
    · rcases List.mem_append.mp hc with hc | hc
      · simp [isNumberCharacter, List.mem_takeWhile_imp hc]
      · exact isNumberCharacter_of_isFraction hfraction hc

/-- A number is made of the characters that can stand in numbers. -/
theorem isNumberCharacter_of_mem {t : Text} (h : isNumber t = true) {c : Char} (hc : c ∈ t) :
    isNumberCharacter c = true := by
  unfold isNumber at h
  split at h
  · rcases List.mem_cons.mp hc with rfl | hc
    · rfl
    · exact isNumberCharacter_of_isUnsigned h hc
  · exact isNumberCharacter_of_isUnsigned h hc

/-! ### Decimal numerals -/

theorem head?_decimal_ne {n : Nat} (hn : 0 < n) : (Text.decimal n).head? ≠ some '0' := by
  induction n using Nat.strongRecOn with
  | ind n ih =>
    unfold Text.decimal at ih ⊢
    rw [Nat.toDigits_eq_if (by decide)]
    split
    · rename_i hsmall
      have hdigit : ∀ n < 10, 0 < n → [Nat.digitChar n].head? ≠ some '0' := by decide
      exact hdigit n hsmall hn
    · rename_i hlarge
      have hdiv : 0 < n / 10 := Nat.div_pos (Nat.not_lt.mp hlarge) (by decide)
      rw [List.head?_append_of_ne_nil _ Nat.toDigits_ne_nil]
      exact ih (n / 10) (Nat.div_lt_self hn (by decide)) hdiv

theorem isDigit_of_mem_decimal {n : Nat} {c : Char} (hc : c ∈ Text.decimal n) :
    c.isDigit = true :=
  Nat.isDigit_of_mem_toDigits (by decide) (by decide) hc

/-- A decimal numeral is a number: it starts with a zero only if it is nothing else. -/
theorem isNumber_decimal (n : Nat) : isNumber (Text.decimal n) = true := by
  rcases Nat.eq_zero_or_pos n with rfl | hn
  · rfl
  · have hzero := head?_decimal_ne hn
    have hdigits : ∀ c ∈ Text.decimal n, c.isDigit = true := fun c => isDigit_of_mem_decimal
    match hnumeral : Text.decimal n with
    | [] => exact absurd hnumeral Nat.toDigits_ne_nil
    | c :: t =>
      rw [hnumeral] at hzero hdigits
      obtain ⟨hc, ht⟩ := List.forall_mem_cons.mp hdigits
      have hsign : c ≠ '-' := by
        rintro rfl
        contradiction
      have hfirst : c ≠ '0' := fun h => hzero (congrArg some h)
      rw [isNumber, isUnsigned, List.dropWhile_eq_nil_iff.mpr ht, hc]
      · rfl
      · simpa using hfirst
      · simp [hsign]

/-! ### What follows a number -/

/-- No number goes on with a text: it is empty or starts with a character that cannot stand in
numbers. -/
def EndsNumber (t : Text) : Prop :=
  ∀ c ∈ t.head?, isNumberCharacter c = false

namespace Token

/-- Whether a token is a number. -/
def isNumber : Token → Bool
  | number _ => true
  | _ => false

/-- A token is well formed if the literal of a number is one. -/
def WellFormed : Token → Prop
  | number literal => Json.isNumber literal = true
  | _ => True

/-- The reader takes a text for a token. -/
structure SpelledBy (token : Token) (t : Text) : Prop where
  /-- Before whatever follows, unless a number goes on with it, the token is read from the text. -/
  ofText?_append : ∀ rest, (token.isNumber = true → EndsNumber rest) →
    ofText? (t ++ rest) = (ofText? rest).map (token :: ·)
  /-- No number before it goes on with the text, unless the token is a number itself. -/
  endsNumber_append : ∀ rest, token.isNumber = false → EndsNumber (t ++ rest)

theorem isSpace_of_isNumberCharacter {c : Char} (h : isNumberCharacter c = true) :
    isSpace c = false := by
  refine Bool.eq_false_iff.mpr fun hspace => ?_
  simp only [isSpace, List.mem_cons, List.not_mem_nil, or_false, decide_eq_true_eq] at hspace
  rcases hspace with rfl | rfl | rfl | rfl <;> contradiction

theorem first?_of_isNumberCharacter {c : Char} (h : isNumberCharacter c = true) (t : Text) :
    first? c t = number? (c :: t) := by
  unfold first?
  split
  all_goals first | rfl | exact absurd h (by decide)

/-- A literal spells the number that it is. -/
theorem spelledBy_number {literal : Text} (h : Json.isNumber literal = true) :
    (number literal).SpelledBy literal where
  ofText?_append rest hrest := by
    have hchars : ∀ c ∈ literal, isNumberCharacter c = true := fun c => isNumberCharacter_of_mem h
    have hstop : rest.takeWhile isNumberCharacter = [] ∧
        rest.dropWhile isNumberCharacter = rest := by
      cases rest with
      | nil => exact ⟨rfl, rfl⟩
      | cons c rest => simp [hrest rfl c rfl]
    have hread : number? (literal ++ rest) = some (number literal, rest) := by
      rw [number?, List.takeWhile_append_of_pos hchars, List.dropWhile_append_of_pos hchars,
        hstop.1, hstop.2, List.append_nil, if_pos h]
    cases literal with
    | nil => contradiction
    | cons c literal =>
      have hc := hchars c List.mem_cons_self
      rw [List.cons_append, ofText?_cons_of_first? (isSpace_of_isNumberCharacter hc)]
      rw [first?_of_isNumberCharacter hc]
      exact hread
  endsNumber_append rest hfalse := by contradiction

/-- A token other than a number is spelled by a text whose first character leads to it. -/
theorem spelledBy_cons {token : Token} {c : Char} {t : Text} (hspace : isSpace c = false)
    (hc : isNumberCharacter c = false)
    (h : ∀ rest, first? c (t ++ rest) = some (token, rest)) : token.SpelledBy (c :: t) where
  ofText?_append rest _ := ofText?_cons_of_first? hspace (h rest)
  endsNumber_append rest _ := by
    simp [EndsNumber, hc]

/-- A string is spelled by a row of spellings between quotes. -/
theorem spelledBy_string {spellings : List Text} {t : Text}
    (h : List.Forall₂ Spells spellings t) :
    (string (some t)).SpelledBy ('"' :: (spellings.flatten ++ ['"'])) := by
  refine spelledBy_cons rfl rfl fun rest => ?_
  obtain ⟨units, hread, hjoin⟩ := StringUnit.read?_flatten h rest
  rw [List.append_assoc, List.singleton_append, first?, hread, ← hjoin]
  rfl

theorem after?_append (word rest : Text) : after? word (word ++ rest) = some rest := by
  simp [after?]

/-- A name is spelled by the word that it is. -/
theorem spelledBy_word {token : Token} {c : Char} {word t : Text} (ht : t = c :: word)
    (hspace : isSpace c = false) (hc : isNumberCharacter c = false)
    (h : ∀ rest, first? c rest = (after? word rest).map fun rest => (token, rest)) :
    token.SpelledBy t := by
  rw [ht]
  refine spelledBy_cons hspace hc fun rest => ?_
  rw [h, after?_append]
  rfl

theorem lineFeed_notMem_text {token : Token} (h : token.WellFormed) : '\n' ∉ token.text := by
  cases token with
  | openBrace | closeBrace | openBracket | closeBracket | comma | colon | null => decide
  | bool b => cases b <;> decide
  | number literal => exact fun hmem => absurd (isNumberCharacter_of_mem h hmem) (by decide)
  | string text? =>
    cases text? with
    | none => decide
    | some t => exact lineFeed_notMem_quote t

/-- There are no two numbers side by side in a row of tokens. -/
def Separated (tokens : List Token) : Prop :=
  tokens.IsChain fun a b => a.isNumber = true → b.isNumber = false

end Token

end PipeLint.Json
