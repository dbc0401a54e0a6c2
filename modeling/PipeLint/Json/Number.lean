import PipeLint.Json.Basic

/-!
# JSON numbers

A number is an optional minus sign, an integer without leading zeros, and optionally a fraction and
an exponent.

## Main definitions

* `PipeLint.Json.isNumber`: the texts that are numbers.
* `PipeLint.Json.isNumberCharacter`: the characters that numbers are made of.
-/

namespace PipeLint.Json

/-- Whether a text is a run of at least one digit. -/
def isDigits (t : Text) : Bool :=
  !t.isEmpty && t.all Char.isDigit

/-- A text without the sign in front of it, if there is one. -/
def dropSign : Text → Text
  | '+' :: t => t
  | '-' :: t => t
  | t => t

/-- Whether a text is an exponent or empty. -/
def isExponent : Text → Bool
  | [] => true
  | c :: t => (c = 'e' || c = 'E') && isDigits (dropSign t)

/-- Whether a text is a fraction or empty, with an exponent or nothing after it. -/
def isFraction : Text → Bool
  | '.' :: t => isDigits (t.takeWhile Char.isDigit) && isExponent (t.dropWhile Char.isDigit)
  | t => isExponent t

/-- Whether a text is a number without a sign. -/
def isUnsigned : Text → Bool
  | [] => false
  | '0' :: t => isFraction t
  | c :: t => c.isDigit && isFraction (t.dropWhile Char.isDigit)

/-- Whether a text is a number. -/
def isNumber : Text → Bool
  | '-' :: t => isUnsigned t
  | t => isUnsigned t

/-- Whether a character can stand in a number. -/
def isNumberCharacter (c : Char) : Bool :=
  c.isDigit || c ∈ ['+', '-', '.', 'e', 'E']

end PipeLint.Json
