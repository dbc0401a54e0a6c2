import PipeLint.Json.Basic

/-!
# JSON strings

A string is written between double quotes. The writer escapes the quote, the backslash and the
characters below the space, with a letter if there is one and by number if not. The reader accepts
every escape of the format, and leaves it to `StringUnit.join?` whether the escapes by number, which
are 16-bit units, make up a text.

## Main definitions

* `PipeLint.Json.escape`, `PipeLint.Json.quote`: a character and a text as the writer puts them.
* `PipeLint.Json.StringUnit.read?`: the units of a string, up to its closing quote.
* `PipeLint.Json.StringUnit.join?`: the text that units spell.
-/

namespace PipeLint.Json

/-! ### Writing -/

/-- A character as it stands in a written string. -/
def escape (c : Char) : Text :=
  match c with
  | '"' => ['\\', '"']
  | '\\' => ['\\', '\\']
  | '\x08' => ['\\', 'b']
  | '\t' => ['\\', 't']
  | '\n' => ['\\', 'n']
  | '\x0c' => ['\\', 'f']
  | '\r' => ['\\', 'r']
  | c =>
    if c.toNat < 0x20 then
      ['\\', 'u', '0', '0', Nat.digitChar (c.toNat / 16), Nat.digitChar (c.toNat % 16)]
    else
      [c]

/-- A text as a written string. -/
def quote (t : Text) : Text :=
  '"' :: t.flatMap escape ++ ['"']

/-! ### Reading -/

/-- The character that an escape with one letter stands for. -/
def escaped? : Char → Option Char
  | '"' => some '"'
  | '\\' => some '\\'
  | '/' => some '/'
  | 'b' => some '\x08'
  | 'f' => some '\x0c'
  | 'n' => some '\n'
  | 'r' => some '\r'
  | 't' => some '\t'
  | _ => none

/-- The value of a hexadecimal digit. -/
def hexValue? (c : Char) : Option Nat :=
  if '0' ≤ c ∧ c ≤ '9' then some (c.toNat - '0'.toNat)
  else if 'a' ≤ c ∧ c ≤ 'f' then some (c.toNat - 'a'.toNat + 10)
  else if 'A' ≤ c ∧ c ≤ 'F' then some (c.toNat - 'A'.toNat + 10)
  else none

/-- The number that four hexadecimal digits spell. -/
def codeUnit? (a b c d : Char) : Option Nat := do
  let a ← hexValue? a
  let b ← hexValue? b
  let c ← hexValue? c
  let d ← hexValue? d
  return ((a * 16 + b) * 16 + c) * 16 + d

/-- A part of a string as it is written: a character, by itself or escaped with one letter, or a
16-bit unit, escaped by number. -/
inductive StringUnit where
  /-- A character. -/
  | char (c : Char)
  /-- A unit escaped by number. -/
  | code (n : Nat)
deriving DecidableEq, Repr

namespace StringUnit

/-- The units of a string after its opening quote, and the text after its closing quote. Characters
below the space have to be escaped. -/
def read? : Text → Option (List StringUnit × Text)
  | [] => none
  | '"' :: rest => some ([], rest)
  | '\\' :: 'u' :: a :: b :: c :: d :: rest =>
    (codeUnit? a b c d).bind fun n =>
      (read? rest).map fun (units, rest) => (.code n :: units, rest)
  | '\\' :: c :: rest =>
    (escaped? c).bind fun c =>
      (read? rest).map fun (units, rest) => (.char c :: units, rest)
  | c :: rest =>
    if c.toNat < 0x20 ∨ c = '\\' then none
    else (read? rest).map fun (units, rest) => (.char c :: units, rest)

theorem length_lt_of_read? {t rest : Text} {units : List StringUnit}
    (h : read? t = some (units, rest)) : rest.length < t.length := by
  fun_induction read? t generalizing units rest with
  | case1 => contradiction
  | case2 =>
    simp only [Option.some.injEq, Prod.mk.injEq] at h
    simp [← h.2]
  | case3 a b c d t ih =>
    obtain ⟨n, -, h⟩ := Option.bind_eq_some_iff.mp h
    obtain ⟨⟨units', rest'⟩, hread, heq⟩ := Option.map_eq_some_iff.mp h
    obtain ⟨-, rfl⟩ := Prod.mk.inj heq
    have := ih hread
    simp only [List.length_cons]
    omega
  | case4 c t _ ih =>
    obtain ⟨e, -, h⟩ := Option.bind_eq_some_iff.mp h
    obtain ⟨⟨units', rest'⟩, hread, heq⟩ := Option.map_eq_some_iff.mp h
    obtain ⟨-, rfl⟩ := Prod.mk.inj heq
    have := ih hread
    simp only [List.length_cons]
    omega
  | case5 => contradiction
  | case6 c t _ _ _ _ ih =>
    obtain ⟨⟨units', rest'⟩, hread, heq⟩ := Option.map_eq_some_iff.mp h
    obtain ⟨-, rfl⟩ := Prod.mk.inj heq
    have := ih hread
    simp only [List.length_cons]
    omega

/-- Whether a unit is the first half of a surrogate pair. -/
def isHighSurrogate (n : Nat) : Bool :=
  0xD800 ≤ n && n < 0xDC00

/-- Whether a unit is the second half of a surrogate pair. -/
def isLowSurrogate (n : Nat) : Bool :=
  0xDC00 ≤ n && n < 0xE000

/-- The character that a surrogate pair stands for. -/
def pairedCharacter (high low : Nat) : Char :=
  Char.ofNat (0x10000 + (high - 0xD800) * 0x400 + (low - 0xDC00))

/-- The text that units spell, if every surrogate among them is half of a pair. -/
def join? : List StringUnit → Option Text
  | [] => some []
  | .char c :: units => (join? units).map (c :: ·)
  | .code n :: units =>
    if n.isValidChar then
      (join? units).map (Char.ofNat n :: ·)
    else
      match units with
      | .code m :: units =>
        if isHighSurrogate n ∧ isLowSurrogate m then
          (join? units).map (pairedCharacter n m :: ·)
        else
          none
      | _ => none

end StringUnit

end PipeLint.Json
