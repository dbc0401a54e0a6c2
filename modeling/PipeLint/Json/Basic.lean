import PipeLint.Text.Basic

/-!
# JSON values

A JSON value as its text gives it. Numbers keep the spelling of their literal, since a reader may
accept only some of the spellings. Objects keep their members in order, repeated names included.
The escapes of a string may spell half of a surrogate pair; such a string is well formed but is no
text.

## Main definitions

* `PipeLint.Json`: a JSON value.
* `PipeLint.Json.toNat?`, `PipeLint.Json.toText?`: the numbers and texts among the values.
* `PipeLint.Json.fields?`: the fields of a record, written as an object or as an array.
-/

namespace PipeLint

/-- A JSON value. -/
inductive Json where
  /-- The value `null`. -/
  | null
  /-- A truth value. -/
  | bool (b : Bool)
  /-- A number, given by its literal. -/
  | number (literal : Text)
  /-- A string, or `none` for one whose escapes spell no text. -/
  | string (text? : Option Text)
  /-- An array. -/
  | array (items : List Json)
  /-- An object, member by member. -/
  | object (members : List (Option Text × Json))
deriving Repr, Inhabited

namespace Json

/-- The number of values of a 64-bit word. -/
def wordLimit : Nat :=
  18446744073709551616

/-- The value of a number that is written with digits only and fits a 64-bit word. -/
def toNat? : Json → Option Nat
  | number literal =>
    if literal.all Char.isDigit ∧ Nat.ofDigitChars 10 literal 0 < wordLimit then
      some (Nat.ofDigitChars 10 literal 0)
    else
      none
  | _ => none

/-- The truth value that a value is. -/
def toBool? : Json → Option Bool
  | bool b => some b
  | _ => none

/-- The text of a string. -/
def toText? : Json → Option Text
  | string text? => text?
  | _ => none

/-- The items of an array. -/
def toList? : Json → Option (List Json)
  | array items => some items
  | _ => none

/-- The value of the only member with a name. -/
def member? (name : Text) (members : List (Option Text × Json)) : Option Json :=
  match members.filter (·.1 = some name) with
  | [(_, value)] => some value
  | _ => none

/-- The fields of a record with the given names, in the order of the names. An object has to have
one member of each name, and the name of every member has to be a text; members with other names
do not matter. An array has to have one item for each name. -/
def fields? (names : List Text) : Json → Option (List Json)
  | object members =>
    if members.all (·.1.isSome) then names.mapM (member? · members) else none
  | array items => if items.length = names.length then some items else none
  | _ => none

end Json

end PipeLint
