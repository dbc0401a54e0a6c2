import PipeLint.Json.Token

/-!
# Reading JSON values

A text is read token by token. Between two tokens the reader is in a `State`: it knows which
containers are open and what may come next. A text is a JSON value if the reader takes all of its
tokens and ends with a value and no open container.

## Main definitions

* `PipeLint.Json.Frame`: an open container with what has been read of it.
* `PipeLint.Json.State`, `PipeLint.Json.State.step`: the reader and what one token does to it.
* `PipeLint.Json.parse?`: the value that a text spells.
-/

namespace PipeLint.Json

/-- An open container: what has been read of it, the latest first. -/
inductive Frame where
  /-- An array that waits for its next item. -/
  | array (items : List Json)
  /-- An object that waits for the value of the member with the given name. -/
  | object (members : List (Option Text × Json)) (name? : Option Text)

/-- What the reader waits for, inside the containers that are open, the innermost first. -/
inductive State where
  /-- A value. -/
  | value (frames : List Frame)
  /-- The first item of an array, or its end. -/
  | firstItem (frames : List Frame)
  /-- The first name in an object, or the end of the object. -/
  | firstName (frames : List Frame)
  /-- The next name in an object. -/
  | name (frames : List Frame) (members : List (Option Text × Json))
  /-- The colon after a name. -/
  | colon (frames : List Frame) (members : List (Option Text × Json)) (name? : Option Text)
  /-- What follows a value that is complete. -/
  | after (frames : List Frame) (value : Json)

namespace State

/-- The reader at a place where a value starts. -/
def startValue (frames : List Frame) : Token → Option State
  | .openBrace => some (firstName frames)
  | .openBracket => some (firstItem frames)
  | .null => some (after frames .null)
  | .bool b => some (after frames (.bool b))
  | .number literal => some (after frames (.number literal))
  | .string text? => some (after frames (.string text?))
  | _ => none

/-- The reader after one more token, unless the token cannot stand there. -/
def step : State → Token → Option State
  | value frames, token => startValue frames token
  | firstItem frames, .closeBracket => some (after frames (.array []))
  | firstItem frames, token => startValue (.array [] :: frames) token
  | firstName frames, .closeBrace => some (after frames (.object []))
  | firstName frames, .string name? => some (colon frames [] name?)
  | name frames members, .string name? => some (colon frames members name?)
  | colon frames members name?, .colon => some (value (.object members name? :: frames))
  | after (.array items :: frames) v, .comma => some (value (.array (v :: items) :: frames))
  | after (.array items :: frames) v, .closeBracket =>
    some (after frames (.array (v :: items).reverse))
  | after (.object members name? :: frames) v, .comma =>
    some (name frames ((name?, v) :: members))
  | after (.object members name? :: frames) v, .closeBrace =>
    some (after frames (.object ((name?, v) :: members).reverse))
  | _, _ => none

/-- The value that has been read, if it is complete. -/
def result? : State → Option Json
  | after [] v => some v
  | _ => none

end State

/-- The value that a row of tokens spells. -/
def ofTokens? (tokens : List Token) : Option Json :=
  (tokens.foldlM State.step (.value [])).bind State.result?

/-- The value that a text spells. -/
def parse? (t : Text) : Option Json :=
  (Token.ofText? t).bind ofTokens?

end PipeLint.Json
