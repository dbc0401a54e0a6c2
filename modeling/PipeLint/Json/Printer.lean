import PipeLint.Json.Token

/-!
# Writing JSON values

A value is written without white space: its tokens, one after the other.

## Main definitions

* `PipeLint.Json.tokens`: the tokens of a value.
* `PipeLint.Json.compact`: the text of a value.
-/

namespace PipeLint.Json

mutual

/-- The tokens of a value. -/
def tokens : Json → List Token
  | null => [.null]
  | bool b => [.bool b]
  | number literal => [.number literal]
  | string text? => [.string text?]
  | array items => .openBracket :: itemTokens items ++ [.closeBracket]
  | object members => .openBrace :: memberTokens members ++ [.closeBrace]

/-- The tokens of the items of an array. -/
def itemTokens : List Json → List Token
  | [] => []
  | v :: items => v.tokens ++ laterItemTokens items

/-- The tokens of the items after the first, with a comma before each. -/
def laterItemTokens : List Json → List Token
  | [] => []
  | v :: items => .comma :: v.tokens ++ laterItemTokens items

/-- The tokens of the members of an object. -/
def memberTokens : List (Option Text × Json) → List Token
  | [] => []
  | (name?, v) :: members => .string name? :: .colon :: v.tokens ++ laterMemberTokens members

/-- The tokens of the members after the first, with a comma before each. -/
def laterMemberTokens : List (Option Text × Json) → List Token
  | [] => []
  | (name?, v) :: members =>
    .comma :: .string name? :: .colon :: v.tokens ++ laterMemberTokens members

end

/-- The text of a value, without white space. -/
def compact (v : Json) : Text :=
  v.tokens.flatMap Token.text

end PipeLint.Json
