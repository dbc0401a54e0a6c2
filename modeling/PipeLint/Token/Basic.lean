import PipeLint.Span
import PipeLint.Text.Basic

/-!
# Tokens

The parts of a stage: command names, groups of flags, quoted strings, bare words and stray
characters. A token records the text it was cut from and where it stood; nothing forces the text
to fit the kind.

## Main definitions

* `PipeLint.Token`: a part of a stage, with `Token.span`.
* `PipeLint.Token.isPattern`: the tokens that can be searched for.
* `PipeLint.Token.flagLetters`: the letters of a group of flags.
-/

namespace PipeLint

/-- What a token is. -/
inductive Token.Kind where
  /-- The name of a search command. -/
  | command
  /-- A group of flags: a dash and letters. -/
  | flags
  /-- A quoted string. -/
  | quoted
  /-- A word without quotes around it. -/
  | word
  /-- A control character that starts no other token. -/
  | stray
deriving DecidableEq, Repr

/-- A part of a stage. -/
@[ext]
structure Token where
  /-- What the token is. -/
  kind : Token.Kind
  /-- The text of the token, quotes and dashes included. -/
  text : Text
  /-- The byte offset at which the text starts. -/
  offset : Nat
deriving DecidableEq, Repr

namespace Token

/-- The bytes that the token covers. -/
def span (t : Token) : Span :=
  ⟨t.offset, t.text.byteLength⟩

/-- Whether the token is something to search for. -/
def isPattern (t : Token) : Bool :=
  t.kind = .word || t.kind = .quoted

/-- The letters of a flag group: its text without the dash in front. Other tokens have none. -/
def flagLetters (t : Token) : Text :=
  match t.kind, t.text with
  | .flags, '-' :: letters => letters
  | .flags, letters => letters
  | _, _ => []

/-- The token moved to the right by a number of bytes. -/
def shift (t : Token) (distance : Nat) : Token :=
  { t with offset := t.offset + distance }

end Token

end PipeLint
