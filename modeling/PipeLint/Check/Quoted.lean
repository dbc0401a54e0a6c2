import PipeLint.Finding
import PipeLint.Token.Lexeme

/-!
# Checks on quoted strings

A token that is meant to be a quoted string is checked by its text alone: its first character is
its quote, whatever that is, and it has to end in the same quote, with no backslash that escapes
the closing one. Inside a closed string every backslash has to start an escape.

## Main definitions

* `PipeLint.Text.EndsEscaped`: a text that ends in an odd run of backslashes.
* `PipeLint.Text.interior?`: the text between the quotes of a closed string.
* `PipeLint.Text.invalidEscapes`: the backslashes that start no escape.
* `PipeLint.Token.quotedFindings`: what is wrong with a quoted string.
-/

namespace PipeLint

/-- The characters that a backslash makes an escape of on its own. -/
def isEscapeLetter (c : Char) : Bool :=
  c ∈ ['"', '\'', '\\', 'n', 't', 'r']

/-- The digits of hexadecimal numbers, in either case. -/
def isHexDigit (c : Char) : Bool :=
  ('0' ≤ c && c ≤ '9') || ('A' ≤ c && c ≤ 'F') || ('a' ≤ c && c ≤ 'f')

/-- Whether a backslash before a character makes an escape, given what follows the character: a
single letter will do, and an `x` before a hexadecimal digit. -/
def isEscape (c : Char) (rest : Text) : Bool :=
  isEscapeLetter c || (c = 'x' && rest.head?.any isHexDigit)

namespace Text

/-- The number of backslashes at the end of a text. -/
def trailingBackslashes (t : Text) : Nat :=
  (t.reverse.takeWhile (· = '\\')).length

/-- A text ends escaped when the backslashes at its end do not pair up, so that the last of them
escapes what follows. -/
abbrev EndsEscaped (t : Text) : Prop :=
  t.trailingBackslashes % 2 = 1

/-- The text between the quotes of a string that is closed by the quote it starts with. -/
def interior? : Text → Option Text
  | [] => none
  | quote :: t =>
    if t.getLast? = some quote ∧ ¬ EndsEscaped t.dropLast then some t.dropLast else none

/-- The backslashes of a text that start no escape, each with the character after it, if the text
starts at a byte offset. A backslash always takes the next character with it. -/
def invalidEscapes (offset : Nat) : Text → List Finding
  | [] => []
  | '\\' :: c :: t =>
    let later := invalidEscapes (offset + (1 + c.utf8Size)) t
    if isEscape c t then later else ⟨.invalidEscape, ⟨offset, 1 + c.utf8Size⟩⟩ :: later
  | c :: t => invalidEscapes (offset + c.utf8Size) t

end Text

namespace Token

/-- What is wrong with a token that is meant to be a quoted string. Offsets inside it are counted
from the second byte of the token. -/
def quotedFindings (t : Token) : List Finding :=
  match t.text with
  | [] => []
  | quote :: rest =>
    if t.text.byteLength < 2 then
      [⟨.malformedString, t.span⟩]
    else
      match Text.interior? (quote :: rest) with
      | none => [⟨.openQuote quote, t.span⟩]
      | some interior => interior.invalidEscapes (t.offset + 1)

end Token

end PipeLint
