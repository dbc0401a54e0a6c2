import PipeLint.Text.Basic
import PipeLint.Unicode.Combining
import PipeLint.Unicode.Printable

/-!
# Character literals

A character is named in a message between single quotes. What would not be seen there, or would be
drawn over its neighbour, is escaped: by a letter if it has one, and else by its code point.

## Main definitions

* `PipeLint.Text.charLiteral`: a character between single quotes.
-/

namespace PipeLint.Text

/-- A character escaped by its code point in hexadecimal digits. -/
def codePointEscape (c : Char) : Text :=
  "\\u".toList ++ '{' :: Nat.toDigits 16 c.toNat ++ ['}']

/-- A character as it stands between single quotes. -/
def charEscape (c : Char) : Text :=
  match c with
  | '\x00' => ['\\', '0']
  | '\t' => ['\\', 't']
  | '\n' => ['\\', 'n']
  | '\r' => ['\\', 'r']
  | '\'' => ['\\', '\'']
  | '\\' => ['\\', '\\']
  | c =>
    if Unicode.isCombining c || !Unicode.isPrintable c then codePointEscape c else [c]

/-- A character between single quotes. -/
def charLiteral (c : Char) : Text :=
  '\'' :: charEscape c ++ ['\'']

end PipeLint.Text
