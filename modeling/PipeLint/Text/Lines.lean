import PipeLint.Text.Basic

/-!
# Lines

Each line of an input is an expression. A line ends with a line feed, and a carriage return right
before the line feed belongs to the line ending. What follows the last line feed is a line only if
there is something; a carriage return at its end stays.

Lines are cut from texts and from bytes. A line feed is a single byte in UTF-8 and a part of no
other character, so a stream of bytes can be cut before it is decoded.

## Main definitions

* `PipeLint.pieces`: a list cut behind each of its separators.
* `PipeLint.Text.lines`: the lines of a text.
* `PipeLint.decodeUtf8?`, `PipeLint.decodeLines?`: the text and the lines that bytes encode.

## Main results

* `PipeLint.flatten_pieces`: nothing is lost when a list is cut.
* `PipeLint.decodeUtf8?_encode`: decoding undoes encoding.
-/

namespace PipeLint

/-! ### Cutting behind separators -/

/-- Cuts a list behind each of its separators. What follows the last separator is a piece of its
own unless it is empty. -/
def pieces {α : Type} (isSeparator : α → Bool) : List α → List (List α)
  | [] => []
  | a :: l =>
    if isSeparator a then
      [a] :: pieces isSeparator l
    else
      match pieces isSeparator l with
      | [] => [[a]]
      | piece :: others => (a :: piece) :: others

/-- The pieces of a list make up the list. -/
theorem flatten_pieces {α : Type} (isSeparator : α → Bool) (l : List α) :
    (pieces isSeparator l).flatten = l := by
  fun_induction pieces isSeparator l <;> simp_all

/-! ### Lines of a text -/

namespace Text

/-- A line without its line ending. -/
def chomp (line : Text) : Text :=
  if line.getLast? = some '\n' then
    if line.dropLast.getLast? = some '\r' then line.dropLast.dropLast else line.dropLast
  else
    line

/-- The lines of a text, without their line endings. -/
def lines (t : Text) : List Text :=
  (pieces (· = '\n') t).map chomp

end Text

/-! ### Lines of a stream of bytes -/

/-- The text that bytes encode, if they are valid UTF-8. -/
def decodeUtf8? (bytes : List UInt8) : Option Text :=
  (ByteArray.mk bytes.toArray).utf8Decode?.map Array.toList

/-- Decoding undoes encoding. -/
theorem decodeUtf8?_encode (t : Text) : decodeUtf8? t.utf8Encode.data.toList = some t := by
  have hbytes : ByteArray.mk t.utf8Encode.data = t.utf8Encode := rfl
  simp [decodeUtf8?, hbytes]

/-- The lines that bytes encode, each decoded on its own, unless one of them is not valid. -/
def decodeLines? (bytes : List UInt8) : Option (List Text) :=
  (pieces (· = '\n'.toUInt8) bytes).mapM fun piece => (decodeUtf8? piece).map Text.chomp

end PipeLint
