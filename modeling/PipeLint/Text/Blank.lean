import PipeLint.Text.Basic

/-!
# Blank, control and stray characters

White space separates the parts of a filter expression. It is the Unicode property `White_Space`,
which is wider than the four characters of `Char.isWhitespace`. Control characters that are not
white space have no meaning anywhere outside quotes; they are called stray.

## Main definitions

* `PipeLint.Unicode.inRanges`: a class of characters given by the ranges of its code points.
* `PipeLint.isBlank`, `PipeLint.isControl`, `PipeLint.isStray`: the classes of characters.
* `PipeLint.Text.Blank`: a text of white space only.
* `PipeLint.Text.trim`: a text without the white space at its ends.
-/

namespace PipeLint

/-- Whether the code point of a character lies in one of the ranges, which have both their ends. -/
def Unicode.inRanges (ranges : List (Nat × Nat)) (c : Char) : Bool :=
  ranges.any fun (low, high) => low ≤ c.toNat && c.toNat ≤ high

/-- The code points with the Unicode property `White_Space`. -/
def blankRanges : List (Nat × Nat) :=
  [
    (0x0009, 0x000D), (0x0020, 0x0020), (0x0085, 0x0085), (0x00A0, 0x00A0), (0x1680, 0x1680),
    (0x2000, 0x200A), (0x2028, 0x2029), (0x202F, 0x202F), (0x205F, 0x205F), (0x3000, 0x3000)
  ]

/-- White space: the characters with the Unicode property `White_Space`. -/
def isBlank (c : Char) : Bool :=
  Unicode.inRanges blankRanges c

/-- Control characters: the Unicode category `Cc`. -/
def isControl (c : Char) : Bool :=
  let n := c.toNat
  n < 0x20 || (0x7F ≤ n && n < 0xA0)

/-- Control characters that are not white space. -/
def isStray (c : Char) : Bool :=
  isControl c && !isBlank c

namespace Text

/-- A text is blank when it holds white space only. -/
def Blank (t : Text) : Prop :=
  ∀ c ∈ t, isBlank c = true

instance (t : Text) : Decidable t.Blank :=
  decidable_of_iff (t.all isBlank = true) List.all_eq_true

/-- A text without the white space at its start. -/
def trimStart (t : Text) : Text :=
  t.dropWhile isBlank

/-- A text without the white space at its end. -/
def trimEnd (t : Text) : Text :=
  (t.reverse.dropWhile isBlank).reverse

/-- A text without the white space at its start and at its end. -/
def trim (t : Text) : Text :=
  trimEnd (trimStart t)

end Text

end PipeLint
