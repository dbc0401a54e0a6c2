import PipeLint.Text.Blank
import PipeLint.Token.Basic

/-!
# The tokens of a text

White space separates tokens and is skipped. What starts a token decides what it is: a quote a
quoted string, a dash before a letter or digit a group of flags, a stray character a token of its
own. Anything else starts a word, which goes on to the next white space or stray character; a word
that names a command is a command if white space or the end of the text follows it.

## Main definitions

* `PipeLint.Lexeme.first`: the token at the start of a text, and what follows it.
* `PipeLint.Text.tokens`: all tokens of a text, with their byte offsets.

## Main results

* `PipeLint.Lexeme.text_append_rest_first`: a lexeme and what follows it are the whole text.
* `PipeLint.Text.tokensFrom_add`: the offset of the text is added to the offset of every token.
-/

namespace PipeLint

/-! ### Classes of characters -/

/-- The characters that open a quoted string. -/
def isQuote (c : Char) : Bool :=
  c = '"' || c = '\''

/-- ASCII letters and digits, which make up a group of flags. -/
def isFlagLetter (c : Char) : Bool :=
  ('0' ≤ c && c ≤ '9') || ('A' ≤ c && c ≤ 'Z') || ('a' ≤ c && c ≤ 'z')

/-- The characters that a word can hold: all but white space and stray characters. -/
def isWordCharacter (c : Char) : Bool :=
  !isBlank c && !isStray c

/-- The words that name a search command. -/
def commandNames : List Text :=
  ["egrep".toList, "grep".toList]

/-! ### The first token -/

/-- Splits the text after an opening quote behind the quote that closes it, or at its end if
nothing does. A backslash and the character after it never close a string. -/
def quotedSpan (quote : Char) : Text → Text × Text
  | [] => ([], [])
  | '\\' :: c :: t =>
    let (body, rest) := quotedSpan quote t
    ('\\' :: c :: body, rest)
  | c :: t =>
    if c = quote then
      ([c], t)
    else
      let (body, rest) := quotedSpan quote t
      (c :: body, rest)

theorem quotedSpan_append (quote : Char) (t : Text) :
    (quotedSpan quote t).1 ++ (quotedSpan quote t).2 = t := by
  fun_induction quotedSpan quote t <;> simp_all

/-- A piece of text read as a token, and the text that follows it. -/
structure Lexeme where
  /-- What the piece is read as. -/
  kind : Token.Kind
  /-- The piece of text. -/
  text : Text
  /-- What follows the piece. -/
  rest : Text
deriving DecidableEq, Repr

namespace Lexeme

/-- The quoted string that starts with an opening quote. -/
def quoted (quote : Char) (t : Text) : Lexeme :=
  let (body, rest) := quotedSpan quote t
  ⟨.quoted, quote :: body, rest⟩

/-- The group of flags that starts with a dash. -/
def flags (t : Text) : Lexeme :=
  ⟨.flags, '-' :: t.takeWhile isFlagLetter, t.dropWhile isFlagLetter⟩

/-- The word that starts with a character. A word that names a command is a command unless a
stray character follows it. -/
def word (c : Char) (t : Text) : Lexeme :=
  let text := c :: t.takeWhile isWordCharacter
  let rest := t.dropWhile isWordCharacter
  ⟨if text ∈ commandNames ∧ rest.head?.all isBlank then .command else .word, text, rest⟩

/-- The token at the start of a text that does not start with white space. -/
def first (c : Char) (t : Text) : Lexeme :=
  if isQuote c then
    quoted c t
  else if c = '-' ∧ t.head?.any isFlagLetter then
    flags t
  else if isStray c then
    ⟨.stray, [c], t⟩
  else
    word c t

theorem text_first_ne_nil (c : Char) (t : Text) : (first c t).text ≠ [] := by
  unfold first
  split
  · simp [quoted]
  split
  · simp [flags]
  split <;> simp [word]

/-- A lexeme and what follows it are the whole text. -/
theorem text_append_rest_first (c : Char) (t : Text) :
    (first c t).text ++ (first c t).rest = c :: t := by
  unfold first
  split
  · simp [quoted, quotedSpan_append]
  split
  · rename_i h
    simp [flags, h.1]
  split <;> simp [word]

theorem length_rest_first_le (c : Char) (t : Text) : (first c t).rest.length ≤ t.length := by
  have hsplit := congrArg List.length (text_append_rest_first c t)
  have hpos := List.length_pos_iff.mpr (text_first_ne_nil c t)
  simp only [List.length_append, List.length_cons] at hsplit
  omega

end Lexeme

/-! ### All tokens -/

namespace Text

/-- The tokens of a text that itself starts at a byte offset. -/
def tokensFrom (offset : Nat) (t : Text) : List Token :=
  match t with
  | [] => []
  | c :: t =>
    if isBlank c then
      tokensFrom (offset + c.utf8Size) t
    else
      let lexeme := Lexeme.first c t
      ⟨lexeme.kind, lexeme.text, offset⟩ ::
        tokensFrom (offset + byteLength lexeme.text) lexeme.rest
termination_by t.length
decreasing_by
  · simp
  · have := Lexeme.length_rest_first_le c t
    simp only [List.length_cons]
    omega

/-- The tokens of a text. -/
def tokens (t : Text) : List Token :=
  tokensFrom 0 t

@[simp]
theorem tokensFrom_nil (offset : Nat) : tokensFrom offset [] = [] := by
  rw [tokensFrom]

theorem tokensFrom_cons_of_isBlank {c : Char} (hc : isBlank c = true) (offset : Nat) (t : Text) :
    tokensFrom offset (c :: t) = tokensFrom (offset + c.utf8Size) t := by
  rw [tokensFrom.eq_2, ite_cond_eq_true _ _ (eq_true hc)]

theorem tokensFrom_cons_of_not_isBlank {c : Char} (hc : isBlank c = false) (offset : Nat)
    (t : Text) :
    tokensFrom offset (c :: t) =
      ⟨(Lexeme.first c t).kind, (Lexeme.first c t).text, offset⟩ ::
        tokensFrom (offset + byteLength (Lexeme.first c t).text) (Lexeme.first c t).rest := by
  rw [tokensFrom.eq_2]
  simp only [hc, Bool.false_eq_true, if_false]

/-- The offset of the text is added to the offset of every token. -/
theorem tokensFrom_add (distance offset : Nat) (t : Text) :
    tokensFrom (distance + offset) t = (tokensFrom offset t).map (·.shift distance) := by
  fun_induction tokensFrom offset t with
  | case1 => simp
  | case2 offset c t hc ih =>
    rw [tokensFrom_cons_of_isBlank hc, Nat.add_assoc, ih]
  | case3 offset c t hc lexeme ih =>
    rw [tokensFrom_cons_of_not_isBlank (by simpa using hc), Nat.add_assoc, ih]
    simp [Token.shift, Nat.add_comm, lexeme]

theorem tokensFrom_eq_map_shift (offset : Nat) (t : Text) :
    tokensFrom offset t = (tokens t).map (·.shift offset) :=
  tokensFrom_add offset 0 t

end Text

end PipeLint
