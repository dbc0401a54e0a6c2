import PipeLint.Json.Number
import PipeLint.Json.Quoted

/-!
# JSON tokens

The text of a JSON value is a row of tokens with white space between them. A token knows how it is
written, and the tokens of a text are what it is read as.

## Main definitions

* `PipeLint.Json.Token`: punctuation, the literal names, numbers and strings.
* `PipeLint.Json.Token.text`: a token as the writer puts it.
* `PipeLint.Json.Token.ofText?`: the tokens of a text.
-/

namespace PipeLint.Json

/-- A token of a JSON text. -/
inductive Token where
  /-- The start of an object. -/
  | openBrace
  /-- The end of an object. -/
  | closeBrace
  /-- The start of an array. -/
  | openBracket
  /-- The end of an array. -/
  | closeBracket
  /-- What separates two items or members. -/
  | comma
  /-- What separates the name of a member from its value. -/
  | colon
  /-- The name `null`. -/
  | null
  /-- One of the names `true` and `false`. -/
  | bool (b : Bool)
  /-- A number, given by its literal. -/
  | number (literal : Text)
  /-- A string, or `none` for one whose escapes spell no text. -/
  | string (text? : Option Text)
deriving DecidableEq, Repr

/-- Whether a character is white space between tokens. -/
def isSpace (c : Char) : Bool :=
  c ∈ [' ', '\t', '\n', '\r']

namespace Token

/-- A token as the writer puts it. A string that is no text is written as a surrogate that has no
other half. -/
def text : Token → Text
  | openBrace => ['{']
  | closeBrace => ['}']
  | openBracket => ['[']
  | closeBracket => [']']
  | comma => [',']
  | colon => [':']
  | null => "null".toList
  | bool true => "true".toList
  | bool false => "false".toList
  | number literal => literal
  | string (some t) => quote t
  | string none => "\"\\ud800\"".toList

/-- What follows a word at the start of a text, if the text starts with the word. -/
def after? (word t : Text) : Option Text :=
  if t.take word.length = word then some (t.drop word.length) else none

/-- The number at the start of a text, which goes on as long as there are characters that can stand
in a number, and what follows it. -/
def number? (t : Text) : Option (Token × Text) :=
  if isNumber (t.takeWhile isNumberCharacter) then
    some (number (t.takeWhile isNumberCharacter), t.dropWhile isNumberCharacter)
  else
    none

/-- The token at the start of a text that does not start with white space, and what follows it. -/
def first? (c : Char) (t : Text) : Option (Token × Text) :=
  match c with
  | '{' => some (openBrace, t)
  | '}' => some (closeBrace, t)
  | '[' => some (openBracket, t)
  | ']' => some (closeBracket, t)
  | ',' => some (comma, t)
  | ':' => some (colon, t)
  | 'n' => (after? "ull".toList t).map fun rest => (null, rest)
  | 't' => (after? "rue".toList t).map fun rest => (bool true, rest)
  | 'f' => (after? "alse".toList t).map fun rest => (bool false, rest)
  | '"' =>
    (StringUnit.read? t).map fun (units, rest) => (string (StringUnit.join? units), rest)
  | c => number? (c :: t)

theorem length_le_of_after? {word t rest : Text} (h : after? word t = some rest) :
    rest.length ≤ t.length := by
  unfold after? at h
  split at h
  · obtain rfl := Option.some.inj h
    simp
  · contradiction

theorem length_le_of_first? {c : Char} {t rest : Text} {token : Token}
    (h : first? c t = some (token, rest)) : rest.length ≤ t.length := by
  unfold first? at h
  split at h
  iterate 6
    · simp_all
  iterate 3
    · obtain ⟨rest', hrest, heq⟩ := Option.map_eq_some_iff.mp h
      obtain ⟨-, rfl⟩ := Prod.mk.inj heq
      exact length_le_of_after? hrest
  · obtain ⟨⟨units, rest'⟩, hread, heq⟩ := Option.map_eq_some_iff.mp h
    obtain ⟨-, rfl⟩ := Prod.mk.inj heq
    exact Nat.le_of_lt (StringUnit.length_lt_of_read? hread)
  · unfold number? at h
    split at h
    · rename_i hnumber
      obtain ⟨-, rfl⟩ := Prod.mk.inj (Option.some.inj h)
      -- a literal is not empty, so the first character belongs to it
      cases hc : isNumberCharacter c with
      | true => simpa [hc] using (List.dropWhile_suffix isNumberCharacter).length_le
      | false => simp [hc, isNumber, isUnsigned] at hnumber
    · contradiction

/-- The tokens of a text, unless something in it is no token. -/
def ofText? (t : Text) : Option (List Token) :=
  match t with
  | [] => some []
  | c :: t =>
    if isSpace c then
      ofText? t
    else
      match _h : first? c t with
      | none => none
      | some (token, rest) => (ofText? rest).map (token :: ·)
termination_by t.length
decreasing_by
  · simp
  · have := length_le_of_first? _h
    simp only [List.length_cons]
    omega

@[simp]
theorem ofText?_nil : ofText? [] = some [] := by
  rw [ofText?]

theorem ofText?_cons_of_isSpace {c : Char} (hc : isSpace c = true) (t : Text) :
    ofText? (c :: t) = ofText? t := by
  rw [ofText?, ite_cond_eq_true _ _ (eq_true hc)]

theorem ofText?_cons_of_first? {c : Char} {t rest : Text} {token : Token}
    (hc : isSpace c = false) (h : first? c t = some (token, rest)) :
    ofText? (c :: t) = (ofText? rest).map (token :: ·) := by
  rw [ofText?, ite_cond_eq_false _ _ (by simp [hc])]
  split
  · simp_all
  · simp_all

end Token

end PipeLint.Json
