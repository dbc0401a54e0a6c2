import PipeLint.Proofs.Json.Number
import PipeLint.Proofs.Json.Parser

/-!
# The spellings of a JSON value

The format leaves its writers a choice in two places: a character of a string can be escaped in
several ways, and white space can stand around the tokens. Both are described here by the texts
themselves, without the reader. The reader takes every spelling of a value for this value, also
strings whose escapes spell half of a surrogate pair.

## Main definitions

* `PipeLint.Json.StringLiteral`: the strings that spell a text, and those that spell none.
* `PipeLint.Json.Token.Spelling`, `PipeLint.Json.RowSpelling`: how a token and a row of tokens are
  spelled.
* `PipeLint.Json.SpelledAs`: the texts that spell a value.

## Main results

* `PipeLint.Json.ofText?_of_rowSpelling`: the tokens of a spelled row.
* `PipeLint.Json.parse?_of_spelledAs`: a spelled value is read as this value.
* `PipeLint.Json.spelledAs_compact`: the written text of a value is one of its spellings, also with
  white space around it.
* `PipeLint.Json.parse?_compact`: a written value is read as this value.
-/

namespace PipeLint.Json

open StringUnit

/-! ### Rows of units -/

/-- Spelled units that make up a text are spellings of its characters. -/
theorem exists_charSpelling_of_join? {units : List StringUnit} {texts : List Text}
    (h : List.Forall₂ UnitSpelling units texts) {t : Text} (ht : join? units = some t) :
    ∃ spellings, List.Forall₂ CharSpelling t spellings ∧ spellings.flatten = texts.flatten := by
  fun_induction join? units generalizing texts t with
  | case1 =>
    obtain rfl := Option.some.inj ht
    cases h
    exact ⟨[], .nil, rfl⟩
  | case2 c units ih =>
    obtain ⟨u, hu, rfl⟩ := Option.map_eq_some_iff.mp ht
    obtain - | ⟨hs, h⟩ := h
    obtain ⟨spellings, hspellings, heq⟩ := ih h hu
    exact ⟨_ :: spellings, .cons (.char hs) hspellings, congrArg (_ ++ ·) heq⟩
  | case3 n units hvalid ih =>
    obtain ⟨u, hu, rfl⟩ := Option.map_eq_some_iff.mp ht
    obtain - | ⟨hs, h⟩ := h
    obtain ⟨spellings, hspellings, heq⟩ := ih h hu
    have hn := toNat_ofNat_of_isValidChar hvalid
    exact ⟨_ :: spellings, .cons (.code (hn ▸ hs)) hspellings, congrArg (_ ++ ·) heq⟩
  | case4 n hinvalid m units hpair ih =>
    obtain ⟨u, hu, rfl⟩ := Option.map_eq_some_iff.mp ht
    obtain - | ⟨hs, - | ⟨hs', h⟩⟩ := h
    obtain ⟨spellings, hspellings, heq⟩ := ih h hu
    simp only [isHighSurrogate, isLowSurrogate, Bool.and_eq_true, decide_eq_true_eq] at hpair
    refine ⟨_ :: spellings, .cons (.pair hs hs' hpair.1 hpair.2
      (toNat_pairedCharacter hpair.1 hpair.2)) hspellings, ?_⟩
    rw [List.flatten_cons, heq, List.append_assoc]
    rfl
  | case5 => contradiction
  | case6 => contradiction

theorem read?_flatten_of_unitSpelling {units : List StringUnit} {texts : List Text}
    (h : List.Forall₂ UnitSpelling units texts) (rest : Text) :
    read? (texts.flatten ++ '"' :: rest) = some (units, rest) := by
  induction h with
  | nil => rw [List.flatten_nil, List.nil_append, read?]
  | cons hs _ ih =>
    rw [List.flatten_cons, List.append_assoc, hs.read?_append, ih]
    rfl

/-! ### Strings -/

/-- The strings that spell a text, or no text: then their escapes spell half of a surrogate pair
somewhere. -/
def StringLiteral : Option Text → Text → Prop
  | some t, s => ∃ spellings, List.Forall₂ CharSpelling t spellings ∧
      s = '"' :: (spellings.flatten ++ ['"'])
  | none, s => (∃ units texts, List.Forall₂ UnitSpelling units texts ∧
      s = '"' :: (texts.flatten ++ ['"'])) ∧
      ∀ t spellings, List.Forall₂ CharSpelling t spellings →
        s ≠ '"' :: (spellings.flatten ++ ['"'])

theorem StringLiteral.spelledBy {text? : Option Text} {s : Text} (h : StringLiteral text? s) :
    (Token.string text?).SpelledBy s := by
  cases text? with
  | some t =>
    obtain ⟨spellings, hspellings, rfl⟩ := h
    exact Token.spelledBy_string (hspellings.flip.imp fun _ _ h => h.spells)
  | none =>
    obtain ⟨⟨units, texts, hunits, rfl⟩, hnone⟩ := h
    have hjoin : join? units = none := by
      refine Option.eq_none_iff_forall_ne_some.mpr fun t ht => ?_
      obtain ⟨spellings, hspellings, heq⟩ := exists_charSpelling_of_join? hunits ht
      exact hnone t spellings hspellings (by rw [heq])
    refine Token.spelledBy_cons rfl rfl fun rest => ?_
    rw [List.append_assoc, List.singleton_append, Token.first?,
      read?_flatten_of_unitSpelling hunits, ← hjoin]
    rfl

/-! ### Tokens -/

/-- White space as it can stand between tokens. -/
def Spaces (w : Text) : Prop :=
  ∀ c ∈ w, isSpace c = true

instance (w : Text) : Decidable (Spaces w) :=
  decidable_of_iff (w.all isSpace = true) List.all_eq_true

theorem Spaces.nil : Spaces [] :=
  fun _ h => absurd h List.not_mem_nil

/-- How a token is spelled: only strings can be spelled in several ways. -/
def Token.Spelling : Token → Text → Prop
  | number literal, s => NumberLiteral literal ∧ s = literal
  | string text?, s => StringLiteral text? s
  | token, s => s = token.text

/-- How a row of tokens is spelled: each token after white space, and white space at the end. -/
inductive RowSpelling : List Token → Text → Prop
  | nil {w : Text} (hw : Spaces w) : RowSpelling [] w
  | cons {w s t : Text} {token : Token} {tokens : List Token} (hw : Spaces w)
      (hs : token.Spelling s) (ht : RowSpelling tokens t) :
      RowSpelling (token :: tokens) (w ++ (s ++ t))

/-! ### Written texts -/

/-- A text is written as a string that spells it; what is no text is written as a surrogate without
its other half. -/
theorem stringLiteral_text (text? : Option Text) :
    StringLiteral text? (Token.string text?).text := by
  cases text? with
  | some t =>
    refine ⟨t.map escape, List.forall₂_map_right_iff.mpr (List.forall₂_same.mpr fun c _ =>
      charSpelling_escape c), ?_⟩
    rw [← List.flatMap_def]
    rfl
  | none =>
    have hdigits : HexDigits ['d', '8', '0', '0'] 0xD800 :=
      .mk (i := 13) (j := 8) (k := 0) (l := 0) (by decide) (by decide) (by decide) (by decide)
    have hunits : List.Forall₂ UnitSpelling [.code 0xD800] [['\\', 'u', 'd', '8', '0', '0']] :=
      .cons (.code hdigits) .nil
    have htext : (Token.string none).text =
        '"' :: ([['\\', 'u', 'd', '8', '0', '0']].flatten ++ ['"']) := rfl
    refine ⟨⟨_, _, hunits, htext⟩, fun t spellings hspellings heq => ?_⟩
    obtain ⟨units, hread, hjoin⟩ :=
      read?_flatten (hspellings.flip.imp fun _ _ h => h.spells) []
    rw [htext] at heq
    rw [← List.append_cancel_right (List.cons.inj heq).2,
      read?_flatten_of_unitSpelling hunits] at hread
    obtain ⟨rfl, -⟩ := Prod.mk.inj (Option.some.inj hread)
    contradiction

theorem Token.spelling_text {token : Token} (h : token.WellFormed) : token.Spelling token.text := by
  cases token with
  | number literal => exact ⟨isNumber_iff.mp h, rfl⟩
  | string text? => exact stringLiteral_text text?
  | openBrace | closeBrace | openBracket | closeBracket | comma | colon | null | bool b => rfl

/-- Tokens can be put in front of a row as the writer puts them. -/
theorem RowSpelling.text_append {front back : List Token} {t : Text}
    (h : ∀ token ∈ front, token.WellFormed) (ht : RowSpelling back t) :
    RowSpelling (front ++ back) (front.flatMap Token.text ++ t) := by
  induction front with
  | nil => exact ht
  | cons token front ih =>
    obtain ⟨htoken, h⟩ := List.forall_mem_cons.mp h
    rw [List.flatMap_cons, List.append_assoc]
    exact .cons (w := []) .nil (Token.spelling_text htoken) (ih h)

theorem RowSpelling.spaces_append {tokens : List Token} {t : Text} (h : RowSpelling tokens t)
    {w : Text} (hw : Spaces w) : RowSpelling tokens (w ++ t) := by
  cases h with
  | nil hw' => exact .nil (List.forall_mem_append.mpr ⟨hw, hw'⟩)
  | cons hw' hs ht =>
    rw [← List.append_assoc]
    exact .cons (List.forall_mem_append.mpr ⟨hw, hw'⟩) hs ht

/-! ### Reading tokens -/

theorem Token.Spelling.spelledBy {token : Token} {s : Text} (h : token.Spelling s) :
    token.SpelledBy s := by
  cases token with
  | number literal =>
    obtain ⟨hnumber, rfl⟩ := h
    exact spelledBy_number hnumber.isNumber
  | string text? => exact StringLiteral.spelledBy h
  | openBrace | closeBrace | openBracket | closeBracket | comma | colon =>
    obtain rfl : s = _ := h
    exact spelledBy_cons rfl rfl fun rest => rfl
  | null =>
    obtain rfl : s = _ := h
    exact spelledBy_word rfl rfl rfl fun rest => rfl
  | bool b =>
    obtain rfl : s = _ := h
    cases b with
    | false => exact spelledBy_word rfl rfl rfl fun rest => rfl
    | true => exact spelledBy_word rfl rfl rfl fun rest => rfl

theorem Spaces.ofText?_append {w : Text} (hw : Spaces w) (t : Text) :
    Token.ofText? (w ++ t) = Token.ofText? t := by
  induction w with
  | nil => rfl
  | cons c w ih =>
    obtain ⟨hc, hw⟩ := List.forall_mem_cons.mp hw
    rw [List.cons_append, Token.ofText?_cons_of_isSpace hc, ih hw]

theorem Spaces.endsNumber_append {w t : Text} (hw : Spaces w) (ht : EndsNumber t) :
    EndsNumber (w ++ t) := by
  cases w with
  | nil => exact ht
  | cons c w =>
    rintro d hd
    obtain rfl := Option.some.inj hd
    have hspace := hw c List.mem_cons_self
    refine Bool.eq_false_iff.mpr fun hnumber => ?_
    rw [Token.isSpace_of_isNumberCharacter hnumber] at hspace
    contradiction

/-- No number goes on with a row whose first token is no number. -/
theorem RowSpelling.endsNumber {tokens : List Token} {t : Text} (h : RowSpelling tokens t)
    (hfirst : ∀ token ∈ tokens.head?, token.isNumber = false) : EndsNumber t := by
  cases h with
  | nil hw => simpa using hw.endsNumber_append (t := []) (by simp [EndsNumber])
  | cons hw hs ht =>
    exact hw.endsNumber_append (hs.spelledBy.endsNumber_append _ (hfirst _ rfl))

/-- A spelled row without two numbers side by side is read as its tokens. -/
theorem ofText?_of_rowSpelling {tokens : List Token} {t : Text} (h : RowSpelling tokens t)
    (hseparated : Token.Separated tokens) : Token.ofText? t = some tokens := by
  induction h with
  | @nil w hw => simpa using hw.ofText?_append []
  | cons hw hs ht ih =>
    obtain ⟨hnext, hseparated⟩ := List.isChain_cons.mp hseparated
    have hends := fun hnumber => ht.endsNumber fun next hmem => hnext next hmem hnumber
    rw [hw.ofText?_append, hs.spelledBy.ofText?_append _ hends, ih hseparated]
    rfl

/-! ### Values -/

/-- The texts that spell a value: its tokens, with white space around them. -/
def SpelledAs (v : Json) (t : Text) : Prop :=
  RowSpelling v.tokens t

/-- **A spelled value is read as this value.** -/
theorem parse?_of_spelledAs {v : Json} {t : Text} (h : v.SpelledAs t) : parse? t = some v := by
  rw [parse?, ofText?_of_rowSpelling h v.separated_tokens]
  exact v.ofTokens?_tokens

/-- The written text of a value is one of its spellings, also with white space around it. -/
theorem spelledAs_compact {v : Json} (h : v.WellFormed) {front back : Text} (hfront : Spaces front)
    (hback : Spaces back) : v.SpelledAs (front ++ (v.compact ++ back)) := by
  have hrow : RowSpelling (v.tokens ++ []) (v.compact ++ back) := .text_append h (.nil hback)
  rw [List.append_nil] at hrow
  exact hrow.spaces_append hfront

/-- **Written values are read back.** -/
theorem parse?_compact {v : Json} (h : v.WellFormed) : parse? v.compact = some v := by
  simpa using parse?_of_spelledAs (spelledAs_compact h Spaces.nil Spaces.nil)

end PipeLint.Json
