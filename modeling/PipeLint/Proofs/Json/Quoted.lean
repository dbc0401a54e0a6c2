import Mathlib.Data.List.Forall2
import PipeLint.Json.Quoted

/-!
# Written strings are read back

Inside a string, a character may be spelled in several ways: by itself, by an escape with a letter,
by its number, and by the numbers of its surrogate pair. A spelling does its work wherever it
stands: the reader takes units from it that make up the character, whatever text follows. So a row
of spellings is read as the text that they spell, and a written text as itself.

## Main definitions

* `PipeLint.Json.UnitSpelling`, `PipeLint.Json.CharSpelling`: how a unit and a character are spelled
  in a string.
* `PipeLint.Json.Spells`: the texts that the reader takes for a character.

## Main results

* `PipeLint.Json.CharSpelling.spells`: the reader takes every spelling of a character.
* `PipeLint.Json.charSpelling_escape`: a character is spelled as the writer puts it.
* `PipeLint.Json.StringUnit.read?_flatten`: a row of spellings is read as what it spells.
* `PipeLint.Json.lineFeed_notMem_quote`: no line feed stands in a written string.
-/

namespace PipeLint.Json

open StringUnit

/-! ### Hexadecimal digits -/

/-- A character is the digit of a number below sixteen, in either case. -/
def HexDigit (c : Char) (n : Nat) : Prop :=
  n < 16 ∧ (c = Nat.digitChar n ∨ c = (Nat.digitChar n).toUpper)

instance (c : Char) (n : Nat) : Decidable (HexDigit c n) :=
  inferInstanceAs (Decidable (_ ∧ _))

/-- Four digits spell a 16-bit unit. -/
inductive HexDigits : Text → Nat → Prop
  | mk {a b c d : Char} {i j k l : Nat} (ha : HexDigit a i) (hb : HexDigit b j)
      (hc : HexDigit c k) (hd : HexDigit d l) :
      HexDigits [a, b, c, d] (((i * 16 + j) * 16 + k) * 16 + l)

theorem HexDigit.hexValue?_eq {c : Char} {n : Nat} (h : HexDigit c n) : hexValue? c = some n := by
  have hdigit : ∀ n < 16, hexValue? (Nat.digitChar n) = some n ∧
      hexValue? (Nat.digitChar n).toUpper = some n := by decide
  obtain ⟨hn, rfl | rfl⟩ := h
  · exact (hdigit n hn).1
  · exact (hdigit n hn).2

/-! ### Units and characters -/

/-- The letters of escapes, each with the character that it stands for. -/
def letterEscapes : List (Char × Char) :=
  [
    ('"', '"'), ('\\', '\\'), ('/', '/'), ('b', '\x08'), ('f', '\x0c'), ('n', '\n'), ('r', '\r'),
    ('t', '\t')
  ]

/-- How a unit is spelled in a string: a character by itself or by an escape with a letter, a 16-bit
unit by an escape with its number. -/
inductive UnitSpelling : StringUnit → Text → Prop
  | self {c : Char} (hquote : c ≠ '"') (hescape : c ≠ '\\') (hspace : 0x20 ≤ c.toNat) :
      UnitSpelling (.char c) [c]
  | letter {letter c : Char} (h : (letter, c) ∈ letterEscapes) :
      UnitSpelling (.char c) ['\\', letter]
  | code {digits : Text} {n : Nat} (h : HexDigits digits n) :
      UnitSpelling (.code n) ('\\' :: 'u' :: digits)

/-- How a character is spelled in a string: as a unit of its own, by its number, or by the two
halves of its surrogate pair. -/
inductive CharSpelling : Char → Text → Prop
  | char {c : Char} {s : Text} (h : UnitSpelling (.char c) s) : CharSpelling c s
  | code {c : Char} {s : Text} (h : UnitSpelling (.code c.toNat) s) : CharSpelling c s
  | pair {c : Char} {high low : Nat} {s t : Text} (hs : UnitSpelling (.code high) s)
      (ht : UnitSpelling (.code low) t) (hhigh : 0xD800 ≤ high ∧ high < 0xDC00)
      (hlow : 0xDC00 ≤ low ∧ low < 0xE000)
      (hc : c.toNat = 0x10000 + (high - 0xD800) * 0x400 + (low - 0xDC00)) :
      CharSpelling c (s ++ t)

/-! ### Reading one unit -/

/-- A character is read as itself, unless it ends the string, starts an escape or has to be
escaped. -/
theorem StringUnit.read?_self {c : Char} (hquote : c ≠ '"') (hescape : c ≠ '\\')
    (hspace : 0x20 ≤ c.toNat) (rest : Text) :
    read? (c :: rest) = (read? rest).map fun p => (.char c :: p.1, p.2) := by
  rw [read?]
  · rw [if_neg (not_or.mpr ⟨Nat.not_lt.mpr hspace, hescape⟩)]
  all_goals simp_all

theorem StringUnit.read?_letter {letter c : Char} (h : escaped? letter = some c) (rest : Text) :
    read? ('\\' :: letter :: rest) = (read? rest).map fun p => (.char c :: p.1, p.2) := by
  have hletter : letter ≠ 'u' := by
    rintro rfl
    contradiction
  rw [read?]
  · rw [h]
    rfl
  · simp_all

theorem StringUnit.read?_code {a b c d : Char} {n : Nat} (h : codeUnit? a b c d = some n)
    (rest : Text) : read? ('\\' :: 'u' :: a :: b :: c :: d :: rest) =
      (read? rest).map fun p => (.code n :: p.1, p.2) := by
  rw [read?, h]
  rfl

/-- The unit is read, whatever follows its spelling. -/
theorem UnitSpelling.read?_append {unit : StringUnit} {s : Text} (h : UnitSpelling unit s)
    (rest : Text) : read? (s ++ rest) = (read? rest).map fun p => (unit :: p.1, p.2) := by
  cases h with
  | self hquote hescape hspace => exact read?_self hquote hescape hspace rest
  | @letter letter c h =>
    have hletter : ∀ e ∈ letterEscapes, escaped? e.1 = some e.2 := by decide
    exact read?_letter (hletter _ h) rest
  | code h =>
    obtain ⟨ha, hb, hc, hd⟩ := h
    refine read?_code ?_ rest
    simp [codeUnit?, ha.hexValue?_eq, hb.hexValue?_eq, hc.hexValue?_eq, hd.hexValue?_eq]

/-! ### Reading one character -/

/-- A text spells a character inside a string: before whatever follows, the reader takes certain
units from it, which make up the character and have no part in what follows. -/
def Spells (s : Text) (c : Char) : Prop :=
  ∃ units : List StringUnit,
    (∀ rest, read? (s ++ rest) = (read? rest).map fun p => (units ++ p.1, p.2)) ∧
      ∀ later, join? (units ++ later) = (join? later).map (c :: ·)

theorem not_isValidChar {n : Nat} (hlow : 0xD800 ≤ n) (hhigh : n < 0xE000) : ¬ n.isValidChar := by
  simp only [Nat.isValidChar]
  omega

theorem toNat_ofNat_of_isValidChar {n : Nat} (h : n.isValidChar) : (Char.ofNat n).toNat = n := by
  rw [Char.ofNat, dif_pos h]
  rfl

theorem toNat_pairedCharacter {high low : Nat} (hhigh : 0xD800 ≤ high ∧ high < 0xDC00)
    (hlow : 0xDC00 ≤ low ∧ low < 0xE000) :
    (pairedCharacter high low).toNat = 0x10000 + (high - 0xD800) * 0x400 + (low - 0xDC00) := by
  refine toNat_ofNat_of_isValidChar ?_
  simp only [Nat.isValidChar]
  omega

theorem CharSpelling.spells {c : Char} {s : Text} (h : CharSpelling c s) : Spells s c := by
  cases h with
  | char h => exact ⟨[.char c], h.read?_append, fun _ => rfl⟩
  | code h =>
    refine ⟨[.code c.toNat], h.read?_append, fun later => ?_⟩
    have hvalid : c.toNat.isValidChar := c.valid
    rw [List.singleton_append, join?.eq_def]
    simp only [hvalid, if_true, Char.ofNat_toNat]
  | @pair high low s t hs ht hhigh hlow hc =>
    refine ⟨[.code high, .code low], fun rest => ?_, fun later => ?_⟩
    · rw [List.append_assoc, hs.read?_append, ht.read?_append, Option.map_map]
      rfl
    · have hpair : pairedCharacter high low = c :=
        Char.toNat_inj.mp ((toNat_pairedCharacter hhigh hlow).trans hc.symm)
      have hsurrogates : isHighSurrogate high ∧ isLowSurrogate low := by
        simp [isHighSurrogate, isLowSurrogate, hhigh, hlow]
      have hinvalid : ¬ high.isValidChar := not_isValidChar hhigh.1 (by omega)
      rw [← hpair, List.cons_append, List.singleton_append, join?]
      simp only [hinvalid, if_false, hsurrogates, and_self, if_true]

/-! ### The spellings of the writer -/

theorem hexDigit_digitChar {n : Nat} (h : n < 16) : HexDigit (Nat.digitChar n) n :=
  ⟨h, Or.inl rfl⟩

theorem hexDigits_of_lt {n : Nat} (h : n < 0x20) :
    HexDigits ['0', '0', Nat.digitChar (n / 16), Nat.digitChar (n % 16)] n := by
  have hdigits := HexDigits.mk (hexDigit_digitChar (n := 0) (by decide))
    (hexDigit_digitChar (n := 0) (by decide)) (hexDigit_digitChar (n := n / 16) (by omega))
    (hexDigit_digitChar (n := n % 16) (by omega))
  have hvalue : ((0 * 16 + 0) * 16 + n / 16) * 16 + n % 16 = n := by omega
  rwa [hvalue] at hdigits

/-- A character is spelled as the writer puts it. -/
theorem charSpelling_escape (c : Char) : CharSpelling c (escape c) := by
  unfold escape
  split
  iterate 7
    · exact .char (.letter (by decide))
  · rename_i hquote hescape _ _ _ _ _
    split
    · rename_i hspace
      exact .code (.code (hexDigits_of_lt hspace))
    · rename_i hspace
      exact .char (.self hquote hescape (Nat.not_lt.mp hspace))

/-! ### Rows of spellings -/

/-- A row of spellings up to a closing quote is read as units that make up what is spelled. -/
theorem StringUnit.read?_flatten {spellings : List Text} {t : Text}
    (h : List.Forall₂ Spells spellings t) (rest : Text) :
    ∃ units, read? (spellings.flatten ++ '"' :: rest) = some (units, rest) ∧
      join? units = some t := by
  induction h with
  | nil => exact ⟨[], by simp [read?], rfl⟩
  | cons hspells _ ih =>
    obtain ⟨first, hread, hjoin⟩ := hspells
    obtain ⟨units, hunits, ht⟩ := ih
    refine ⟨first ++ units, ?_, ?_⟩
    · rw [List.flatten_cons, List.append_assoc, hread, hunits]
      rfl
    · rw [hjoin, ht]
      rfl

/-! ### Line feeds -/

/-- No line feed stands in a written string. -/
theorem lineFeed_notMem_quote (t : Text) : '\n' ∉ quote t := by
  have hescape : ∀ c, '\n' ∉ escape c := fun c => by
    unfold escape
    split
    iterate 7
      · decide
    · split
      · simp
      · simp_all [eq_comm]
  simp [quote, hescape]

end PipeLint.Json
