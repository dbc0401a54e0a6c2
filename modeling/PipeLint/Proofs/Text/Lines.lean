import PipeLint.Text.Lines

/-!
# Lines of bytes and lines of texts

A stream of bytes can be cut into lines before or after it is decoded. A line feed is one byte in
UTF-8, and this byte is part of no other character; so the pieces of a stream that encodes a text
are the encoded pieces of the text, and if all pieces encode texts, so does the stream. Hence the
two readers fail on the same streams, and give the same lines for all others.

## Main definitions

* `PipeLint.Text.bytes`: the UTF-8 form of a text as a list of bytes.
* `PipeLint.Text.ofLines`: the text whose lines are given.

## Main results

* `PipeLint.decodeUtf8?_eq_some_iff`: bytes are decoded to the text that they encode.
* `PipeLint.pieces_flatMap`: pieces of a list whose items are spelled out.
* `PipeLint.decodeLines?_eq_map_lines`: decoding line by line and decoding as a whole.
* `PipeLint.Text.lines_ofLines`: texts that can be lines are the lines of a text.
-/

namespace PipeLint

/-! ### The bytes of a text -/

/-- The bytes of the UTF-8 form of a text. -/
def Text.bytes (t : Text) : List UInt8 :=
  t.flatMap String.utf8EncodeChar

@[simp]
theorem Text.bytes_append (s t : Text) : Text.bytes (s ++ t) = s.bytes ++ t.bytes :=
  List.flatMap_append

theorem Text.utf8Encode_eq (t : Text) : t.utf8Encode = ByteArray.mk t.bytes.toArray := by
  rw [← List.data_toByteArray]
  rfl

/-- Bytes are decoded to the text that they encode, if they encode one. -/
theorem decodeUtf8?_eq_some_iff {bytes : List UInt8} {t : Text} :
    decodeUtf8? bytes = some t ↔ bytes = t.bytes := by
  constructor
  · intro h
    obtain ⟨chars, hchars, rfl⟩ := Option.map_eq_some_iff.mp h
    have hencode := ByteArray.utf8Encode_get_utf8Decode? (b := ⟨bytes.toArray⟩)
      (h := Option.isSome_of_eq_some hchars)
    simp only [hchars, Option.get_some, Text.utf8Encode_eq, ByteArray.mk.injEq] at hencode
    exact (congrArg Array.toList hencode).symm
  · rintro rfl
    rw [decodeUtf8?, ← Text.utf8Encode_eq, List.utf8Decode?_utf8Encode]
    rfl

/-! ### The bytes of a character -/

theorem utf8EncodeChar_ne_nil (c : Char) : String.utf8EncodeChar c ≠ [] := by
  rw [← List.length_pos_iff, String.length_utf8EncodeChar]
  exact c.utf8Size_pos

theorem utf8Size_eq_one {c : Char} (hc : c.toNat ≤ 127) : c.utf8Size = 1 :=
  Char.utf8Size_eq_one_iff.mpr (UInt32.le_iff_toNat_le.mpr hc)

theorem le_toNat_of_mem_utf8EncodeChar {c : Char} (hc : 127 < c.toNat) :
    ∀ b ∈ String.utf8EncodeChar c, 128 ≤ b.toNat := by
  fun_cases String.utf8EncodeChar c with
  | case1 v h => exact absurd hc (Nat.not_lt.mpr h)
  | case2 v | case3 v | case4 v =>
    simp only [List.forall_mem_cons, List.not_mem_nil, false_implies, implies_true, and_true,
      UInt8.toNat_ofNat']
    omega

/-! ### Line feeds -/

/-- A line feed is one byte, which is part of no other character. -/
theorem lineFeed_mem_utf8EncodeChar_iff {c : Char} :
    '\n'.toUInt8 ∈ String.utf8EncodeChar c ↔ c = '\n' := by
  by_cases hc : 127 < c.toNat
  · refine iff_of_false (fun h => absurd (le_toNat_of_mem_utf8EncodeChar hc _ h) (by decide)) ?_
    rintro rfl
    exact absurd hc (by decide)
  · rw [String.utf8EncodeChar_eq_singleton (utf8Size_eq_one (Nat.not_lt.mp hc)),
      List.mem_singleton]
    constructor
    · intro h
      have hvalue : 10 = c.toNat % 256 := congrArg UInt8.toNat h
      refine Char.toNat_inj.mp (?_ : c.toNat = 10)
      omega
    · rintro rfl
      rfl

/-! ### Pieces -/

section Pieces

variable {α β : Type} {isSeparator : α → Bool}

/-- What is no separator goes into the first piece. -/
theorem pieces_append_of_eq_cons {front l first : List α} {others : List (List α)}
    (hfront : ∀ a ∈ front, isSeparator a = false) (h : pieces isSeparator l = first :: others) :
    pieces isSeparator (front ++ l) = (front ++ first) :: others := by
  induction front with
  | nil => exact h
  | cons a front ih =>
    obtain ⟨ha, hfront⟩ := List.forall_mem_cons.mp hfront
    simp [pieces, ha, ih hfront]

theorem pieces_of_forall_eq_false {l : List α} (hne : l ≠ [])
    (h : ∀ a ∈ l, isSeparator a = false) : pieces isSeparator l = [l] := by
  rw [← List.dropLast_concat_getLast hne] at h ⊢
  have hlast : pieces isSeparator [l.getLast hne] = [[l.getLast hne]] := by
    simp [pieces, h (l.getLast hne) (by simp)]
  exact pieces_append_of_eq_cons (fun a ha => h a (List.mem_append_left _ ha)) hlast

/-- The pieces of a list whose items are spelled out: if separators are spelled by separators and
other items without them, they are the spelled pieces of the list. -/
theorem pieces_flatMap {isSeparator' : β → Bool} {f : α → List β}
    (hseparator : ∀ a, isSeparator a = true → ∃ b, f a = [b] ∧ isSeparator' b = true)
    (hother : ∀ a, isSeparator a = false → f a ≠ [] ∧ ∀ b ∈ f a, isSeparator' b = false)
    (l : List α) :
    pieces isSeparator' (l.flatMap f) = (pieces isSeparator l).map (·.flatMap f) := by
  fun_induction pieces isSeparator l with
  | case1 => rfl
  | case2 a l ha ih =>
    obtain ⟨b, hspelled, hb⟩ := hseparator a ha
    simp [hspelled, pieces, hb, ih]
  | case3 a l ha hnone ih =>
    rw [hnone, List.map_nil] at ih
    obtain ⟨hne, hspelled⟩ := hother a (by simpa using ha)
    have hl : l.flatMap f = [] := by rw [← flatten_pieces isSeparator' (l.flatMap f), ih]; rfl
    simp [hl, pieces_of_forall_eq_false hne hspelled]
  | case4 a l ha first others hsome ih =>
    rw [hsome, List.map_cons] at ih
    obtain ⟨-, hspelled⟩ := hother a (by simpa using ha)
    rw [List.flatMap_cons, pieces_append_of_eq_cons hspelled ih]
    simp

end Pieces

/-- The lines of the bytes of a text, with their endings, are the bytes of its lines. -/
theorem pieces_bytes (t : Text) :
    pieces (· = '\n'.toUInt8) t.bytes = (pieces (· = '\n') t).map Text.bytes := by
  refine pieces_flatMap (fun c hc => ⟨'\n'.toUInt8, ?_, by simp⟩)
    (fun c hc => ⟨utf8EncodeChar_ne_nil c, fun b hb => ?_⟩) t
  · rw [of_decide_eq_true hc]
    rfl
  · refine decide_eq_false ?_
    rintro rfl
    exact of_decide_eq_false hc (lineFeed_mem_utf8EncodeChar_iff.mp hb)

/-! ### Decoding -/

/-- If pieces are decoded one by one, the whole that they make up can be decoded. -/
theorem exists_flatten_eq_bytes {l : List (List UInt8)} {lines : List Text}
    (h : (l.mapM fun piece => (decodeUtf8? piece).map Text.chomp) = some lines) :
    ∃ t : Text, l.flatten = t.bytes := by
  induction l generalizing lines with
  | nil => exact ⟨[], rfl⟩
  | cons piece l ih =>
    rw [List.mapM_cons] at h
    obtain ⟨line, hline, h⟩ := Option.bind_eq_some_iff.mp h
    obtain ⟨others, hothers, -⟩ := Option.bind_eq_some_iff.mp h
    obtain ⟨s, hs, -⟩ := Option.map_eq_some_iff.mp hline
    obtain ⟨t, ht⟩ := ih hothers
    exact ⟨s ++ t, by rw [List.flatten_cons, ht, decodeUtf8?_eq_some_iff.mp hs, Text.bytes_append]⟩

/-- **Decoding line by line.** The lines that are decoded one by one are those of the text that is
decoded as a whole, and there are none exactly if the bytes encode no text. -/
theorem decodeLines?_eq_map_lines (bytes : List UInt8) :
    decodeLines? bytes = (decodeUtf8? bytes).map Text.lines := by
  cases hwhole : decodeUtf8? bytes with
  | some t =>
    obtain rfl := decodeUtf8?_eq_some_iff.mp hwhole
    have hpiece : (fun piece => (decodeUtf8? piece).map Text.chomp) ∘ Text.bytes =
        fun piece : Text => pure piece.chomp := by
      funext piece
      simp [decodeUtf8?_eq_some_iff.mpr rfl]
    rw [decodeLines?, pieces_bytes, List.mapM_map, hpiece, List.mapM_pure]
    rfl
  | none =>
    refine Option.eq_none_iff_forall_ne_some.mpr fun lines hlines => ?_
    obtain ⟨t, ht⟩ := exists_flatten_eq_bytes hlines
    rw [flatten_pieces] at ht
    rw [decodeUtf8?_eq_some_iff.mpr ht] at hwhole
    contradiction

/-! ### Lines of a text -/

namespace Text

/-- The text whose lines are given, each with a line feed behind it. -/
def ofLines (lines : List Text) : Text :=
  lines.flatMap (· ++ ['\n'])

/-- A text that can be a line: no line feed ends it early, and no carriage return at its end would
be taken for a part of the line ending. -/
structure IsLine (t : Text) : Prop where
  /-- There is no line feed in it. -/
  notMem : '\n' ∉ t
  /-- It does not end in a carriage return. -/
  last : t.getLast? ≠ some '\r'

theorem IsLine.chomp_append {t : Text} (h : t.IsLine) : chomp (t ++ ['\n']) = t := by
  simp [chomp, h.last]

/-- Texts that can be lines are the lines of the text that they make. -/
theorem lines_ofLines {lines : List Text} (h : ∀ t ∈ lines, t.IsLine) :
    (ofLines lines).lines = lines := by
  induction lines with
  | nil => rfl
  | cons t lines ih =>
    obtain ⟨ht, hlines⟩ := List.forall_mem_cons.mp h
    have hfirst : pieces (· = '\n') ('\n' :: ofLines lines) =
        ['\n'] :: pieces (· = '\n') (ofLines lines) := rfl
    have hfront : ∀ c ∈ t, decide (c = '\n') = false := fun c hc =>
      decide_eq_false fun heq => ht.notMem (heq ▸ hc)
    have hcut : ofLines (t :: lines) = t ++ '\n' :: ofLines lines := by
      simp [ofLines]
    rw [Text.lines, hcut, pieces_append_of_eq_cons hfront hfirst, List.map_cons, ht.chomp_append]
    exact congrArg _ (ih hlines)

end Text

end PipeLint
