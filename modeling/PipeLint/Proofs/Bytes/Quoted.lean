import PipeLint.Check.Quoted
import PipeLint.Proofs.Bytes.Cursor
import PipeLint.Proofs.Grammar.Interior
import PipeLint.Proofs.Text.Lines

/-!
# Escapes checked byte by byte

The check on a quoted string goes through the bytes of its interior and cuts out a character where a
backslash starts no escape. A byte tells an ASCII character from all others, so the backslashes
among the bytes are those of the interior, and behind each of them is a place. A backslash is never
the last byte, since the interior does not end escaped: the check has no value for one that is.

## Main definitions

* `PipeLint.byteChar`: the character that a byte is taken for.
* `PipeLint.AsciiAlike`: characters that are the same among the ASCII characters.
* `PipeLint.Text.escapesAt?`: the backslashes that start no escape, found from a byte on.
* `PipeLint.Token.quotedFindings?`: what is wrong with a quoted string, found byte by byte.

## Main results

* `PipeLint.Text.HasRestAt.escapesAt?_eq`: the bytes are read as the characters are.
* `PipeLint.Token.quotedFindings?_eq`: the check has a value for every token.
-/

namespace PipeLint

/-! ### The check -/

/-- The character that has the number of a byte. -/
def byteChar (b : UInt8) : Char :=
  Char.ofNat b.toNat

namespace Text

/-- Whether bytes end in an odd run of backslashes. -/
def endsEscaped (bytes : List UInt8) : Bool :=
  (bytes.reverse.takeWhile (byteChar · = '\\')).length % 2 = 1

/-- The text between the quotes of a closed string, cut off by its last character and by the length
of the first one. -/
def cutInterior? (quote : Char) (t : Text) : Option Text :=
  if t.getLast? = some quote then
    (from? t.dropLast quote.utf8Size).filter fun interior => !endsEscaped interior.bytes
  else
    none

/-- The backslashes that start no escape from a byte on, if the text starts at a byte offset. There
is no value if a backslash is the last byte. -/
def escapesAt? (offset : Nat) (t : Text) (cursor : Nat) : Option (List Finding) :=
  match _h : t.bytes[cursor]? with
  | none => some []
  | some b =>
    if byteChar b ≠ '\\' then
      escapesAt? offset t (cursor + 1)
    else
      match t.bytes[cursor + 1]? with
      | none => none
      | some e =>
        if isEscapeLetter (byteChar e) then
          escapesAt? offset t (cursor + 2)
        else if byteChar e = 'x' ∧ t.bytes[cursor + 2]?.any (isHexDigit <| byteChar ·) then
          escapesAt? offset t (cursor + 3)
        else do
          let rest ← t.from? (cursor + 1)
          let length := 1 + (rest.head?.map Char.utf8Size).getD 0
          return ⟨.invalidEscape, ⟨offset + cursor, length⟩⟩ ::
            (← escapesAt? offset t (cursor + length))
termination_by t.bytes.length - cursor
decreasing_by
  all_goals
    obtain ⟨hlength, -⟩ := List.getElem?_eq_some_iff.mp _h
    omega

end Text

/-- What is wrong with a token that is meant to be a quoted string, found byte by byte. -/
def Token.quotedFindings? (k : Token) : Option (List Finding) :=
  match k.text with
  | [] => some []
  | quote :: _ =>
    if k.text.byteLength < 2 then
      some [⟨.malformedString, k.span⟩]
    else
      match k.text.cutInterior? quote with
      | none => some [⟨.openQuote quote, k.span⟩]
      | some interior => interior.escapesAt? (k.offset + 1) 0

/-! ### The bytes of characters -/

theorem toNat_byteChar (b : UInt8) : (byteChar b).toNat = b.toNat := by
  have hvalid : b.toNat.isValidChar := Or.inl (Nat.lt_trans b.toNat_lt (by decide))
  rw [byteChar, Char.ofNat, dif_pos hvalid]
  rfl

/-- Two characters are the same among the ASCII characters: they are equal, or neither is one. -/
def AsciiAlike (c d : Char) : Prop :=
  c = d ∨ 127 < c.toNat ∧ 127 < d.toNat

namespace AsciiAlike

variable {c d : Char}

theorem apply_eq (h : AsciiAlike c d) {p : Char → Bool} (hp : ∀ a, p a = true → a.toNat ≤ 127) :
    p c = p d := by
  have hfalse (a : Char) (ha : 127 < a.toNat) : p a = false :=
    Bool.eq_false_iff.mpr fun hpa => Nat.not_le.mpr ha (hp a hpa)
  rcases h with rfl | ⟨hc, hd⟩
  · rfl
  · rw [hfalse c hc, hfalse d hd]

theorem eq_iff (h : AsciiAlike c d) {a : Char} (ha : a.toNat ≤ 127) : c = a ↔ d = a := by
  have hclass := h.apply_eq (p := (· = a)) fun b hb => of_decide_eq_true hb ▸ ha
  exact decide_eq_decide.mp hclass

end AsciiAlike

theorem exists_utf8EncodeChar_eq_singleton {c : Char} (hc : c.toNat ≤ 127) :
    ∃ b, String.utf8EncodeChar c = [b] ∧ byteChar b = c := by
  refine ⟨_, String.utf8EncodeChar_eq_singleton (utf8Size_eq_one hc), Char.toNat_inj.mp ?_⟩
  have hvalue : c.val.toUInt8.toNat = c.toNat % 256 := rfl
  rw [toNat_byteChar, hvalue]
  omega

/-- A byte of a character is taken for the same ASCII character, or for none. -/
theorem asciiAlike_byteChar {c : Char} :
    ∀ b ∈ String.utf8EncodeChar c, AsciiAlike (byteChar b) c := by
  intro b hb
  by_cases hc : c.toNat ≤ 127
  · obtain ⟨b', hsingle, hchar⟩ := exists_utf8EncodeChar_eq_singleton hc
    rw [hsingle, List.mem_singleton] at hb
    exact Or.inl (hb ▸ hchar)
  · have hlow := le_toNat_of_mem_utf8EncodeChar (Nat.lt_of_not_le hc) b hb
    exact Or.inr ⟨toNat_byteChar b ▸ hlow, Nat.lt_of_not_le hc⟩

theorem byteChar_ne_backslash {c : Char} (hc : c ≠ '\\') :
    ∀ b ∈ String.utf8EncodeChar c, byteChar b ≠ '\\' :=
  fun b hb => mt ((asciiAlike_byteChar b hb).eq_iff (by decide)).mp hc

theorem toNat_le_of_isEscapeLetter {c : Char} (h : isEscapeLetter c = true) : c.toNat ≤ 127 := by
  simp only [isEscapeLetter, List.mem_cons, List.not_mem_nil, or_false, decide_eq_true_eq] at h
  rcases h with rfl | rfl | rfl | rfl | rfl | rfl <;> decide

theorem toNat_le_of_isHexDigit {c : Char} (h : isHexDigit c = true) : c.toNat ≤ 127 := by
  have hval : c.toNat = c.val.toNat := rfl
  simp [isHexDigit, Char.le_def, UInt32.le_iff_toNat_le] at h
  omega

namespace Text

theorem length_bytes (t : Text) : t.bytes.length = t.byteLength := by
  induction t with
  | nil => rfl
  | cons c t ih =>
    rw [bytes, List.flatMap_cons, List.length_append, String.length_utf8EncodeChar]
    exact congrArg _ ih

/-- The bytes of a text end in as many backslashes as the text. -/
theorem endsEscaped_bytes_iff (t : Text) : endsEscaped t.bytes = true ↔ EndsEscaped t := by
  have hcount : (t.bytes.reverse.takeWhile (byteChar · = '\\')).length = t.trailingBackslashes := by
    induction t using List.reverseRecOn with
    | nil => rfl
    | append_singleton t c ih =>
      rw [Quoting.trailingBackslashes_concat, bytes_append, List.reverse_append]
      have hbytes : bytes [c] = String.utf8EncodeChar c := List.append_nil _
      rw [hbytes]
      by_cases hc : c = '\\'
      · obtain ⟨b, hb, hchar⟩ := exists_utf8EncodeChar_eq_singleton (c := '\\') (by decide)
        subst hc
        simp [hb, hchar, ih]
      · have hne := byteChar_ne_backslash hc
        obtain ⟨b, bs, hrow⟩ :=
          List.exists_cons_of_ne_nil (List.reverse_ne_nil_iff.mpr (utf8EncodeChar_ne_nil c))
        have hb := hne b (List.mem_reverse.mp (hrow ▸ List.mem_cons_self))
        simp [hrow, hb, hc]
  rw [endsEscaped, hcount, decide_eq_true_iff]

namespace HasRestAt

variable {t rest : Text} {cursor : Nat}

theorem drop_bytes (h : HasRestAt t rest cursor) : t.bytes.drop cursor = rest.bytes := by
  obtain ⟨front, rfl, rfl⟩ := h
  rw [bytes_append, ← length_bytes, List.drop_left]

theorem getElem?_bytes (h : HasRestAt t rest cursor) : t.bytes[cursor]? = rest.bytes[0]? := by
  rw [← h.drop_bytes, List.getElem?_drop, Nat.add_zero]

theorem exists_byte {c : Char} (h : HasRestAt t (c :: rest) cursor) :
    ∃ b, t.bytes[cursor]? = some b ∧ AsciiAlike (byteChar b) c := by
  obtain ⟨b, bs, hbytes⟩ := List.exists_cons_of_ne_nil (utf8EncodeChar_ne_nil c)
  refine ⟨b, ?_, asciiAlike_byteChar b (hbytes ▸ List.mem_cons_self)⟩
  rw [h.getElem?_bytes, bytes, List.flatMap_cons, hbytes]
  rfl

theorem any_byte {p : Char → Bool} (hp : ∀ a, p a = true → a.toNat ≤ 127)
    (h : HasRestAt t rest cursor) : t.bytes[cursor]?.any (p <| byteChar ·) = rest.head?.any p := by
  cases rest with
  | nil =>
    rw [h.getElem?_bytes]
    rfl
  | cons c rest =>
    obtain ⟨b, hb, halike⟩ := h.exists_byte
    rw [hb]
    exact halike.apply_eq hp

end HasRestAt

theorem endsEscaped_escape_iff (c : Char) (t : Text) :
    EndsEscaped ('\\' :: c :: t) ↔ EndsEscaped t := by
  refine endsEscaped_append_iff (s := ['\\', c]) ?_ t
  have hcount := Quoting.trailingBackslashes_concat ['\\'] c
  by_cases hc : c = '\\'
  · subst hc
    decide
  · rw [if_neg hc] at hcount
    rw [EndsEscaped, ← List.singleton_append, hcount]
    decide

theorem endsEscaped_cons_iff {c : Char} (hc : c ≠ '\\') (t : Text) :
    EndsEscaped (c :: t) ↔ EndsEscaped t := by
  refine endsEscaped_append_iff (s := [c]) ?_ t
  have hcount := Quoting.trailingBackslashes_concat [] c
  rw [if_neg hc] at hcount
  rw [EndsEscaped, ← List.nil_append [c], hcount]
  decide

section Rounds

variable {t : Text} {offset cursor : Nat} {b e : UInt8}

theorem escapesAt?_end (h : t.bytes[cursor]? = none) : t.escapesAt? offset cursor = some [] := by
  rw [escapesAt?]
  split <;> simp_all

theorem escapesAt?_of_ne (h : t.bytes[cursor]? = some b) (hb : byteChar b ≠ '\\') :
    t.escapesAt? offset cursor = t.escapesAt? offset (cursor + 1) := by
  rw [escapesAt?]
  split <;> simp_all

theorem escapesAt?_backslash (h : t.bytes[cursor]? = some b) (hb : byteChar b = '\\')
    (he : t.bytes[cursor + 1]? = some e) :
    t.escapesAt? offset cursor =
      if isEscapeLetter (byteChar e) then
        escapesAt? offset t (cursor + 2)
      else if byteChar e = 'x' ∧ t.bytes[cursor + 2]?.any (isHexDigit <| byteChar ·) then
        escapesAt? offset t (cursor + 3)
      else do
        let rest ← t.from? (cursor + 1)
        let length := 1 + (rest.head?.map Char.utf8Size).getD 0
        return ⟨.invalidEscape, ⟨offset + cursor, length⟩⟩ ::
          (← escapesAt? offset t (cursor + length)) := by
  rw [escapesAt?]
  split <;> simp_all

/-- Bytes that are no backslashes are passed. -/
theorem escapesAt?_add {passed behind : List UInt8} (hpassed : ∀ b ∈ passed, byteChar b ≠ '\\')
    (h : t.bytes.drop cursor = passed ++ behind) :
    t.escapesAt? offset cursor = t.escapesAt? offset (cursor + passed.length) := by
  induction passed generalizing cursor with
  | nil => rfl
  | cons b passed ih =>
    obtain ⟨hb, hpassed⟩ := List.forall_mem_cons.mp hpassed
    have hfirst : t.bytes[cursor]? = some b := by
      rw [← Nat.add_zero cursor, ← List.getElem?_drop, h]
      rfl
    have hlater : t.bytes.drop (cursor + 1) = passed ++ behind := by
      rw [← List.drop_drop, h]
      rfl
    rw [escapesAt?_of_ne hfirst hb, ih hpassed hlater, Nat.add_assoc, Nat.add_comm 1,
      List.length_cons]

end Rounds

namespace HasRestAt

variable {t rest : Text} {cursor : Nat}

theorem escapesAt?_cons {c : Char} (hc : c ≠ '\\') (offset : Nat)
    (h : HasRestAt t (c :: rest) cursor) :
    t.escapesAt? offset cursor = t.escapesAt? offset (cursor + c.utf8Size) := by
  rw [escapesAt?_add (byteChar_ne_backslash hc) h.drop_bytes, String.length_utf8EncodeChar]

theorem escapesAt?_escape {c : Char} (offset : Nat) (h : HasRestAt t ('\\' :: c :: rest) cursor) :
    t.escapesAt? offset cursor =
      if isEscape c rest then
        escapesAt? offset t (cursor + (1 + c.utf8Size))
      else do
        return ⟨.invalidEscape, ⟨offset + cursor, 1 + c.utf8Size⟩⟩ ::
          (← escapesAt? offset t (cursor + (1 + c.utf8Size))) := by
  have hbehind : HasRestAt t (c :: rest) (cursor + 1) := h.cons
  obtain ⟨b, hfirst, hb⟩ := h.exists_byte
  obtain ⟨e, hsecond, he⟩ := hbehind.exists_byte
  have hback : byteChar b = '\\' := (hb.eq_iff (by decide)).mpr rfl
  have hletter : isEscapeLetter (byteChar e) = isEscapeLetter c :=
    he.apply_eq fun _ => toNat_le_of_isEscapeLetter
  have hdigit : byteChar e = 'x' ∧ t.bytes[cursor + 2]?.any (isHexDigit <| byteChar ·) = true ↔
      c = 'x' ∧ rest.head?.any isHexDigit = true := by
    rw [he.eq_iff (by decide)]
    refine and_congr_right fun heq => ?_
    subst heq
    rw [← hbehind.cons.any_byte fun _ => toNat_le_of_isHexDigit]
    rfl
  rw [escapesAt?_backslash hfirst hback hsecond, hletter]
  by_cases hc : isEscapeLetter c = true
  · rw [if_pos hc, isEscape, hc, utf8Size_eq_one (toNat_le_of_isEscapeLetter hc)]
    rfl
  rw [if_neg hc, hbehind.from?_eq]
  by_cases hescape : c = 'x' ∧ rest.head?.any isHexDigit = true
  · rw [if_pos (hdigit.mpr hescape)]
    obtain ⟨rfl, hhex⟩ := hescape
    cases rest with
    | nil => contradiction
    | cons d rest =>
      -- the digit is passed here, and by itself among the characters
      have hd : isHexDigit d = true := hhex
      have hne : d ≠ '\\' := by
        rintro rfl
        contradiction
      have hpassed := hbehind.cons.escapesAt?_cons hne offset
      rw [utf8Size_eq_one (toNat_le_of_isHexDigit hd)] at hpassed
      rw [isEscape, hhex]
      exact hpassed.symm
  · rw [if_neg (mt hdigit.mp hescape)]
    simp [isEscape, hc, hescape]

/-- The bytes are read as the characters are, if no backslash is left alone at the end. -/
theorem escapesAt?_eq (offset : Nat) (h : HasRestAt t rest cursor) (hends : ¬ EndsEscaped rest) :
    t.escapesAt? offset cursor = some (rest.invalidEscapes (offset + cursor)) := by
  generalize hplace : offset + cursor = place
  induction place, rest using invalidEscapes.induct generalizing cursor with
  | case1 place => exact escapesAt?_end h.getElem?_bytes
  | case2 place c rest hescape ih =>
    have hlater : HasRestAt t rest (cursor + (1 + c.utf8Size)) := @append t ['\\', c] rest cursor h
    have hnext := ih hlater ((endsEscaped_escape_iff c rest).not.mp hends) (by omega)
    rw [h.escapesAt?_escape, if_pos hescape, hnext, invalidEscapes, if_pos hescape]
  | case3 place c rest hescape ih =>
    have hlater : HasRestAt t rest (cursor + (1 + c.utf8Size)) := @append t ['\\', c] rest cursor h
    have hnext := ih hlater ((endsEscaped_escape_iff c rest).not.mp hends) (by omega)
    rw [h.escapesAt?_escape, if_neg hescape, hnext, hplace, invalidEscapes, if_neg hescape]
    rfl
  | case4 place c rest hnot ih =>
    by_cases hc : c = '\\'
    · -- a backslash at the end would escape what follows
      obtain rfl := eq_nil_of_backslash hnot hc
      exact absurd (by subst hc; decide) hends
    · have hnext := ih h.cons ((endsEscaped_cons_iff hc rest).not.mp hends) (by omega)
      rw [h.escapesAt?_cons hc, hnext, invalidEscapes]
      exact hnot

end HasRestAt

/-! ### The check -/

theorem not_endsEscaped_of_interior?_eq {t interior : Text} (h : interior? t = some interior) :
    ¬ EndsEscaped interior := by
  cases t with
  | nil => contradiction
  | cons quote rest =>
    rw [interior?] at h
    split at h
    · rename_i hclosed
      obtain rfl := Option.some.inj h
      exact hclosed.2
    · contradiction

theorem cutInterior?_eq (quote : Char) (rest : Text) :
    cutInterior? quote (quote :: rest) = interior? (quote :: rest) := by
  cases rest with
  | nil =>
    -- the only quote cannot be both the first and the last one
    have hnone : from? [] quote.utf8Size = none := if_neg (Nat.not_le.mpr quote.utf8Size_pos)
    simp [cutInterior?, interior?, hnone]
  | cons c rest =>
    have hrest : HasRestAt (quote :: (c :: rest).dropLast) (c :: rest).dropLast quote.utf8Size :=
      ⟨[quote], rfl, Nat.add_zero _⟩
    rw [cutInterior?, interior?, List.getLast?_cons_cons, List.dropLast_cons_cons, hrest.from?_eq]
    by_cases hlast : (c :: rest).getLast? = some quote
    · simp [hlast, Option.filter, ← endsEscaped_bytes_iff]
    · simp [hlast]

end Text

/-- **The check has a value for every token**, whatever its text is. -/
theorem Token.quotedFindings?_eq (k : Token) : k.quotedFindings? = some k.quotedFindings := by
  cases htext : k.text with
  | nil => simp [quotedFindings?, quotedFindings, htext]
  | cons quote rest =>
    simp only [quotedFindings?, quotedFindings, htext, Text.cutInterior?_eq]
    split
    · rfl
    cases hinterior : Text.interior? (quote :: rest) with
    | none => rfl
    | some interior =>
      have hends := Text.not_endsEscaped_of_interior?_eq hinterior
      exact (Text.hasRestAt_zero interior).escapesAt?_eq _ hends

end PipeLint
