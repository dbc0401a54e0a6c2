import Mathlib.Data.List.Basic
import PipeLint.Proofs.Bytes.Cursor
import PipeLint.Proofs.Grammar.Item

/-!
# Tokens read at a cursor

The reader of tokens moves a cursor over a text and cuts each token out between the cursor before it
and the cursor behind it. Each of its loops and slices is checked here. Between two tokens the
cursor is a place in the text, and the reader comes to such a place again; so it has a value for
every text, and this value is the tokens of the text.

## Main definitions

* `PipeLint.Text.read?`: what is read at a cursor, and the cursor behind it.
* `PipeLint.Text.tokens?`: the tokens of a text, read at a cursor.

## Main results

* `PipeLint.Text.HasRestAt.read?_eq`: one token is read as the first token of what is left.
* `PipeLint.Text.tokens?_eq`: the tokens that are read are the tokens of the text.
-/

namespace PipeLint.Text

/-! ### The reader -/

/-- The cursor behind the quote that closes a string, or at the end of the text. A backslash takes
the next character with it, if there is one. -/
def closing? (quote : Char) (t : Text) (cursor : Nat) : Option Nat := do
  match ← t.peek? cursor with
  | some c =>
    let next ← t.bump? cursor
    if c = '\\' then
      let later ← t.bump? next
      if _h : t.MovesOn cursor later then closing? quote t later else none
    else if c = quote then
      return next
    else
      if _h : t.MovesOn cursor next then closing? quote t next else none
  | none => return cursor
termination_by t.byteLength - cursor

/-- Whether a text starts with a word that white space or nothing follows. -/
def startsWith (t word : Text) : Bool :=
  (word.isPrefixOf? t).any (·.head?.all isBlank)

/-- The cursor behind the name of a command, if one stands at the cursor by itself. -/
def command? (t : Text) (cursor : Nat) : Option (Option Nat) := do
  let rest ← t.from? cursor
  return (commandNames.find? rest.startsWith).map fun name => cursor + byteLength name

/-- Whether a group of flags starts with the character at a cursor. -/
def startsFlags? (c : Char) (t : Text) (cursor : Nat) : Option Bool :=
  if c = '-' then do
    let rest ← t.from? cursor
    return rest[1]?.any isFlagLetter
  else
    some false

/-- What the character at a cursor starts, and the cursor behind it. -/
def read? (c : Char) (t : Text) (cursor : Nat) : Option (Token.Kind × Nat) :=
  if isQuote c then do
    return (.quoted, ← t.closing? c (← t.bump? cursor))
  else do
    if ← t.startsFlags? c cursor then
      return (.flags, ← t.skip? isFlagLetter (← t.bump? cursor))
    else if isStray c then
      return (.stray, ← t.bump? cursor)
    else
      match ← t.command? cursor with
      | some next => return (.command, next)
      | none => return (.word, ← t.skip? isWordCharacter cursor)

/-- The tokens of a text from a cursor on. -/
def tokensAt? (t : Text) (cursor : Nat) : Option (List Token) := do
  match ← t.peek? cursor with
  | some c =>
    if isBlank c then
      let next ← t.bump? cursor
      if _h : t.MovesOn cursor next then tokensAt? t next else none
    else
      let (kind, next) ← t.read? c cursor
      let text ← t.slice? cursor next
      if _h : t.MovesOn cursor next then
        return ⟨kind, text, cursor⟩ :: (← tokensAt? t next)
      else
        none
  | none => return []
termination_by t.byteLength - cursor

/-- The tokens of a text. -/
def tokens? (t : Text) : Option (List Token) :=
  t.tokensAt? 0

/-! ### Each token -/

section HasRestAt

variable {t rest : Text} {cursor : Nat}

/-- A string is read up to the quote that closes it. -/
theorem HasRestAt.closing?_eq {quote : Char} (hquote : isQuote quote = true)
    (h : HasRestAt t rest cursor) :
    t.closing? quote cursor = some (cursor + byteLength (quotedSpan quote rest).1) := by
  fun_induction quotedSpan quote rest generalizing cursor with
  | case1 =>
    rw [closing?, h.peek?_eq]
    rfl
  | case2 c rest body behind heq ih =>
    -- the backslash and the character after it
    have hmoves := @movesOn t ['\\', c] rest cursor h (List.cons_ne_nil _ _)
    have hnext := ih h.cons.cons
    rw [heq] at hnext
    rw [closing?, h.peek?_eq]
    simp [h.bump?_eq, h.cons.bump?_eq, ← Nat.add_assoc, hnext] at hmoves ⊢
    exact hmoves
  | case3 rest _ =>
    rw [closing?, h.peek?_eq]
    simp [h.bump?_eq, ne_backslash_of_isQuote hquote]
  | case4 c rest hescape hne body behind heq ih =>
    have hmoves := h.movesOn_cons
    have hnext := ih h.cons
    rw [heq] at hnext
    rw [closing?, h.peek?_eq]
    by_cases hback : c = '\\'
    · -- a backslash at the end of the text
      obtain rfl := eq_nil_of_backslash hescape hback
      obtain ⟨rfl, rfl⟩ := Prod.mk.inj heq
      subst hback
      simp [h.bump?_eq, h.cons.bump?_nil, hmoves, hnext]
    · simp [h.bump?_eq, hback, hne, hmoves, hnext, Nat.add_assoc]

theorem HasRestAt.startsFlags?_eq {c : Char} (h : HasRestAt t (c :: rest) cursor) :
    t.startsFlags? c cursor = some (decide (c = '-' ∧ rest.head?.any isFlagLetter = true)) := by
  rw [startsFlags?, h.from?_eq]
  by_cases hdash : c = '-'
  · simp [hdash, List.head?_eq_getElem?]
  · simp [hdash]

theorem kind_word_eq_command_iff (c : Char) (rest : Text) :
    (Lexeme.word c rest).kind = .command ↔
      (Lexeme.word c rest).text ∈ commandNames ∧
        (Lexeme.word c rest).rest.head?.all isBlank = true := by
  simp only [Lexeme.word]
  split
  · exact iff_of_true rfl ‹_›
  · exact iff_of_false Token.Kind.noConfusion ‹_›

/-- The name of a command that a text starts with, with white space or nothing behind it, is the
word that the text starts with. -/
theorem startsWith_iff {c : Char} (hc : isWordCharacter c = true) {name : Text}
    (hname : name ∈ commandNames) :
    startsWith (c :: rest) name = true ↔
      (Lexeme.word c rest).kind = .command ∧ (Lexeme.word c rest).text = name := by
  have hword : (Lexeme.word c rest).text ++ (Lexeme.word c rest).rest = c :: rest := by
    simp [Lexeme.word]
  rw [startsWith, Option.any_eq_true, kind_word_eq_command_iff]
  constructor
  · rintro ⟨behind, hbehind, hblank⟩
    have happend := List.isPrefixOf?_eq_some_iff_append_eq.mp hbehind
    obtain ⟨d, u, rfl, -, -, hrun⟩ := exists_of_mem_commandNames hname
    have hends : ∀ a, behind.head? = some a → isWordCharacter a = false := fun a ha => by
      rw [ha] at hblank
      exact isWordCharacter_eq_false_iff.mpr (Or.inl hblank)
    have hrun' : ∀ a ∈ (Lexeme.word c rest).text, isWordCharacter a = true :=
      List.forall_mem_cons.mpr ⟨hc, List.all_eq_true.mp List.all_takeWhile⟩
    have hends' : ∀ a, (Lexeme.word c rest).rest.head? = some a → isWordCharacter a = false :=
      fun _ => eq_false_of_head?_dropWhile
    obtain ⟨hname', hrest⟩ :=
      append_inj_of_run hrun hends hrun' hends' (happend.trans hword.symm)
    exact ⟨⟨hname' ▸ hname, hrest ▸ hblank⟩, hname'.symm⟩
  · rintro ⟨⟨-, hblank⟩, rfl⟩
    exact ⟨_, List.isPrefixOf?_eq_some_iff_append_eq.mpr hword, hblank⟩

theorem HasRestAt.command?_eq {c : Char} (hc : isWordCharacter c = true)
    (h : HasRestAt t (c :: rest) cursor) :
    t.command? cursor = some (if (Lexeme.word c rest).kind = .command then
      some (cursor + byteLength (Lexeme.word c rest).text) else none) := by
  have hfind : commandNames.find? (startsWith (c :: rest)) =
      if (Lexeme.word c rest).kind = .command then some (Lexeme.word c rest).text else none := by
    split
    · rename_i hkind
      have hmem := ((kind_word_eq_command_iff c rest).mp hkind).1
      have hself := (startsWith_iff hc hmem).mpr ⟨hkind, rfl⟩
      cases hname? : commandNames.find? _ with
      | none => exact absurd hself (List.find?_eq_none.mp hname? _ hmem)
      | some name =>
        have hname := List.mem_of_find?_eq_some hname?
        rw [((startsWith_iff hc hname).mp (List.find?_some hname?)).2]
    · rename_i hkind
      refine List.find?_eq_none.mpr fun name hname hany => ?_
      exact hkind ((startsWith_iff hc hname).mp hany).1
  rw [command?, h.from?_eq]
  simp only [Option.bind_eq_bind, Option.bind_some, hfind]
  split <;> rfl

/-- One token is read as the first token of what is left. -/
theorem HasRestAt.read?_eq {c : Char} (hblank : isBlank c = false)
    (h : HasRestAt t (c :: rest) cursor) :
    t.read? c cursor = some ((Lexeme.first c rest).kind,
      cursor + byteLength (Lexeme.first c rest).text) := by
  rw [read?, Lexeme.first]
  by_cases hquote : isQuote c = true
  · simp [hquote, h.bump?_eq, h.cons.closing?_eq hquote, Nat.add_assoc]
  rw [if_neg hquote, if_neg hquote, h.startsFlags?_eq]
  by_cases hflags : c = '-' ∧ rest.head?.any isFlagLetter = true
  · obtain ⟨rfl, hletter⟩ := hflags
    simp [hletter, h.bump?_eq, h.cons.skip?_eq, Lexeme.flags, Nat.add_assoc]
  by_cases hstray : isStray c = true
  · simp [hflags, hstray, h.bump?_eq]
  · have hc : isWordCharacter c = true := by simp [isWordCharacter, hblank, hstray]
    have hword : (c :: rest).takeWhile isWordCharacter = (Lexeme.word c rest).text :=
      List.takeWhile_cons_of_pos hc
    rw [if_neg hflags, if_neg hstray]
    simp only [hflags, hstray, decide_false, Option.bind_eq_bind, Option.bind_some,
      h.command?_eq hc]
    rcases Lexeme.kind_word c rest with hkind | hkind
    · simp [hkind]
    · simp [hkind, h.skip?_eq, hword]

theorem HasRestAt.tokensAt?_eq (h : HasRestAt t rest cursor) :
    t.tokensAt? cursor = some (tokensFrom cursor rest) := by
  fun_induction tokensFrom cursor rest with
  | case1 =>
    rw [tokensAt?, h.peek?_eq]
    rfl
  | case2 cursor c rest hblank ih =>
    have hmoves := h.movesOn_cons
    rw [tokensAt?, h.peek?_eq]
    simp [hblank, h.bump?_eq, ih h.cons, hmoves]
  | case3 cursor c rest hblank lexeme ih =>
    rw [Bool.not_eq_true] at hblank
    have hsplit : HasRestAt t (lexeme.text ++ lexeme.rest) cursor := by
      rwa [Lexeme.text_append_rest_first]
    have hmoves := hsplit.movesOn (Lexeme.text_first_ne_nil c rest)
    have hread : t.read? c cursor = some (lexeme.kind, cursor + byteLength lexeme.text) :=
      h.read?_eq hblank
    rw [tokensAt?, h.peek?_eq]
    simp [hblank, hread, hsplit.slice?_eq, ih hsplit.append, hmoves]

/-- **Every slice and every loop has a value.** The tokens read at a cursor are the tokens of the
text. -/
theorem tokens?_eq (t : Text) : t.tokens? = some t.tokens :=
  (hasRestAt_zero t).tokensAt?_eq

end HasRestAt

end PipeLint.Text
