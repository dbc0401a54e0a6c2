import PipeLint.FlagSet
import PipeLint.Proofs.Grammar.Interior
import PipeLint.Proofs.Quoting.Tokens

/-!
# The items of a stage

The grammar of stages knows four kinds of items: the name of a command, a group of flags, a quoted
string and a word. Whether a piece of text is such an item depends on what follows it, since names
end at white space, and groups of flags and words are as long as they can be. A word is read only
where the text does not start like one of the other items. The grammar says nothing about how a text
is read; the reader of tokens finds these items and no others.

## Main definitions

* `PipeLint.Item`: the items of a stage, with `Item.kind` and `Item.text`.
* `PipeLint.Item.Fits`: the items that can be read in front of a text.
* `PipeLint.Item.IsSearchable`: the items that give a stage something to search for.

## Main results

* `PipeLint.Item.Fits.exists_first_eq`: an item that fits is read as a token.
* `PipeLint.Item.exists_fits_of_first`: a token is an item that fits, unless it is a stray character
  or a string that is not closed.
-/

namespace PipeLint

/-! ### Runs of characters -/

theorem isWordCharacter_iff {c : Char} :
    isWordCharacter c = true ↔ isBlank c = false ∧ isControl c = false := by
  cases hblank : isBlank c <;> simp [isWordCharacter, isStray, hblank]

theorem isWordCharacter_eq_false_iff {c : Char} :
    isWordCharacter c = false ↔ isBlank c = true ∨ isControl c = true := by
  cases hblank : isBlank c <;> simp [isWordCharacter, isStray, hblank]

theorem not_isStray_of_isWordCharacter {c : Char} (h : isWordCharacter c = true) :
    isStray c = false := by
  simp only [isWordCharacter, Bool.and_eq_true, Bool.not_eq_true'] at h
  exact h.2

theorem isWordCharacter_of_isFlagLetter {c : Char} (h : isFlagLetter c = true) :
    isWordCharacter c = true := by
  have hrange : 48 ≤ c.toNat ∧ c.toNat ≤ 122 := by
    have hval : c.toNat = c.val.toNat := rfl
    simp [isFlagLetter, Char.le_def, UInt32.le_iff_toNat_le] at h
    omega
  refine isWordCharacter_iff.mpr ⟨?_, ?_⟩
  · simp only [isBlank, Unicode.inRanges, blankRanges, List.any_cons, List.any_nil,
      Bool.or_eq_false_iff, Bool.and_eq_false_iff, decide_eq_false_iff_not, and_true]
    omega
  · simp only [isControl, Bool.or_eq_false_iff, Bool.and_eq_false_iff, decide_eq_false_iff_not]
    omega

theorem isWordCharacter_of_mem_cons_takeWhile {c : Char} {t : Text} (hblank : isBlank c = false)
    (hstray : isStray c = false) :
    ∀ d ∈ c :: t.takeWhile isWordCharacter, isWordCharacter d = true := by
  refine List.forall_mem_cons.mpr ⟨?_, List.all_eq_true.mp List.all_takeWhile⟩
  simp [isWordCharacter, hblank, hstray]

theorem isFlagLetter_of_isBlank {c : Char} (h : isBlank c = true) : isFlagLetter c = false := by
  refine Bool.eq_false_iff.mpr fun hletter => ?_
  simp [(isWordCharacter_iff.mp (isWordCharacter_of_isFlagLetter hletter)).1] at h

/-- The names of commands are words that look like no other item. -/
theorem exists_of_mem_commandNames {name : Text} (h : name ∈ commandNames) :
    ∃ c t, name = c :: t ∧ isQuote c = false ∧ c ≠ '-' ∧
      ∀ d ∈ c :: t, isWordCharacter d = true := by
  simp only [commandNames, List.mem_cons, List.not_mem_nil, or_false] at h
  rcases h with rfl | rfl
  · exact ⟨'e', "grep".toList, rfl, by decide, by decide, List.all_eq_true.mp (by decide)⟩
  · exact ⟨'g', "rep".toList, rfl, by decide, by decide, List.all_eq_true.mp (by decide)⟩

theorem Lexeme.first_of_isStray {c : Char} (hc : isStray c = true) (t : Text) :
    first c t = ⟨.stray, [c], t⟩ := by
  have hquote : isQuote c = false := (isPlain_eq_true_iff.mp (isPlain_of_isStray hc)).2
  have hdash : c ≠ '-' := by
    rintro rfl
    exact absurd hc (by decide)
  rw [first, if_neg (by simp [hquote]), if_neg fun h => hdash h.1, if_pos hc]

/-- A run of characters that starts like no other item is read as a word or the name of a
command. -/
theorem Lexeme.first_eq_of_run {c : Char} {t rest : Text} (hquote : isQuote c = false)
    (hflags : ¬ (c = '-' ∧ (t ++ rest).head?.any isFlagLetter = true))
    (hrun : ∀ d ∈ c :: t, isWordCharacter d = true)
    (hrest : ∀ d, rest.head? = some d → isWordCharacter d = false) :
    first c (t ++ rest) =
      ⟨if c :: t ∈ commandNames ∧ rest.head?.all isBlank then .command else .word,
        c :: t, rest⟩ := by
  obtain ⟨hc, ht⟩ := List.forall_mem_cons.mp hrun
  have hstray : isStray c = false := not_isStray_of_isWordCharacter hc
  rw [first, if_neg (by simp [hquote]), if_neg hflags, if_neg (by simp [hstray]),
    word, takeWhile_append_eq ht hrest, dropWhile_append_eq ht hrest]

/-! ### Items -/

/-- An item of a stage, without the place where it stands. -/
inductive Item where
  /-- The name of a search command. -/
  | command (name : Text)
  /-- A dash and letters. -/
  | flags (letters : Text)
  /-- A string between two quotes. -/
  | quoted (quote : Char) (inner : Text)
  /-- A word without quotes around it. -/
  | word (text : Text)
deriving DecidableEq, Repr

namespace Item

/-- What an item is as a token. -/
def kind : Item → Token.Kind
  | command _ => .command
  | flags _ => .flags
  | quoted _ _ => .quoted
  | word _ => .word

theorem kind_ne_stray (i : Item) : i.kind ≠ .stray := by
  cases i <;> simp [kind]

/-- What an item is spelled like. -/
def text : Item → Text
  | command name => name
  | flags letters => '-' :: letters
  | quoted quote inner => quote :: (inner ++ [quote])
  | word text => text

/-- Whether an item gives its stage something to search for: strings and words do, and so do groups
of flags with a letter that is not supported. -/
def IsSearchable (supported : FlagSet) : Item → Prop
  | command _ => False
  | flags letters => ∃ c ∈ letters, c ∉ supported
  | quoted _ _ => True
  | word _ => True

/-! ### What can be read -/

/-- The name of a command is followed by white space or by nothing. -/
structure FitsCommand (rest name : Text) : Prop where
  mem_commandNames : name ∈ commandNames
  ends : ∀ c, rest.head? = some c → isBlank c = true

/-- A group of flags has a letter, and all the letters that there are. -/
structure FitsFlags (rest letters : Text) : Prop where
  ne_nil : letters ≠ []
  letter : ∀ c ∈ letters, isFlagLetter c = true
  ends : ∀ c, rest.head? = some c → isFlagLetter c = false

/-- A quoted string goes from a quote to the first one that is not escaped. -/
structure FitsQuoted (quote : Char) (inner : Text) : Prop where
  opening : isQuote quote = true
  interior : inner.IsInterior quote

/-- A word is as long as it can be, and stands where the text does not start like another item. -/
structure FitsWord (rest text : Text) : Prop where
  ne_nil : text ≠ []
  character : ∀ c ∈ text, isBlank c = false ∧ isControl c = false
  ends : ∀ c, rest.head? = some c → isBlank c = true ∨ isControl c = true
  not_command : ∀ name back, FitsCommand back name → text ++ rest ≠ name ++ back
  not_flags : ∀ letters back, FitsFlags back letters → text ++ rest ≠ '-' :: letters ++ back
  not_quote : ∀ c, text.head? = some c → isQuote c = false

/-- Whether an item can be read in front of a text. -/
def Fits (rest : Text) : Item → Prop
  | command name => FitsCommand rest name
  | flags letters => FitsFlags rest letters
  | quoted quote inner => FitsQuoted quote inner
  | word text => FitsWord rest text

theorem fitsFlags_of_head {t : Text} (h : t.head?.any isFlagLetter = true) :
    FitsFlags (t.dropWhile isFlagLetter) (t.takeWhile isFlagLetter) where
  ne_nil := by
    cases t with
    | nil => simp at h
    | cons c t =>
      have hc : isFlagLetter c = true := by simpa using h
      simp [hc]
  letter := List.all_eq_true.mp List.all_takeWhile
  ends _ := eq_false_of_head?_dropWhile

theorem FitsFlags.any_head {rest letters : Text} (h : FitsFlags rest letters) :
    (letters ++ rest).head?.any isFlagLetter = true := by
  obtain ⟨c, t, rfl⟩ := List.exists_cons_of_ne_nil h.ne_nil
  simpa using h.letter c List.mem_cons_self

theorem fitsCommand_iff {rest name : Text} :
    FitsCommand rest name ↔ name ∈ commandNames ∧ rest.head?.all isBlank = true := by
  rw [Option.all_eq_true]
  exact ⟨fun h => ⟨h.mem_commandNames, h.ends⟩, fun h => ⟨h.1, h.2⟩⟩

/-! ### Items are tokens -/

variable {rest : Text}

theorem FitsCommand.isWordCharacter_eq_false {name : Text} (h : FitsCommand rest name) :
    ∀ c, rest.head? = some c → isWordCharacter c = false :=
  fun c hc => isWordCharacter_eq_false_iff.mpr (Or.inl (h.ends c hc))

theorem FitsCommand.exists_first_eq {name : Text} (h : FitsCommand rest name) :
    ∃ c t, name ++ rest = c :: t ∧ isBlank c = false ∧
      Lexeme.first c t = ⟨.command, name, rest⟩ := by
  obtain ⟨c, t, rfl, hquote, hdash, hrun⟩ := exists_of_mem_commandNames h.mem_commandNames
  have hblank := (isWordCharacter_iff.mp (hrun c List.mem_cons_self)).1
  refine ⟨c, t ++ rest, rfl, hblank, ?_⟩
  rw [Lexeme.first_eq_of_run hquote (fun hflags => hdash hflags.1) hrun h.isWordCharacter_eq_false,
    if_pos (fitsCommand_iff.mp h)]

theorem FitsFlags.exists_first_eq {letters : Text} (h : FitsFlags rest letters) :
    ∃ c t, '-' :: letters ++ rest = c :: t ∧ isBlank c = false ∧
      Lexeme.first c t = ⟨.flags, '-' :: letters, rest⟩ := by
  refine ⟨'-', letters ++ rest, rfl, by decide, ?_⟩
  rw [Lexeme.first, if_neg (by decide), if_pos ⟨rfl, h.any_head⟩, Lexeme.flags,
    takeWhile_append_eq h.letter h.ends, dropWhile_append_eq h.letter h.ends]

theorem FitsQuoted.exists_first_eq {quote : Char} {inner : Text} (h : FitsQuoted quote inner) :
    ∃ c t, quote :: (inner ++ [quote]) ++ rest = c :: t ∧ isBlank c = false ∧
      Lexeme.first c t = ⟨.quoted, quote :: (inner ++ [quote]), rest⟩ := by
  have hblank := (isWordCharacter_iff.mp (isWordCharacter_of_isQuote h.opening)).1
  refine ⟨quote, inner ++ quote :: rest, by simp, hblank, ?_⟩
  rw [Lexeme.first, if_pos h.opening, Lexeme.quoted,
    Text.quotedSpan_of_isInterior h.opening h.interior]

theorem FitsWord.not_dash {c : Char} {t : Text} (h : FitsWord rest (c :: t)) :
    ¬ (c = '-' ∧ (t ++ rest).head?.any isFlagLetter = true) := by
  rintro ⟨rfl, hletter⟩
  exact h.not_flags _ _ (fitsFlags_of_head hletter) (by simp)

theorem FitsWord.exists_first_eq {text : Text} (h : FitsWord rest text) :
    ∃ c t, text ++ rest = c :: t ∧ isBlank c = false ∧
      Lexeme.first c t = ⟨.word, text, rest⟩ := by
  obtain ⟨c, t, rfl⟩ := List.exists_cons_of_ne_nil h.ne_nil
  have hname : ¬ FitsCommand rest (c :: t) := fun hfits => h.not_command _ _ hfits rfl
  refine ⟨c, t ++ rest, rfl, (h.character c List.mem_cons_self).1, ?_⟩
  rw [Lexeme.first_eq_of_run (h.not_quote c rfl) h.not_dash
    (fun d hd => isWordCharacter_iff.mpr (h.character d hd))
    (fun d hd => isWordCharacter_eq_false_iff.mpr (h.ends d hd)),
    if_neg (mt fitsCommand_iff.mpr hname)]

/-- An item that fits is read as a token. -/
theorem Fits.exists_first_eq {i : Item} (h : i.Fits rest) :
    ∃ c t, i.text ++ rest = c :: t ∧ isBlank c = false ∧
      Lexeme.first c t = ⟨i.kind, i.text, rest⟩ := by
  cases i with
  | command name => exact FitsCommand.exists_first_eq h
  | flags letters => exact FitsFlags.exists_first_eq h
  | quoted quote inner => exact FitsQuoted.exists_first_eq h
  | word text => exact FitsWord.exists_first_eq h

theorem Fits.not_endsQuoted {i : Item} (h : i.Fits rest) (hkind : i.kind = .quoted) :
    ¬ i.text.EndsQuoted := by
  cases i with
  | quoted quote inner =>
    obtain ⟨hquote, hinner⟩ := h
    rw [text, Text.EndsQuoted, Quoting.scan_cons, Quoting.neutral_step_of_isQuote hquote,
      Quoting.scan_append, hinner.scan_within hquote,
      Quoting.scan_cons, Quoting.within_step_self hquote]
    simp
  | command name => simp [kind] at hkind
  | flags letters => simp [kind] at hkind
  | word text => simp [kind] at hkind

theorem Fits.isBlank_of_head? {i : Item} (h : i.Fits rest) {c : Char}
    (hc : (i.text ++ rest).head? = some c) : isBlank c = false := by
  obtain ⟨d, t, happend, hblank, -⟩ := h.exists_first_eq
  rw [happend, List.head?_cons] at hc
  exact Option.some.inj hc ▸ hblank

theorem Fits.isBlank_of_getLast? {i : Item} (h : i.Fits rest) {c : Char}
    (hc : i.text.getLast? = some c) : isBlank c = false := by
  have hword {d : Char} (hd : isWordCharacter d = true) : isBlank d = false :=
    (isWordCharacter_iff.mp hd).1
  cases i with
  | command name =>
    obtain ⟨d, t, rfl, -, -, hrun⟩ := exists_of_mem_commandNames h.mem_commandNames
    exact hword (hrun c (List.mem_of_getLast? hc))
  | flags letters =>
    rcases List.mem_cons.mp (List.mem_of_getLast? hc) with rfl | hmem
    · decide
    · exact hword (isWordCharacter_of_isFlagLetter (h.letter c hmem))
  | quoted quote inner =>
    rw [text, ← List.cons_append, List.getLast?_concat] at hc
    obtain rfl := Option.some.inj hc
    exact hword (isWordCharacter_of_isQuote h.opening)
  | word text => exact (h.character c (List.mem_of_getLast? hc)).1

/-! ### Tokens are items -/

/-- A run of characters that is not the name of a command is a word, if it stands where no other
item starts. -/
theorem fitsWord_of_run {c : Char} {t : Text} (hquote : isQuote c = false)
    (hflags : ¬ (c = '-' ∧ (t ++ rest).head?.any isFlagLetter = true))
    (hrun : ∀ d ∈ c :: t, isWordCharacter d = true)
    (hrest : ∀ d, rest.head? = some d → isWordCharacter d = false)
    (hname : ¬ FitsCommand rest (c :: t)) : FitsWord rest (c :: t) where
  ne_nil := List.cons_ne_nil c t
  character d hd := isWordCharacter_iff.mp (hrun d hd)
  ends d hd := isWordCharacter_eq_false_iff.mp (hrest d hd)
  not_command name back hfits heq := by
    -- the name would be the same run of characters
    have hback := hfits.isWordCharacter_eq_false
    obtain ⟨_, _, rfl, -, -, hrun'⟩ := exists_of_mem_commandNames hfits.mem_commandNames
    obtain ⟨htext, rfl⟩ := append_inj_of_run hrun hrest hrun' hback heq
    exact hname (htext ▸ hfits)
  not_flags letters back hfits heq := by
    simp only [List.cons_append, List.cons.injEq] at heq
    obtain ⟨rfl, ht⟩ := heq
    exact hflags ⟨rfl, ht ▸ hfits.any_head⟩
  not_quote d hd := Option.some.inj hd ▸ hquote

/-- A token is an item that fits, unless it is a stray character or a string that is not closed. -/
theorem exists_fits_of_first {c : Char} {t : Text} (hblank : isBlank c = false)
    (hstray : (Lexeme.first c t).kind ≠ .stray)
    (hopen : (Lexeme.first c t).kind = .quoted → ¬ (Lexeme.first c t).text.EndsQuoted) :
    ∃ i : Item, i.Fits (Lexeme.first c t).rest ∧ i.kind = (Lexeme.first c t).kind ∧
      i.text = (Lexeme.first c t).text := by
  rcases Lexeme.first_cases c t with
    ⟨hc, heq⟩ | ⟨rfl, hletter, heq⟩ | ⟨-, heq⟩ | ⟨hquote, hflags, hplain, heq⟩ <;>
    rw [heq] at hstray hopen ⊢
  · -- a quoted string
    obtain ⟨inner, rest, hinner, rfl⟩ := Text.exists_isInterior_of_not_endsQuoted hc (hopen rfl)
    refine ⟨quoted c inner, ⟨hc, hinner⟩, rfl, ?_⟩
    rw [Lexeme.text_quoted, Text.quotedSpan_of_isInterior hc hinner]
    rfl
  · exact ⟨flags (t.takeWhile isFlagLetter), fitsFlags_of_head hletter, rfl, rfl⟩
  · exact absurd rfl hstray
  · -- a word or the name of a command
    have hrun := isWordCharacter_of_mem_cons_takeWhile (t := t) hblank hplain
    have hends : ∀ d, (Lexeme.word c t).rest.head? = some d → isWordCharacter d = false :=
      fun d hd => eq_false_of_head?_dropWhile (l := t) hd
    by_cases hname : FitsCommand (Lexeme.word c t).rest (Lexeme.word c t).text
    · exact ⟨command _, hname, (if_pos (fitsCommand_iff.mp hname)).symm, rfl⟩
    · have happend : t.takeWhile isWordCharacter ++ (Lexeme.word c t).rest = t :=
        List.takeWhile_append_dropWhile
      refine ⟨word _, fitsWord_of_run hquote (by rwa [happend]) hrun hends hname, ?_, rfl⟩
      exact (if_neg (mt fitsCommand_iff.mpr hname)).symm

end Item

end PipeLint
