import PipeLint.Proofs.Grammar.Reading

/-!
# Tokens on their own

What a piece of text is read as depends on what follows it, but a token that has been read is the
same token when nothing follows. Names, groups of flags, words and closed strings go no further
alone than they did, an open string has nothing behind it in any case, and a stray character always
stands alone. The one exception is a word with the spelling of a name: a stray character behind it
keeps it from being the name of a command, and alone it is one.

## Main results

* `PipeLint.Item.Fits.alone`: items that fit in front of a text fit on their own.
* `PipeLint.Text.tokens_text_of_mem_tokens`: tokens that are read on their own.
-/

namespace PipeLint

/-! ### Items -/

namespace Item

variable {rest : Text}

theorem FitsCommand.alone {name : Text} (h : FitsCommand rest name) : FitsCommand [] name :=
  ⟨h.mem_commandNames, by simp⟩

theorem FitsFlags.alone {letters : Text} (h : FitsFlags rest letters) : FitsFlags [] letters :=
  ⟨h.ne_nil, h.letter, by simp⟩

/-- A word is a word on its own, unless it is spelled like the name of a command. -/
theorem FitsWord.alone {text : Text} (h : FitsWord rest text) (hname : text ∉ commandNames) :
    FitsWord [] text := by
  obtain ⟨c, t, rfl⟩ := List.exists_cons_of_ne_nil h.ne_nil
  -- a dash before a letter of the word would start a group of flags in front of any text
  have hdash : ¬ (c = '-' ∧ (t ++ []).head?.any isFlagLetter = true) := by
    rintro ⟨hc, hletter⟩
    cases t with
    | nil => simp at hletter
    | cons d t => exact h.not_dash ⟨hc, hletter⟩
  exact fitsWord_of_run (h.not_quote c rfl) hdash
    (fun d hd => isWordCharacter_iff.mpr (h.character d hd)) (by simp)
    fun hfits => hname hfits.mem_commandNames

/-- An item is the same item on its own, unless it is a word that is spelled like the name of a
command. -/
theorem Fits.alone {i : Item} (h : i.Fits rest)
    (hname : i.kind = .word → i.text ∉ commandNames) : i.Fits [] := by
  cases i with
  | command name => exact FitsCommand.alone h
  | flags letters => exact FitsFlags.alone h
  | quoted quote inner => exact ⟨h.opening, h.interior⟩
  | word text => exact FitsWord.alone h (hname rfl)

theorem Fits.tokens_text {i : Item} (h : i.Fits []) :
    Text.tokens i.text = [⟨i.kind, i.text, 0⟩] := by
  have happend := h.tokensFrom_append 0
  rwa [List.append_nil, Text.tokensFrom_nil] at happend

/-- A word that is spelled like the name of a command has a stray character behind it. -/
theorem FitsWord.exists_stray_of_mem {text : Text} (h : FitsWord rest text)
    (hname : text ∈ commandNames) :
    ∃ c back, rest = c :: back ∧ isControl c = true ∧ isBlank c = false := by
  have hnot : ¬ ∀ c, rest.head? = some c → isBlank c = true :=
    fun hends => h.not_command text rest ⟨hname, hends⟩ rfl
  simp only [not_forall] at hnot
  obtain ⟨c, hhead, hblank⟩ := hnot
  obtain ⟨back, rfl⟩ := List.head?_eq_some_iff.mp hhead
  exact ⟨c, back, rfl, (h.ends c rfl).resolve_left hblank, by simpa using hblank⟩

end Item

/-! ### Tokens -/

namespace Text

variable {t : Text} {k : Token}

theorem tokens_of_isStray {c : Char} (hc : isStray c = true) :
    tokens [c] = [⟨.stray, [c], 0⟩] := by
  have hblank : isBlank c = false := by
    simpa using ((Bool.and_eq_true _ _).mp hc).2
  rw [tokens, tokensFrom_cons_of_not_isBlank hblank, Lexeme.first_of_isStray hc, tokensFrom_nil]

theorem tokens_text_first {c : Char} {u : Text} (hblank : isBlank c = false)
    (hrest : (Lexeme.first c u).rest = []) :
    tokens (Lexeme.first c u).text =
      [⟨(Lexeme.first c u).kind, (Lexeme.first c u).text, 0⟩] := by
  have htext : (Lexeme.first c u).text = c :: u := by
    rw [← Lexeme.text_append_rest_first c u, hrest, List.append_nil]
  rw [htext, tokens, tokensFrom_cons_of_not_isBlank hblank, hrest, tokensFrom_nil, htext]

/-- **Tokens are read on their own as they were read.** A token of a text is the only token of its
own text, with the same kind, unless it is a word that is spelled like the name of a command. Such a
word is the name of a command on its own; it stands only where the next character is a control
character that is not white space. -/
theorem tokens_text_of_mem_tokens (hk : k ∈ t.tokens) :
    (¬ (k.kind = .word ∧ k.text ∈ commandNames) → tokens k.text = [⟨k.kind, k.text, 0⟩]) ∧
      (k.kind = .word → k.text ∈ commandNames →
        tokens k.text = [⟨.command, k.text, 0⟩] ∧
          ∃ front c back, t = front ++ k.text ++ c :: back ∧ front.byteLength = k.offset ∧
            isControl c = true ∧ isBlank c = false) := by
  by_cases hstray : k.kind = .stray
  · obtain ⟨c, htext, hc⟩ := exists_of_kind_eq_stray hk hstray
    refine ⟨fun _ => ?_, fun hword => absurd (hstray.symm.trans hword) (by decide)⟩
    rw [hstray, htext, tokens_of_isStray hc]
  obtain ⟨front, c, u, rfl, hblank, rfl⟩ := exists_of_mem_tokens hk
  by_cases hopen : (Lexeme.first c u).kind = .quoted ∧ (Lexeme.first c u).text.EndsQuoted
  · have hrest := rest_first_eq_nil hblank hopen.1 hopen.2
    exact ⟨fun _ => tokens_text_first hblank hrest,
      fun hword => absurd (hopen.1.symm.trans hword) (by decide)⟩
  obtain ⟨i, hfits, hkind, htext⟩ := Item.exists_fits_of_first hblank hstray
    fun hquoted hends => hopen ⟨hquoted, hends⟩
  have happend : i.text ++ (Lexeme.first c u).rest = c :: u := by
    rw [htext, Lexeme.text_append_rest_first]
  simp only [← hkind, ← htext]
  constructor
  · intro hname
    exact (hfits.alone fun hword hmem => hname ⟨hword, hmem⟩).tokens_text
  · intro hword hname
    cases i with
    | word text =>
      have halone : Item.Fits [] (.command text) := ⟨hname, by simp⟩
      obtain ⟨d, back, hrest, hcontrol, hnot⟩ :=
        Item.FitsWord.exists_stray_of_mem hfits hname
      refine ⟨halone.tokens_text, front, d, back, ?_, rfl, hcontrol, hnot⟩
      rw [← happend, hrest, List.append_assoc]
    | command name => simp [Item.kind] at hword
    | flags letters => simp [Item.kind] at hword
    | quoted quote inner => simp [Item.kind] at hword

/-- A name with a stray character behind it, and a string that an escaped quote leaves open. -/
theorem tokens_text_of_mem_tokens_name :
    (⟨.word, "grep".toList, 0⟩ ∈ tokens "grep\u0001 -v'a\\'".toList ∧
        tokens "grep".toList = [⟨.command, "grep".toList, 0⟩]) ∧
      ⟨.quoted, "'a\\'".toList, 8⟩ ∈ tokens "grep\u0001 -v'a\\'".toList ∧
        tokens "'a\\'".toList = [⟨.quoted, "'a\\'".toList, 0⟩] := by
  have hword : ⟨.word, "grep".toList, 0⟩ ∈ tokens "grep\u0001 -v'a\\'".toList := by
    decide +kernel
  have hquoted : ⟨.quoted, "'a\\'".toList, 8⟩ ∈ tokens "grep\u0001 -v'a\\'".toList := by
    decide +kernel
  exact ⟨⟨hword, ((tokens_text_of_mem_tokens hword).2 rfl (by decide)).1⟩, hquoted,
    (tokens_text_of_mem_tokens hquoted).1 (by decide)⟩

end Text

end PipeLint
