import PipeLint.Proofs.Token.Quoted

/-!
# Quoting and tokens

The quoting reads a text character by character; a text is cut into tokens by another reader, which
knows quotes only where a token starts. The two stay in step as long as no word leaves a quote open:
between two tokens the quoting is outside quotes, and an escape can be pending only if what it
covers is no part of a word. So a text ends inside quotes exactly if its last token is a string that
is not closed.

## Main definitions

* `PipeLint.Token.IsOpen`: a quoted token that is not closed.
* `PipeLint.Quoting.InStep`: the quoting between two tokens.

## Main results

* `PipeLint.Quoting.InStep.scan_first`: one token keeps the two readers in step.
* `PipeLint.Text.endsQuoted_iff_exists_isOpen`: what holds for a whole text.
* `PipeLint.Text.exists_tokens_eq_of_isOpen`: only the last token can be open.
-/

namespace PipeLint

/-- A quoted token that is not closed. -/
def Token.IsOpen (k : Token) : Prop :=
  k.kind = .quoted ∧ k.text.EndsQuoted

instance (k : Token) : Decidable k.IsOpen :=
  inferInstanceAs (Decidable (_ ∧ _))

/-! ### Characters of words -/

theorem isWordCharacter_of_isQuote {c : Char} (h : isQuote c = true) :
    isWordCharacter c = true := by
  rcases isQuote_eq_true_iff.mp h with rfl | rfl <;> decide

theorem isPlain_of_mem_commandNames {t : Text} (h : t ∈ commandNames) :
    ∀ c ∈ t, isPlain c = true := by
  have hall : commandNames.all (·.all isPlain) = true := by decide
  exact List.all_eq_true.mp (List.all_eq_true.mp hall t h)

namespace Quoting

/-! ### One token -/

/-- The quoting where the reader of tokens stands between two tokens: outside quotes, and an escape
is pending only if the next character is no part of a word. -/
structure InStep (q : Quoting) (t : Text) : Prop where
  /-- No quote is open. -/
  openQuote_eq : q.openQuote = none
  /-- A pending escape covers nothing that a token other than a stray character could start with. -/
  head_of_escaped : q.escaped = true → ∀ c, t.head? = some c → isWordCharacter c = false

theorem inStep_neutral (t : Text) : InStep neutral t :=
  ⟨rfl, fun h => absurd h (by simp)⟩

namespace InStep

variable {q : Quoting} {c : Char} {t : Text}

theorem eq_neutral (h : InStep q (c :: t)) (hc : isWordCharacter c = true) : q = neutral := by
  refine Quoting.ext h.openQuote_eq (Bool.eq_false_iff.mpr fun hescaped => ?_)
  simp [h.head_of_escaped hescaped c rfl] at hc

theorem step_eq_neutral (h : InStep q (c :: t)) (hc : isPlain c = true) : q.step c = neutral :=
  step_of_isPlain h.openQuote_eq hc

/-- A quoted string is open and takes all that is left, or it leaves nothing behind. -/
theorem scan_quoted (hc : isQuote c = true) :
    ((Lexeme.quoted c t).text.EndsQuoted ∧ (Lexeme.quoted c t).rest = []) ∨
      neutral.scan (Lexeme.quoted c t).text = neutral := by
  rw [Lexeme.text_quoted, Lexeme.rest_quoted, Text.EndsQuoted, scan_cons,
    neutral_step_of_isQuote hc]
  rcases quotedSpan_cases c t with ⟨inner, rest, hspan, hinner⟩ | ⟨hspan, hopen, -⟩
  · rw [hspan]
    exact Or.inr (by rw [scan_append, hinner, scan_cons, within_step_self hc, scan_nil])
  · rw [hspan, hopen]
    exact Or.inl ⟨by simp, rfl⟩

/-- One token keeps the two readers in step, unless it is a string that is not closed; then it is
the last token, and the text ends inside quotes. -/
theorem scan_first (h : InStep q (c :: t)) (hblank : isBlank c = false)
    (hword : (Lexeme.first c t).kind = .word → ¬ (Lexeme.first c t).text.EndsQuoted) :
    ((Lexeme.first c t).kind = .quoted ∧ (Lexeme.first c t).text.EndsQuoted ∧
        (Lexeme.first c t).rest = [] ∧ (q.scan (Lexeme.first c t).text).openQuote ≠ none) ∨
      (¬ ((Lexeme.first c t).kind = .quoted ∧ (Lexeme.first c t).text.EndsQuoted) ∧
        InStep (q.scan (Lexeme.first c t).text) (Lexeme.first c t).rest) := by
  rcases Lexeme.first_cases c t with
    ⟨hc, heq⟩ | ⟨rfl, -, heq⟩ | ⟨hc, heq⟩ | ⟨hquote, -, hstray, heq⟩ <;> rw [heq] at hword ⊢
  · -- a quoted string
    obtain rfl := h.eq_neutral (isWordCharacter_of_isQuote hc)
    rcases scan_quoted (t := t) hc with ⟨hopen, hrest⟩ | hscan
    · exact Or.inl ⟨rfl, hopen, hrest, hopen⟩
    · refine Or.inr ⟨fun hopen => hopen.2 (by rw [hscan]), ?_⟩
      rw [hscan]
      exact inStep_neutral _
  · -- a group of flags
    obtain rfl := h.eq_neutral (by decide)
    have hplain : ∀ d ∈ (Lexeme.flags t).text, isPlain d = true := by
      refine List.forall_mem_cons.mpr ⟨by decide, fun d hd => ?_⟩
      exact isPlain_of_isFlagLetter (List.all_eq_true.mp List.all_takeWhile d hd)
    refine Or.inr ⟨by simp, ?_⟩
    rw [scan_neutral_of_isPlain hplain]
    exact inStep_neutral _
  · -- a stray character
    refine Or.inr ⟨by simp, ?_⟩
    rw [scan_cons, scan_nil, h.step_eq_neutral (isPlain_of_isStray hc)]
    exact inStep_neutral _
  · -- a word or a command
    obtain rfl := h.eq_neutral (by simp [isWordCharacter, hblank, hstray])
    have hrest : ∀ d, (Lexeme.word c t).rest.head? = some d → isWordCharacter d = false :=
      fun d hd => eq_false_of_head?_dropWhile (l := t) hd
    have hopen : (neutral.scan (Lexeme.word c t).text).openQuote = none := by
      by_cases hname : (Lexeme.word c t).text ∈ commandNames
      · rw [scan_neutral_of_isPlain (isPlain_of_mem_commandNames hname)]
      · refine not_not.mp (hword ?_)
        have hnot : ¬ ((Lexeme.word c t).text ∈ commandNames ∧
            (Lexeme.word c t).rest.head?.all isBlank = true) := fun h => hname h.1
        exact ite_cond_eq_false _ _ (eq_false hnot)
    refine Or.inr ⟨fun hopen' => hopen'.2 hopen, hopen, fun _ => hrest⟩

end InStep

end Quoting

namespace Text

open Quoting

/-! ### All tokens -/

/-- A text that is read in step with its tokens ends inside quotes exactly if a token is open. -/
theorem openQuote_scan_iff_exists_isOpen {offset : Nat} {t : Text}
    (hwords : ∀ k ∈ tokensFrom offset t, k.kind = .word → ¬ k.text.EndsQuoted) {q : Quoting}
    (hq : InStep q t) :
    (q.scan t).openQuote ≠ none ↔ ∃ k ∈ tokensFrom offset t, k.IsOpen := by
  revert q
  fun_induction tokensFrom offset t with
  | case1 =>
    intro q hq
    simp [hq.openQuote_eq]
  | case2 offset c t hc ih =>
    intro q hq
    rw [scan_cons, hq.step_eq_neutral (isPlain_of_isBlank hc)]
    exact ih hwords (inStep_neutral t)
  | case3 offset c t hc lexeme ih =>
    intro q hq
    obtain ⟨hword, hwords⟩ := List.forall_mem_cons.mp hwords
    rw [← Lexeme.text_append_rest_first c t, scan_append]
    simp only [List.mem_cons, exists_eq_or_imp]
    rcases hq.scan_first (by simpa using hc) hword with ⟨hkind, hends, hrest, hopen⟩ | ⟨hnot, hstep⟩
    · rw [hrest, scan_nil]
      exact iff_of_true hopen (Or.inl ⟨hkind, hends⟩)
    · rw [ih hwords hstep]
      exact (or_iff_right hnot).symm

/-- A text in which no word leaves a quote open ends inside quotes exactly if a token is open. -/
theorem endsQuoted_iff_exists_isOpen {t : Text}
    (hwords : ∀ k ∈ t.tokens, k.kind = .word → ¬ k.text.EndsQuoted) :
    t.EndsQuoted ↔ ∃ k ∈ t.tokens, k.IsOpen :=
  openQuote_scan_iff_exists_isOpen hwords (inStep_neutral t)

/-- An open string leaves nothing for a token behind it. -/
theorem rest_first_eq_nil {c : Char} {t : Text} (hblank : isBlank c = false)
    (hkind : (Lexeme.first c t).kind = .quoted) (hends : (Lexeme.first c t).text.EndsQuoted) :
    (Lexeme.first c t).rest = [] := by
  have hword : (Lexeme.first c t).kind = .word → ¬ (Lexeme.first c t).text.EndsQuoted :=
    fun h => absurd (hkind.symm.trans h) (by decide)
  rcases (inStep_neutral (c :: t)).scan_first hblank hword with ⟨-, -, hrest, -⟩ | ⟨hnot, -⟩
  · exact hrest
  · exact absurd ⟨hkind, hends⟩ hnot

theorem exists_tokensFrom_eq_of_isOpen {offset : Nat} {t : Text} {k : Token}
    (hk : k ∈ tokensFrom offset t) (hopen : k.IsOpen) :
    ∃ init, tokensFrom offset t = init ++ [k] ∧ ∀ m ∈ init, ¬ m.IsOpen := by
  fun_induction tokensFrom offset t with
  | case1 => simp at hk
  | case2 offset c t hc ih => exact ih hk
  | case3 offset c t hc lexeme ih =>
    have hlast (hhead : Token.IsOpen ⟨lexeme.kind, lexeme.text, offset⟩) : lexeme.rest = [] :=
      rest_first_eq_nil (by simpa using hc) hhead.1 hhead.2
    rcases List.mem_cons.mp hk with rfl | hk
    · exact ⟨[], by rw [hlast hopen, tokensFrom_nil]; rfl, by simp⟩
    · obtain ⟨init, htokens, hinit⟩ := ih hk
      refine ⟨⟨lexeme.kind, lexeme.text, offset⟩ :: init, by rw [htokens]; rfl,
        List.forall_mem_cons.mpr ⟨fun hhead => ?_, hinit⟩⟩
      rw [hlast hhead, tokensFrom_nil] at hk
      exact List.not_mem_nil hk

theorem exists_tokens_eq_of_isOpen {t : Text} {k : Token} (hk : k ∈ t.tokens) (hopen : k.IsOpen) :
    ∃ init, t.tokens = init ++ [k] ∧ ∀ m ∈ init, ¬ m.IsOpen :=
  exists_tokensFrom_eq_of_isOpen hk hopen

end Text

end PipeLint
