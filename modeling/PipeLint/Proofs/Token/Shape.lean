import PipeLint.Proofs.Text.Place
import PipeLint.Token.Lexeme

/-!
# The shape of tokens

A token of a text stands in the text at its offset, and its kind says what its text looks like: a
group of flags is a dash and letters, a stray character stands alone, and a quoted string starts
with its quote. Nothing of this holds of tokens in general, only of those that a text is cut into.

## Main results

* `PipeLint.Lexeme.first_cases`: how the token at the start of a text is read.
* `PipeLint.Text.exists_of_mem_tokensFrom`: where a token comes from.
* `PipeLint.Text.hasPartAt_of_mem_tokens`: a token stands at its offset.
* `PipeLint.Text.exists_of_kind_eq_flags`, `PipeLint.Text.exists_of_kind_eq_stray`,
  `PipeLint.Text.exists_of_kind_eq_quoted`: the texts of tokens by kind.
-/

namespace PipeLint

namespace Lexeme

/-! ### The first token -/

/-- How the token at the start of a text is read, and what decides it. -/
theorem first_cases (c : Char) (t : Text) :
    (isQuote c = true ∧ first c t = quoted c t) ∨
      (c = '-' ∧ t.head?.any isFlagLetter = true ∧ first c t = flags t) ∨
      (isStray c = true ∧ first c t = ⟨.stray, [c], t⟩) ∨
      (isQuote c = false ∧ ¬ (c = '-' ∧ t.head?.any isFlagLetter = true) ∧ isStray c = false ∧
        first c t = word c t) := by
  by_cases hquote : isQuote c = true
  · exact Or.inl ⟨hquote, by simp [first, hquote]⟩
  by_cases hdash : c = '-' ∧ t.head?.any isFlagLetter = true
  · obtain ⟨rfl, hletter⟩ := hdash
    exact Or.inr (Or.inl ⟨rfl, hletter, by simp [first, hquote, hletter]⟩)
  by_cases hstray : isStray c = true
  · exact Or.inr (Or.inr (Or.inl ⟨hstray, by simp [first, hquote, hdash, hstray]⟩))
  · rw [Bool.not_eq_true] at hquote hstray
    exact Or.inr (Or.inr (Or.inr ⟨hquote, hdash, hstray, by simp [first, hquote, hdash, hstray]⟩))

@[simp]
theorem kind_quoted (quote : Char) (t : Text) : (quoted quote t).kind = .quoted := rfl

@[simp]
theorem text_quoted (quote : Char) (t : Text) :
    (quoted quote t).text = quote :: (quotedSpan quote t).1 := rfl

@[simp]
theorem rest_quoted (quote : Char) (t : Text) : (quoted quote t).rest = (quotedSpan quote t).2 :=
  rfl

@[simp]
theorem kind_flags (t : Text) : (flags t).kind = .flags := rfl

theorem kind_word (c : Char) (t : Text) : (word c t).kind = .command ∨ (word c t).kind = .word := by
  simp only [word]
  split
  · exact Or.inl rfl
  · exact Or.inr rfl

end Lexeme

/-! ### All tokens -/

namespace Text

/-- A token is the first token of what stands from its place on. -/
theorem exists_of_mem_tokensFrom {offset : Nat} {t : Text} {k : Token}
    (h : k ∈ tokensFrom offset t) :
    ∃ front c u, t = front ++ c :: u ∧ isBlank c = false ∧
      k = ⟨(Lexeme.first c u).kind, (Lexeme.first c u).text, offset + byteLength front⟩ := by
  fun_induction tokensFrom offset t with
  | case1 => simp at h
  | case2 offset c t hc ih =>
    obtain ⟨front, d, u, rfl, hd, rfl⟩ := ih h
    exact ⟨c :: front, d, u, rfl, hd, by simp [Nat.add_assoc]⟩
  | case3 offset c t hc lexeme ih =>
    rcases List.mem_cons.mp h with rfl | h
    · exact ⟨[], c, t, rfl, by simpa using hc, rfl⟩
    · obtain ⟨front, d, u, hrest, hd, rfl⟩ := ih h
      refine ⟨lexeme.text ++ front, d, u, ?_, hd, by simp [Nat.add_assoc]⟩
      rw [List.append_assoc, ← hrest, Lexeme.text_append_rest_first]

section Tokens

variable {t : Text} {k : Token} (h : k ∈ t.tokens)

include h

theorem exists_of_mem_tokens :
    ∃ front c u, t = front ++ c :: u ∧ isBlank c = false ∧
      k = ⟨(Lexeme.first c u).kind, (Lexeme.first c u).text, byteLength front⟩ := by
  simpa using exists_of_mem_tokensFrom h

/-- A token stands in its text at its offset. -/
theorem hasPartAt_of_mem_tokens : t.HasPartAt k.text k.offset := by
  obtain ⟨front, c, u, rfl, -, rfl⟩ := exists_of_mem_tokens h
  refine ⟨front, (Lexeme.first c u).rest, ?_, rfl⟩
  rw [List.append_assoc, Lexeme.text_append_rest_first]

/-- A group of flags is a dash and at least one letter. -/
theorem exists_of_kind_eq_flags (hkind : k.kind = .flags) :
    ∃ letters, k.text = '-' :: letters ∧ letters ≠ [] ∧ ∀ c ∈ letters, isFlagLetter c = true := by
  obtain ⟨front, c, u, -, -, rfl⟩ := exists_of_mem_tokens h
  rcases Lexeme.first_cases c u with
    ⟨-, heq⟩ | ⟨-, hletter, heq⟩ | ⟨-, heq⟩ | ⟨-, -, -, heq⟩ <;> simp only [heq] at hkind ⊢
  · simp at hkind
  · cases u with
    | nil => simp at hletter
    | cons d u =>
      have hflag : isFlagLetter d = true := by simpa using hletter
      exact ⟨(d :: u).takeWhile isFlagLetter, rfl, by simp [hflag],
        List.all_eq_true.mp List.all_takeWhile⟩
  · simp at hkind
  · rcases Lexeme.kind_word c u with hword | hword <;> simp [hword] at hkind

/-- A stray character is a token of its own. -/
theorem exists_of_kind_eq_stray (hkind : k.kind = .stray) :
    ∃ c, k.text = [c] ∧ isStray c = true := by
  obtain ⟨front, c, u, -, -, rfl⟩ := exists_of_mem_tokens h
  rcases Lexeme.first_cases c u with
    ⟨-, heq⟩ | ⟨-, -, heq⟩ | ⟨hc, heq⟩ | ⟨-, -, -, heq⟩ <;> simp only [heq] at hkind ⊢
  · simp at hkind
  · simp at hkind
  · exact ⟨c, rfl, hc⟩
  · rcases Lexeme.kind_word c u with hword | hword <;> simp [hword] at hkind

/-- A quoted string is read from its opening quote on. -/
theorem exists_of_kind_eq_quoted (hkind : k.kind = .quoted) :
    ∃ front quote u, t = front ++ quote :: u ∧ byteLength front = k.offset ∧
      isQuote quote = true ∧ k.text = quote :: (quotedSpan quote u).1 := by
  obtain ⟨front, c, u, ht, -, rfl⟩ := exists_of_mem_tokens h
  rcases Lexeme.first_cases c u with
    ⟨hc, heq⟩ | ⟨-, -, heq⟩ | ⟨-, heq⟩ | ⟨-, -, -, heq⟩ <;> simp only [heq] at hkind ⊢
  · exact ⟨front, c, u, ht, rfl, hc, rfl⟩
  · simp at hkind
  · simp at hkind
  · rcases Lexeme.kind_word c u with hword | hword <;> simp [hword] at hkind

end Tokens

end Text

end PipeLint
