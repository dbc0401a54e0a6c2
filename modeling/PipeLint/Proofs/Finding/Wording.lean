import PipeLint.Finding

/-!
# The wording of faults

A report shows the wording of a fault and not its cause, but the cause can be told from the wording:
two faults are worded alike only if they are the same, or if both are open quotes and the quotes
have one name. Most wordings differ in length already.

## Main results

* `PipeLint.Issue.message_eq_iff`: which faults are worded alike.
-/

namespace PipeLint.Issue

/-- The number of characters in the wording of a fault. -/
def wordingLength : Issue → Nat
  | missingDash => 28
  | emptyFlags => 27
  | unsupportedFlag _ => 20
  | malformedString => 16
  | openQuote _ => 25
  | invalidEscape => 24
  | strayCharacter => 18
  | missingPattern => 22
  | likeWithoutWildcard => 32
  | trailingEscape => 25
  | negatedFinalStage => 59
  | repeatedIgnoreCase => 31

theorem message_openQuote (quote : Char) :
    (openQuote quote).message =
      if quote = '\'' then "unterminated single quote".toList
      else "unterminated double quote".toList := rfl

theorem length_message (i : Issue) : i.message.length = i.wordingLength := by
  cases i with
  | openQuote quote =>
    rw [message_openQuote]
    split <;> rfl
  | _ => rfl

/-- An open quote and a backslash at the end have wordings of one length, but not the same. -/
theorem message_openQuote_ne_trailingEscape (quote : Char) :
    (openQuote quote).message ≠ trailingEscape.message := by
  have hhead : (openQuote quote).message.head? = some 'u' := by
    rw [message_openQuote]
    split <;> rfl
  intro h
  rw [h] at hhead
  exact absurd hhead (by decide)

theorem message_unsupportedFlag_inj {c d : Char} :
    (unsupportedFlag c).message = (unsupportedFlag d).message ↔ c = d := by
  refine ⟨fun h => ?_, fun h => h ▸ rfl⟩
  simpa using List.append_cancel_left h

theorem message_openQuote_inj {p q : Char} :
    (openQuote p).message = (openQuote q).message ↔ (p = '\'' ↔ q = '\'') := by
  have hne : "unterminated single quote".toList ≠ "unterminated double quote".toList := by decide
  rw [message_openQuote, message_openQuote]
  by_cases hp : p = '\'' <;> by_cases hq : q = '\''
  · simp only [hp, hq]
  · simp only [hp, hq, if_true, if_false, hne, iff_false, not_true]
  · simp only [hp, hq, if_true, if_false, hne.symm, iff_true]
  · simp only [hp, hq]

/-- The length of the wording tells all faults apart but for letters, quotes, and one pair. -/
theorem cases_of_wordingLength_eq {i j : Issue} (h : i.wordingLength = j.wordingLength) :
    i = j ∨ (∃ c d, i = unsupportedFlag c ∧ j = unsupportedFlag d) ∨
      (∃ p q, i = openQuote p ∧ j = openQuote q) ∨
      (∃ q, i = openQuote q ∧ j = trailingEscape) ∨
      (∃ q, i = trailingEscape ∧ j = openQuote q) := by
  cases i <;> cases j <;> simp_all [wordingLength]

/-- Faults are worded alike only if they are the same, or open quotes of one name. -/
theorem message_eq_iff {i j : Issue} :
    i.message = j.message ↔
      i = j ∨ ∃ p q, i = openQuote p ∧ j = openQuote q ∧ (p = '\'' ↔ q = '\'') := by
  constructor
  · intro h
    have hlength : i.wordingLength = j.wordingLength := by
      rw [← length_message, ← length_message, h]
    rcases cases_of_wordingLength_eq hlength with
      rfl | ⟨c, d, rfl, rfl⟩ | ⟨p, q, rfl, rfl⟩ | ⟨q, rfl, rfl⟩ | ⟨q, rfl, rfl⟩
    · exact Or.inl rfl
    · exact Or.inl (congrArg unsupportedFlag (message_unsupportedFlag_inj.mp h))
    · exact Or.inr ⟨p, q, rfl, rfl, message_openQuote_inj.mp h⟩
    · exact absurd h (message_openQuote_ne_trailingEscape q)
    · exact absurd h.symm (message_openQuote_ne_trailingEscape q)
  · rintro (rfl | ⟨p, q, rfl, rfl, h⟩)
    · rfl
    · exact message_openQuote_inj.mpr h

end PipeLint.Issue
