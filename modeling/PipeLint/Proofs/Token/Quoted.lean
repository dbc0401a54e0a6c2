import PipeLint.Proofs.Quoting.Scan
import PipeLint.Proofs.Token.Shape

/-!
# Quoted tokens

Three readers decide whether a quoted string is closed: the one that cuts tokens looks for the
closing quote from left to right, the check on a token looks at the end of its text and at the
backslashes before it, and the quoting scans the characters. They agree on every token that a text
is cut into. A string that is not closed takes the whole rest of the text with it.

## Main definitions

* `PipeLint.Quoting.within`: the quoting inside quotes with no escape pending.

## Main results

* `PipeLint.quotedSpan_cases`: how a quoted string is read from left to right.
* `PipeLint.Text.cases_of_kind_eq_quoted`: a quoted token is closed, and then the check finds its
  interior, or it is open, and then it runs to the end of the text.
* `PipeLint.Token.quotedFindings_of_closed`, `PipeLint.Token.quotedFindings_of_open`: what is found
  in the two cases.
-/

namespace PipeLint

/-! ### Reading from left to right -/

/-- The quoting inside quotes with no escape pending. -/
abbrev Quoting.within (quote : Char) : Quoting :=
  { openQuote := some quote }

theorem Quoting.neutral_step_of_isQuote {quote : Char} (hquote : isQuote quote = true) :
    neutral.step quote = within quote := by
  rcases isQuote_eq_true_iff.mp hquote with rfl | rfl <;> rfl

theorem Quoting.within_step_self {quote : Char} (hquote : isQuote quote = true) :
    (within quote).step quote = neutral := by
  rcases isQuote_eq_true_iff.mp hquote with rfl | rfl <;> rfl

theorem Quoting.within_step_of_ne {quote c : Char} (hback : c ≠ '\\') (hne : c ≠ quote) :
    (within quote).step c = within quote := by
  simp [step, hback, hne]

theorem eq_nil_of_backslash {c : Char} {t : Text}
    (hnot : ∀ (d : Char) (u : Text), c = '\\' → t = d :: u → False) (hback : c = '\\') :
    t = [] := by
  cases t with
  | nil => rfl
  | cons d u => exact (hnot d u hback rfl).elim

/-- A quoted string is closed by a quote that no backslash escapes, or it runs to the end of the
text, and then a quote at the end is escaped. -/
theorem quotedSpan_cases (quote : Char) (t : Text) :
    (∃ inner rest, quotedSpan quote t = (inner ++ [quote], rest) ∧
      (Quoting.within quote).scan inner = Quoting.within quote) ∨
    (quotedSpan quote t = (t, []) ∧
      ((Quoting.within quote).scan t).openQuote = some quote ∧
      ∀ inner, t = inner ++ [quote] → ((Quoting.within quote).scan inner).escaped = true) := by
  fun_induction quotedSpan quote t with
  | case1 => exact Or.inr ⟨rfl, rfl, fun inner h => absurd h (by simp)⟩
  | case2 c t body rest heq ih =>
    rw [heq] at ih
    rcases ih with ⟨inner, rest', hspan, hscan⟩ | ⟨hspan, hscan, hend⟩
    · obtain ⟨rfl, rfl⟩ := Prod.mk.inj hspan
      exact Or.inl ⟨'\\' :: c :: inner, rest, rfl, hscan⟩
    · obtain ⟨rfl, rfl⟩ := Prod.mk.inj hspan
      refine Or.inr ⟨rfl, hscan, fun inner h => ?_⟩
      -- the backslash escapes the character after it, which may be the last one
      rcases inner with - | ⟨d, - | ⟨e, inner⟩⟩
      · simp at h
      · simp only [List.cons_append, List.nil_append, List.cons.injEq] at h
        obtain ⟨rfl, -⟩ := h
        rfl
      · simp only [List.cons_append, List.cons.injEq] at h
        obtain ⟨rfl, rfl, h⟩ := h
        exact hend inner h
  | case3 t _ => exact Or.inl ⟨[], t, rfl, rfl⟩
  | case4 c t hnot hne body rest heq ih =>
    by_cases hback : c = '\\'
    · obtain rfl := eq_nil_of_backslash hnot hback
      subst hback
      obtain ⟨rfl, rfl⟩ := Prod.mk.inj heq
      refine Or.inr ⟨rfl, rfl, fun inner h => ?_⟩
      cases inner with
      | nil => exact absurd (List.cons.inj h).1 hne
      | cons d inner => simp at h
    · have hstep := Quoting.within_step_of_ne hback hne
      rw [heq] at ih
      rcases ih with ⟨inner, rest', hspan, hscan⟩ | ⟨hspan, hscan, hend⟩
      · obtain ⟨rfl, rfl⟩ := Prod.mk.inj hspan
        exact Or.inl ⟨c :: inner, rest, rfl, by rw [Quoting.scan_cons, hstep, hscan]⟩
      · obtain ⟨rfl, rfl⟩ := Prod.mk.inj hspan
        refine Or.inr ⟨rfl, by rw [Quoting.scan_cons, hstep, hscan], fun inner h => ?_⟩
        cases inner with
        | nil => exact absurd (List.cons.inj h).1 hne
        | cons d inner =>
          simp only [List.cons_append, List.cons.injEq] at h
          obtain ⟨rfl, h⟩ := h
          rw [Quoting.scan_cons, hstep]
          exact hend inner h

/-! ### The check on a quoted token -/

/-- The check finds the interior of a string that is closed by its last character. -/
theorem Text.interior?_of_scan_eq {quote : Char} {inner : Text}
    (h : (Quoting.within quote).scan inner = Quoting.within quote) :
    interior? (quote :: (inner ++ [quote])) = some inner := by
  have hescaped : ¬ EndsEscaped inner := by
    rw [← Quoting.escaped_scan_iff (q := Quoting.within quote) rfl, h]
    simp
  simp only [interior?, List.getLast?_concat, List.dropLast_concat, hescaped, not_false_eq_true,
    and_self, if_true]

/-- The check finds no interior in a string whose last quote is escaped, if it ends in one. -/
theorem Text.interior?_eq_none {quote : Char} {t : Text}
    (h : ∀ inner, t = inner ++ [quote] → ((Quoting.within quote).scan inner).escaped = true) :
    interior? (quote :: t) = none := by
  simp only [interior?, ite_eq_right_iff, reduceCtorEq, imp_false, not_and, not_not]
  intro hlast
  obtain ⟨inner, rfl⟩ := List.getLast?_eq_some_iff.mp hlast
  rw [List.dropLast_concat]
  exact (Quoting.escaped_scan_iff rfl inner).mp (h inner rfl)

/-- A quoted token is closed, and then the check finds its interior, or it is open, and then it
runs to the end of the text. -/
theorem Text.cases_of_kind_eq_quoted {t : Text} {k : Token} (h : k ∈ t.tokens)
    (hkind : k.kind = .quoted) :
    ∃ front quote, isQuote quote = true ∧ byteLength front = k.offset ∧
      ((∃ inner back, t = front ++ k.text ++ back ∧ k.text = quote :: (inner ++ [quote]) ∧
          ¬ EndsQuoted k.text ∧ interior? k.text = some inner) ∨
        (∃ body, t = front ++ k.text ∧ k.text = quote :: body ∧ EndsQuoted k.text ∧
          interior? k.text = none)) := by
  obtain ⟨front, quote, u, rfl, hoffset, hquote, htext⟩ := exists_of_kind_eq_quoted h hkind
  have hscan (body : Text) :
      Quoting.neutral.scan (quote :: body) = (Quoting.within quote).scan body := by
    rw [Quoting.scan_cons, Quoting.neutral_step_of_isQuote hquote]
  have happend := quotedSpan_append quote u
  refine ⟨front, quote, hquote, hoffset, ?_⟩
  rcases quotedSpan_cases quote u with ⟨inner, rest, hspan, hinner⟩ | ⟨hspan, hopen, hend⟩
  · rw [hspan] at htext happend
    refine Or.inl ⟨inner, rest, ?_, htext, ?_, htext ▸ interior?_of_scan_eq hinner⟩
    · rw [htext, ← happend]
      simp
    · rw [EndsQuoted, htext, hscan, Quoting.scan_append, hinner, Quoting.scan_cons,
        Quoting.within_step_self hquote]
      simp
  · rw [hspan] at htext
    refine Or.inr ⟨u, by rw [htext], htext, ?_, htext ▸ interior?_eq_none hend⟩
    rw [EndsQuoted, htext, hscan, hopen]
    simp

namespace Token

/-- A closed quoted token has nothing wrong with it but escapes. -/
theorem quotedFindings_of_closed {k : Token} {quote : Char} {inner : Text}
    (htext : k.text = quote :: (inner ++ [quote])) (hinner : Text.interior? k.text = some inner) :
    k.quotedFindings = inner.invalidEscapes (k.offset + 1) := by
  have hlength : ¬ Text.byteLength (quote :: (inner ++ [quote])) < 2 := by
    have := quote.utf8Size_pos
    simp only [Text.byteLength_cons, Text.byteLength_append]
    omega
  rw [htext] at hinner
  simp only [quotedFindings, htext, hlength, if_false, hinner]

/-- An open quoted token has one thing wrong with it. -/
theorem quotedFindings_of_open {k : Token} {quote : Char} (hquote : isQuote quote = true)
    {body : Text} (htext : k.text = quote :: body) (hnone : Text.interior? k.text = none) :
    k.quotedFindings =
      [⟨if body = [] then .malformedString else .openQuote quote, k.span⟩] := by
  have hlength : Text.byteLength (quote :: body) < 2 ↔ body = [] := by
    rw [← Text.byteLength_eq_zero_iff, Text.byteLength_cons, utf8Size_of_isQuote hquote]
    omega
  rw [htext] at hnone
  simp only [quotedFindings, htext, hlength, hnone]
  split <;> rfl

end Token

end PipeLint
