import PipeLint.Proofs.Token.Quoted

/-!
# The inside of quoted strings

A quoted string goes on to the first quote that no backslash escapes. What stands before that quote
can be told without reading from left to right: each quote in it is behind an odd run of
backslashes, and what closes the string is not.

## Main definitions

* `PipeLint.Text.IsInterior`: what can stand between two quotes.

## Main results

* `PipeLint.Text.isInterior_append_iff`: what can stand between two quotes can be taken off the
  front.
* `PipeLint.Text.quotedSpan_of_isInterior` and `PipeLint.Text.exists_isInterior_of_not_open`: a
  string is read up to the first quote that is not escaped.
-/

namespace PipeLint

namespace Text

theorem endsEscaped_append_iff {s : Text} (hs : ¬ EndsEscaped s) (t : Text) :
    EndsEscaped (s ++ t) ↔ EndsEscaped t := by
  have hscan : (Quoting.neutral.scan s).escaped = false := by
    rw [← Bool.not_eq_true, Quoting.escaped_scan_iff rfl]
    exact hs
  rw [← Quoting.escaped_scan_iff (q := Quoting.neutral) rfl, Quoting.scan_append,
    Quoting.escaped_scan_iff hscan]

/-- What can stand between two quotes: every quote in it is escaped, and a quote behind it is
not. -/
structure IsInterior (quote : Char) (t : Text) : Prop where
  endsEscaped_of_eq : ∀ front back, t = front ++ quote :: back → EndsEscaped front
  not_endsEscaped : ¬ EndsEscaped t

variable {quote : Char}

theorem isInterior_nil (quote : Char) : IsInterior quote [] :=
  ⟨fun front back h => by simp at h, by decide⟩

theorem not_isInterior_self (quote : Char) (t : Text) : ¬ IsInterior quote (quote :: t) :=
  fun h => absurd (h.endsEscaped_of_eq [] t rfl) (by decide)

theorem isInterior_singleton {c : Char} (hback : c ≠ '\\') (hne : c ≠ quote) :
    IsInterior quote [c] := by
  refine ⟨fun front back h => ?_, ?_⟩
  · obtain ⟨-, h⟩ | ⟨-, h⟩ := List.singleton_eq_append_iff.mp h
    · exact absurd (List.cons.inj h).1.symm hne
    · exact absurd h (List.cons_ne_nil quote back)
  · simp [EndsEscaped, trailingBackslashes, hback]

theorem isInterior_escape (hquote : isQuote quote = true) (c : Char) :
    IsInterior quote ['\\', c] := by
  refine ⟨fun front back h => ?_, ?_⟩
  · rcases front with - | ⟨d, - | ⟨e, front⟩⟩
    · exact absurd (List.cons.inj h).1.symm (ne_backslash_of_isQuote hquote)
    · -- the quote is the escaped character
      obtain ⟨rfl, -⟩ := List.cons.inj h
      decide
    · simp at h
  · rw [← Quoting.escaped_scan_iff (q := Quoting.neutral) rfl]
    simp [Quoting.escaped_step]

/-- What can stand between two quotes can be taken off the front. -/
theorem isInterior_append_iff {s : Text} (hs : IsInterior quote s) {t : Text} :
    IsInterior quote (s ++ t) ↔ IsInterior quote t := by
  have hends (front : Text) := endsEscaped_append_iff hs.not_endsEscaped front
  constructor
  · refine fun h => ⟨fun front back heq => ?_, fun ht => h.not_endsEscaped ((hends t).mpr ht)⟩
    exact (hends front).mp (h.endsEscaped_of_eq (s ++ front) back (by rw [heq, List.append_assoc]))
  · refine fun h => ⟨fun front back heq => ?_, fun ht => h.not_endsEscaped ((hends t).mp ht)⟩
    rcases List.append_eq_append_iff.mp heq with ⟨middle, rfl, ht⟩ | ⟨middle, hfront, hback⟩
    · exact (hends middle).mpr (h.endsEscaped_of_eq middle back ht)
    · cases middle with
      | nil => exact absurd (hback ▸ h) (not_isInterior_self quote back)
      | cons d middle =>
        obtain ⟨rfl, -⟩ := List.cons.inj hback
        exact hs.endsEscaped_of_eq front middle hfront

theorem isInterior_of_notMem {quote : Char} {t : Text} (hquote : quote ∉ t) (hback : '\\' ∉ t) :
    IsInterior quote t := by
  induction t with
  | nil => exact isInterior_nil quote
  | cons c t ih =>
    rw [List.mem_cons, not_or] at hquote hback
    exact (isInterior_append_iff (isInterior_singleton (Ne.symm hback.1) (Ne.symm hquote.1))).mpr
      (ih hquote.2 hback.2)

/-! ### Reading a quoted string -/

/-- A string is read up to the first quote that is not escaped. -/
theorem quotedSpan_of_isInterior (hquote : isQuote quote = true) {inner : Text}
    (h : IsInterior quote inner) (rest : Text) :
    quotedSpan quote (inner ++ quote :: rest) = (inner ++ [quote], rest) := by
  induction inner using quotedSpan.induct quote with
  | case1 => simp [quotedSpan, ne_backslash_of_isQuote hquote]
  | case2 c inner _ _ _ ih =>
    have hinner := (isInterior_append_iff (isInterior_escape hquote c)).mp h
    simp [quotedSpan, ih hinner]
  | case3 inner => exact absurd h (not_isInterior_self quote inner)
  | case4 c inner hnot hne _ _ _ ih =>
    have hback : c ≠ '\\' := by
      rintro rfl
      obtain rfl := eq_nil_of_backslash hnot rfl
      exact h.not_endsEscaped (by decide)
    have hinner := (isInterior_append_iff (isInterior_singleton hback hne)).mp h
    simp [quotedSpan, hback, hne, ih hinner]

/-- A string that reading does not leave open has a quote that is not escaped. -/
theorem exists_isInterior_of_not_open (hquote : isQuote quote = true) {t : Text}
    (h : ((Quoting.within quote).scan (quotedSpan quote t).1).openQuote ≠ some quote) :
    ∃ inner rest, IsInterior quote inner ∧ t = inner ++ quote :: rest := by
  fun_induction quotedSpan quote t with
  | case1 => simp at h
  | case2 c t body rest heq ih =>
    obtain ⟨inner, rest, hinner, rfl⟩ := ih (by rw [heq]; exact h)
    exact ⟨['\\', c] ++ inner, rest,
      (isInterior_append_iff (isInterior_escape hquote c)).mpr hinner, rfl⟩
  | case3 t => exact ⟨[], t, isInterior_nil quote, rfl⟩
  | case4 c t hnot hne body rest heq ih =>
    by_cases hback : c = '\\'
    · obtain rfl := eq_nil_of_backslash hnot hback
      obtain ⟨rfl, rfl⟩ := Prod.mk.inj heq
      simp [hback, Quoting.step] at h
    · rw [Quoting.scan_cons, Quoting.within_step_of_ne hback hne] at h
      obtain ⟨inner, rest, hinner, rfl⟩ := ih (by rwa [heq])
      exact ⟨[c] ++ inner, rest,
        (isInterior_append_iff (isInterior_singleton hback hne)).mpr hinner, rfl⟩

/-- A quoted string that is closed has a quote that is not escaped. -/
theorem exists_isInterior_of_not_endsQuoted (hquote : isQuote quote = true) {t : Text}
    (h : ¬ (Lexeme.quoted quote t).text.EndsQuoted) :
    ∃ inner rest, IsInterior quote inner ∧ t = inner ++ quote :: rest := by
  rw [Lexeme.text_quoted, EndsQuoted, not_not, Quoting.scan_cons,
    Quoting.neutral_step_of_isQuote hquote] at h
  exact exists_isInterior_of_not_open hquote (by simp [h])

theorem IsInterior.scan_within (hquote : isQuote quote = true) {inner : Text}
    (h : IsInterior quote inner) :
    (Quoting.within quote).scan inner = Quoting.within quote := by
  have hspan := quotedSpan_of_isInterior hquote h []
  rcases quotedSpan_cases quote (inner ++ [quote]) with ⟨inner', rest, heq, hscan⟩ | ⟨-, -, hend⟩
  · obtain ⟨hinner, -⟩ := Prod.mk.inj (hspan.symm.trans heq)
    rw [List.append_cancel_right hinner, hscan]
  · exact absurd ((Quoting.escaped_scan_iff rfl inner).mp (hend inner rfl)) h.not_endsEscaped

end Text

end PipeLint
