import Mathlib.Data.List.Induction
import PipeLint.Check.Quoted
import PipeLint.Pipeline.Quoting
import PipeLint.Proofs.Text.Trim

/-!
# The quoting after a text

Only quotes and backslashes change the quoting; all other characters are plain. White space, stray
characters and the letters of flags are plain, so trimming a text does not change whether it ends
inside quotes. Whether an escape is pending at the end of a text depends on the backslashes there
alone, whatever is open.

## Main definitions

* `PipeLint.isPlain`: the characters that are neither quotes nor backslashes.
* `PipeLint.Text.EndsQuoted`: a text that ends inside quotes.

## Main results

* `PipeLint.Quoting.escaped_scan_iff`: an escape is pending exactly if the text ends escaped.
* `PipeLint.Text.endsQuoted_trim_iff`: trimming keeps whether a text ends inside quotes.
-/

namespace PipeLint

/-! ### Plain characters -/

/-- The characters that are neither quotes nor backslashes. -/
def isPlain (c : Char) : Bool :=
  c ≠ '\\' && !isQuote c

theorem isPlain_eq_true_iff {c : Char} : isPlain c = true ↔ c ≠ '\\' ∧ isQuote c = false := by
  simp [isPlain]

theorem isQuote_eq_true_iff {c : Char} : isQuote c = true ↔ c = '"' ∨ c = '\'' := by
  simp [isQuote]

theorem ne_backslash_of_isQuote {c : Char} (h : isQuote c = true) : c ≠ '\\' := by
  rintro rfl
  exact absurd h (by decide)

theorem utf8Size_of_isQuote {c : Char} (h : isQuote c = true) : c.utf8Size = 1 := by
  rcases isQuote_eq_true_iff.mp h with rfl | rfl <;> rfl

/-- Whatever holds of no quote and of no backslash holds of plain characters only. -/
private theorem isPlain_of_forall {p : Char → Bool} {c : Char} (h : p c = true)
    (hdouble : p '"' = false) (hsingle : p '\'' = false) (hback : p '\\' = false) :
    isPlain c = true := by
  refine isPlain_eq_true_iff.mpr ⟨?_, ?_⟩
  · rintro rfl
    simp [hback] at h
  · refine Bool.eq_false_iff.mpr fun hc => ?_
    rcases isQuote_eq_true_iff.mp hc with rfl | rfl
    · simp [hdouble] at h
    · simp [hsingle] at h

theorem isPlain_of_isBlank {c : Char} (h : isBlank c = true) : isPlain c = true :=
  isPlain_of_forall h (by decide) (by decide) (by decide)

theorem isPlain_of_isStray {c : Char} (h : isStray c = true) : isPlain c = true :=
  isPlain_of_forall h (by decide) (by decide) (by decide)

theorem isPlain_of_isFlagLetter {c : Char} (h : isFlagLetter c = true) : isPlain c = true :=
  isPlain_of_forall h (by decide) (by decide) (by decide)

namespace Quoting

/-! ### Scanning plain characters -/

/-- A plain character does not change which quote is open, if what is open is a quote. -/
theorem openQuote_step_of_isPlain {q : Quoting} (hq : ∀ d, q.openQuote = some d → isQuote d = true)
    {c : Char} (hc : isPlain c = true) : (q.step c).openQuote = q.openQuote := by
  obtain ⟨hback, hquote⟩ := isPlain_eq_true_iff.mp hc
  rw [step]
  split
  · rfl
  cases hopen : q.openQuote with
  | none => simp [hquote, hopen]
  | some d =>
    have hne : c ≠ d := by
      rintro rfl
      simp [hq c hopen] at hquote
    simp [hne, hopen]

/-- Outside quotes a plain character leaves nothing behind, and takes a pending escape with it. -/
theorem step_of_isPlain {q : Quoting} (hq : q.openQuote = none) {c : Char}
    (hc : isPlain c = true) : q.step c = neutral := by
  obtain ⟨hback, hquote⟩ := isPlain_eq_true_iff.mp hc
  obtain ⟨openQuote, escaped⟩ := q
  subst hq
  cases escaped <;> simp [step, hback, hquote]

theorem isQuote_of_openQuote_step {q : Quoting} (hq : ∀ d, q.openQuote = some d → isQuote d = true)
    {c d : Char} (h : (q.step c).openQuote = some d) : isQuote d = true := by
  rw [step] at h
  split at h
  · exact hq d h
  split at h
  · exact hq d h
  cases hopen : q.openQuote with
  | none =>
    simp only [hopen] at h
    split at h
    · rename_i hc
      obtain rfl := Option.some.inj h
      exact hc
    · simp [hopen] at h
  | some quote =>
    simp only [hopen] at h
    split at h
    · simp at h
    · exact hq d h

/-- Only quotes are ever open. -/
theorem isQuote_of_openQuote_scan {q : Quoting} (hq : ∀ d, q.openQuote = some d → isQuote d = true)
    {t : Text} {d : Char} (h : (q.scan t).openQuote = some d) : isQuote d = true := by
  induction t generalizing q with
  | nil => exact hq d h
  | cons c t ih => exact ih (fun d hd => isQuote_of_openQuote_step hq hd) h

theorem openQuote_scan_of_isPlain {q : Quoting} (hq : ∀ d, q.openQuote = some d → isQuote d = true)
    {t : Text} (ht : ∀ c ∈ t, isPlain c = true) : (q.scan t).openQuote = q.openQuote := by
  induction t generalizing q with
  | nil => rfl
  | cons c t ih =>
    obtain ⟨hc, ht⟩ := List.forall_mem_cons.mp ht
    rw [scan_cons, ih (fun d hd => isQuote_of_openQuote_step hq hd) ht,
      openQuote_step_of_isPlain hq hc]

theorem scan_neutral_of_isPlain {t : Text} (ht : ∀ c ∈ t, isPlain c = true) :
    neutral.scan t = neutral := by
  induction t with
  | nil => rfl
  | cons c t ih =>
    obtain ⟨hc, ht⟩ := List.forall_mem_cons.mp ht
    rw [scan_cons, step_of_isPlain rfl hc, ih ht]

theorem openQuote_scan_of_not_isQuote {q : Quoting} (hq : q.openQuote = none) {t : Text}
    (ht : ∀ c ∈ t, isQuote c = false) : (q.scan t).openQuote = none := by
  induction t generalizing q with
  | nil => exact hq
  | cons c t ih =>
    obtain ⟨hc, ht⟩ := List.forall_mem_cons.mp ht
    refine ih ?_ ht
    rw [step]
    split
    · exact hq
    split
    · exact hq
    · simp [hq, hc]

/-! ### Pending escapes -/

/-- A character leaves an escape pending exactly if it is a backslash that is not escaped. -/
theorem escaped_step (q : Quoting) (c : Char) :
    (q.step c).escaped = (!q.escaped && c = '\\') := by
  rw [step]
  split
  · simp [*]
  split
  · simp [*]
  · split <;> split <;> simp_all

theorem trailingBackslashes_concat (t : Text) (c : Char) :
    Text.trailingBackslashes (t ++ [c]) =
      if c = '\\' then Text.trailingBackslashes t + 1 else 0 := by
  by_cases hc : c = '\\' <;> simp [Text.trailingBackslashes, hc]

/-- An escape is pending after a text exactly if the backslashes at its end do not pair up. -/
theorem escaped_scan_iff {q : Quoting} (hq : q.escaped = false) (t : Text) :
    (q.scan t).escaped = true ↔ t.EndsEscaped := by
  induction t using List.reverseRecOn with
  | nil => simp [hq, Text.trailingBackslashes]
  | append_singleton t c ih =>
    rw [scan_append, scan_cons, scan_nil, escaped_step, Text.EndsEscaped,
      trailingBackslashes_concat]
    by_cases hc : c = '\\'
    · -- one more backslash changes whether an escape is pending
      have hflip : (!(q.scan t).escaped) = true ↔ ¬ Text.EndsEscaped t := by
        rw [← ih, Bool.not_eq_true', Bool.not_eq_true]
      simp only [hc, decide_true, Bool.and_true, if_true, hflip, Text.EndsEscaped]
      omega
    · simp [hc]

end Quoting

/-! ### Texts that end inside quotes -/

namespace Text

/-- A text ends inside quotes when a quote that it opens is never closed. -/
abbrev EndsQuoted (t : Text) : Prop :=
  (Quoting.neutral.scan t).openQuote ≠ none

theorem Blank.isPlain {t : Text} (h : Blank t) : ∀ c ∈ t, isPlain c = true :=
  fun c hc => isPlain_of_isBlank (h c hc)

theorem Blank.scan_neutral {t : Text} (h : Blank t) : Quoting.neutral.scan t = Quoting.neutral :=
  Quoting.scan_neutral_of_isPlain h.isPlain

theorem openQuote_scan_append_blank {w : Text} (h : Blank w) (t : Text) :
    (Quoting.neutral.scan (t ++ w)).openQuote = (Quoting.neutral.scan t).openQuote := by
  rw [Quoting.scan_append]
  refine Quoting.openQuote_scan_of_isPlain (fun d hd => ?_) h.isPlain
  exact Quoting.isQuote_of_openQuote_scan (fun _ h => absurd h (by simp)) hd

/-- White space at the end takes a pending escape with it. -/
theorem escaped_scan_append_blank {w : Text} (h : Blank w) (hne : w ≠ []) (t : Text) :
    (Quoting.neutral.scan (t ++ w)).escaped = false := by
  obtain ⟨init, c, rfl⟩ : ∃ init c, w = init ++ [c] :=
    ⟨_, _, (List.dropLast_concat_getLast hne).symm⟩
  have hc : c ≠ '\\' := (isPlain_eq_true_iff.mp (h.isPlain c (by simp))).1
  rw [← List.append_assoc, Quoting.scan_append, Quoting.scan_cons, Quoting.scan_nil,
    Quoting.escaped_step, decide_eq_false hc, Bool.and_false]

theorem openQuote_scan_trim (t : Text) :
    (Quoting.neutral.scan t.trim).openQuote = (Quoting.neutral.scan t).openQuote := by
  obtain ⟨back, hback, ht⟩ := exists_eq_append_trim t
  calc (Quoting.neutral.scan t.trim).openQuote
      = (Quoting.neutral.scan (t.takeWhile isBlank ++ t.trim ++ back)).openQuote := by
        rw [openQuote_scan_append_blank hback, Quoting.scan_append,
          (blank_takeWhile t).scan_neutral]
    _ = (Quoting.neutral.scan t).openQuote := by rw [ht]

/-- Trimming does not change whether a text ends inside quotes. -/
theorem endsQuoted_trim_iff {t : Text} : EndsQuoted t.trim ↔ EndsQuoted t := by
  rw [EndsQuoted, openQuote_scan_trim]

theorem not_endsQuoted_of_notMem {t : Text} (hdouble : '"' ∉ t) (hsingle : '\'' ∉ t) :
    ¬ EndsQuoted t := by
  refine not_not_intro (Quoting.openQuote_scan_of_not_isQuote rfl fun c hc => ?_)
  refine Bool.eq_false_iff.mpr fun hquote => ?_
  rcases isQuote_eq_true_iff.mp hquote with rfl | rfl
  · exact hdouble hc
  · exact hsingle hc

end Text

end PipeLint
