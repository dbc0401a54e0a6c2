import PipeLint.Pipeline.Basic
import PipeLint.Proofs.Bytes.Cursor
import PipeLint.Proofs.Text.Trim

/-!
# Stages cut at cursors

An expression is cut into stages by one pass over its characters, which remembers where the current
stage started. A stage is cut out between two cursors, and its white space in front is counted as
the difference of two lengths. Both cursors are always places in the expression, and a backslash is
taken off the length only if there is one.

## Main definitions

* `PipeLint.Text.stage?`: the stage between two cursors.
* `PipeLint.Pipeline.ofText?`: the pipeline that an expression spells, cut at cursors.

## Main results

* `PipeLint.Pipeline.ofText?_eq`: every slice and every difference has a value.
-/

namespace PipeLint

namespace Text

/-- The stage between two cursors. -/
def stage? (t : Text) (start stop : Nat) : Option Stage := do
  let raw ← t.slice? start stop
  let leading ← difference? raw.byteLength raw.trimStart.byteLength
  return ⟨raw.trim, start + leading⟩

/-- The stages from a cursor on, given where the current stage started and what the text before the
cursor means for the characters after it. -/
def stagesAt? (t : Text) (start cursor : Nat) (q : Quoting) : Text → Option (List Stage)
  | [] => do
    let last ← t.stage? start t.byteLength
    return if last.text = [] then [] else [last]
  | c :: rest =>
    if q.separates c then do
      let stage ← t.stage? start cursor
      return stage :: (← stagesAt? t (cursor + 1) (cursor + c.utf8Size) (q.step c) rest)
    else
      stagesAt? t start (cursor + c.utf8Size) (q.step c) rest

end Text

/-- The pipeline that an expression spells, cut at cursors. -/
def Pipeline.ofText? (t : Text) : Option Pipeline := do
  let stages ← t.stagesAt? 0 0 .neutral t
  if (Quoting.neutral.scan t).escaped then
    return ⟨stages, some (← difference? t.byteLength 1)⟩
  else
    return ⟨stages, none⟩

/-! ### Every stage -/

namespace Text.HasRestAt

variable {t segment rest : Text} {start : Nat}

theorem stage?_eq (h : HasRestAt t (segment ++ rest) start) :
    t.stage? start (start + byteLength segment) = some (Stage.ofSegment start segment) := by
  have hlength : byteLength segment =
      byteLength (segment.takeWhile isBlank) + byteLength segment.trimStart := by
    rw [← byteLength_append, trimStart, List.takeWhile_append_dropWhile]
  have hleading : difference? (byteLength segment) (byteLength segment.trimStart) =
      some (byteLength (segment.takeWhile isBlank)) := by
    rw [hlength, difference?_of_le (Nat.le_add_left _ _), Nat.add_sub_cancel]
  rw [stage?, h.slice?_eq]
  simp [hleading, Stage.ofSegment]

/-- The pieces from the start of the current stage on are cut into stages. -/
theorem stagesAt?_eq (q : Quoting) (h : HasRestAt t (segment ++ rest) start) :
    t.stagesAt? start (start + byteLength segment) q rest =
      some (Stage.ofSegments start (segment ++ (q.segments rest).1) (q.segments rest).2) := by
  induction rest generalizing segment start q with
  | nil =>
    have hlast := h.stage?_eq
    obtain ⟨front, rfl, rfl⟩ := h
    rw [List.append_nil, ← byteLength_append] at hlast
    simp only [stagesAt?, List.append_nil, hlast, Option.bind_eq_bind, Option.bind_some,
      Quoting.segments_nil, Stage.ofSegments, Stage.ofSegment, trim_eq_nil_iff]
    rfl
  | cons c rest ih =>
    cases hsep : q.separates c with
    | true =>
      -- a new stage starts behind the pipe
      obtain ⟨rfl, rfl⟩ : c = '|' ∧ q = Quoting.neutral := by simpa [Quoting.separates] using hsep
      have hnext := @ih [] _ .neutral h.append.cons
      have hpipe : '|'.utf8Size = 1 := rfl
      rw [stagesAt?, if_pos hsep, h.stage?_eq, Quoting.segments_cons_of_separates hsep]
      simp only [List.nil_append, byteLength_nil, Nat.add_zero, hpipe] at hnext
      simp only [Option.bind_eq_bind, Option.bind_some, hpipe,
        Quoting.step_eq_neutral_of_separates hsep, hnext, List.append_nil, Stage.ofSegments]
      rfl
    | false =>
      have hcurrent : HasRestAt t ((segment ++ [c]) ++ rest) start := by simpa using h
      have hnext := ih (q.step c) hcurrent
      rw [stagesAt?, hsep, Quoting.segments_cons_of_not_separates hsep]
      simpa [← Nat.add_assoc] using hnext

end Text.HasRestAt

/-- **Every slice and every difference has a value.** -/
theorem Pipeline.ofText?_eq (t : Text) : ofText? t = some (ofText t) := by
  have hstages := @Text.HasRestAt.stagesAt?_eq t [] t 0 .neutral (Text.hasRestAt_zero t)
  simp only [Text.byteLength_nil, Nat.add_zero, List.nil_append] at hstages
  rw [ofText?, hstages, ofText]
  by_cases hescaped : (Quoting.neutral.scan t).escaped = true
  · -- something is escaped, so the text is not empty
    have hpos : 1 ≤ t.byteLength := by
      refine Nat.one_le_iff_ne_zero.mpr (mt Text.byteLength_eq_zero_iff.mp ?_)
      rintro rfl
      contradiction
    simp [hescaped, difference?_of_le hpos]
  · simp [hescaped]

end PipeLint
