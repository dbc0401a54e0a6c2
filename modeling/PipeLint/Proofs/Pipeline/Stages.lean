import PipeLint.Pipeline.Basic
import PipeLint.Proofs.Quoting.Scan
import PipeLint.Proofs.Text.Place

/-!
# The stages of an expression

An expression either has no separating pipe, or it is a piece without one, a pipe, and another
expression. Facts about the stages of an expression are proved along this cut: each stage stands in
the expression at its offset, and no stage but the last can end inside quotes, since a pipe inside
quotes separates nothing.

## Main results

* `PipeLint.Quoting.pipe_induction`: induction on the separating pipes of an expression.
* `PipeLint.Pipeline.hasPartAt_of_mem_stages`: a stage stands at its offset.
* `PipeLint.Pipeline.exists_stages_eq_of_endsQuoted`: an expression that ends inside quotes has a
  last stage, and only this stage ends inside quotes.
-/

namespace PipeLint

namespace Quoting

/-! ### Induction on the separating pipes -/

/-- A text has no separating pipe, or it is cut at its first one. -/
theorem segments_cases (q : Quoting) (t : Text) :
    q.segments t = (t, []) ∨
      ∃ a b, t = a ++ '|' :: b ∧ q.scan a = neutral ∧ q.segments a = (a, []) := by
  induction t generalizing q with
  | nil => exact Or.inl rfl
  | cons c t ih =>
    cases hsep : q.separates c with
    | true =>
      obtain ⟨rfl, rfl⟩ : c = '|' ∧ q = neutral := by simpa [separates] using hsep
      exact Or.inr ⟨[], t, rfl, rfl, rfl⟩
    | false =>
      rcases ih (q.step c) with h | ⟨a, b, rfl, hscan, ha⟩
      · exact Or.inl (by rw [segments_cons_of_not_separates hsep, h])
      · exact Or.inr ⟨c :: a, b, rfl, hscan, by rw [segments_cons_of_not_separates hsep, ha]⟩

/-- Induction on the separating pipes of an expression, the first of them first. -/
@[elab_as_elim]
theorem pipe_induction {motive : Text → Prop}
    (single : ∀ t, neutral.segments t = (t, []) → motive t)
    (pipe : ∀ s t, neutral.scan s = neutral → neutral.segments s = (s, []) → motive t →
      motive (s ++ '|' :: t))
    (t : Text) : motive t := by
  rcases segments_cases neutral t with h | ⟨a, b, ht, hscan, ha⟩
  · exact single t h
  · have hlength : b.length < t.length := by
      simp only [ht, List.length_append, List.length_cons]
      omega
    rw [ht]
    exact pipe a b hscan ha (pipe_induction single pipe b)
termination_by t.length

end Quoting

namespace Pipeline

open Quoting

/-- An expression without a separating pipe is one stage, or none if it is blank. -/
theorem stages_of_segments_eq {t : Text} (h : neutral.segments t = (t, [])) :
    (ofText t).stages = if t.Blank then [] else [Stage.ofSegment 0 t] := by
  simp [ofText, h, Stage.ofSegments]

/-- The stages of an expression with a separating pipe: the stage before the first pipe, and those
of the expression behind it. -/
theorem stages_append_pipe {s : Text} (hscan : neutral.scan s = neutral)
    (hs : neutral.segments s = (s, [])) (t : Text) :
    (ofText (s ++ '|' :: t)).stages =
      Stage.ofSegment 0 s :: (ofText t).stages.map (·.shift (s.byteLength + 1)) := by
  simp only [ofText, segments_append_pipe hscan, hs, List.nil_append, Stage.ofSegments,
    Nat.zero_add]
  rw [← Stage.ofSegments_add, Nat.add_zero]

/-! ### Places of stages -/

theorem hasPartAt_ofSegment (t : Text) :
    t.HasPartAt (Stage.ofSegment 0 t).text (Stage.ofSegment 0 t).offset := by
  obtain ⟨back, -, ht⟩ := Text.exists_eq_append_trim t
  exact ⟨t.takeWhile isBlank, back, ht.symm, by simp [Stage.ofSegment]⟩

/-- A stage stands in its expression at its offset. -/
theorem hasPartAt_of_mem_stages {t : Text} :
    ∀ s ∈ (ofText t).stages, t.HasPartAt s.text s.offset := by
  induction t using pipe_induction with
  | single t h =>
    intro s hs
    rw [stages_of_segments_eq h] at hs
    split at hs
    · simp at hs
    · obtain rfl := List.mem_singleton.mp hs
      exact hasPartAt_ofSegment t
  | pipe a t hscan ha ih =>
    intro s hs
    rw [stages_append_pipe hscan ha] at hs
    rcases List.mem_cons.mp hs with rfl | hs
    · exact (hasPartAt_ofSegment a).append_right _
    · obtain ⟨u, hu, rfl⟩ := List.mem_map.mp hs
      have hplace := (ih u hu).append_left (a ++ ['|'])
      have hlength : Text.byteLength (a ++ ['|']) = a.byteLength + 1 :=
        Text.byteLength_append a ['|']
      rw [hlength, Nat.add_comm] at hplace
      simpa using hplace

/-! ### Stages that end inside quotes -/

theorem not_endsQuoted_ofSegment {t : Text} (h : ¬ t.EndsQuoted) :
    ¬ (Stage.ofSegment 0 t).text.EndsQuoted := by
  rwa [Stage.ofSegment, Text.endsQuoted_trim_iff]

theorem endsQuoted_append_pipe_iff {s : Text} (h : neutral.scan s = neutral) {t : Text} :
    Text.EndsQuoted (s ++ '|' :: t) ↔ t.EndsQuoted := by
  rw [Text.EndsQuoted, scan_append, h, scan_cons]
  rfl

theorem not_endsQuoted_of_mem_stages {t : Text} (h : ¬ t.EndsQuoted) :
    ∀ s ∈ (ofText t).stages, ¬ s.text.EndsQuoted := by
  induction t using pipe_induction with
  | single t hseg =>
    intro s hs
    rw [stages_of_segments_eq hseg] at hs
    split at hs
    · simp at hs
    · obtain rfl := List.mem_singleton.mp hs
      exact not_endsQuoted_ofSegment h
  | pipe a t hscan ha ih =>
    intro s hs
    rw [stages_append_pipe hscan ha] at hs
    rcases List.mem_cons.mp hs with rfl | hs
    · exact not_endsQuoted_ofSegment (by simp [Text.EndsQuoted, hscan])
    · obtain ⟨u, hu, rfl⟩ := List.mem_map.mp hs
      exact ih (fun ht => h ((endsQuoted_append_pipe_iff hscan).mpr ht)) u hu

/-- An expression that ends inside quotes has a last stage, and this stage alone ends inside
quotes. -/
theorem exists_stages_eq_of_endsQuoted {t : Text} (h : t.EndsQuoted) :
    ∃ init last, (ofText t).stages = init ++ [last] ∧ last.text.EndsQuoted ∧
      ∀ s ∈ init, ¬ s.text.EndsQuoted := by
  induction t using pipe_induction with
  | single t hseg =>
    have hblank : ¬ t.Blank := fun hblank => h (by rw [hblank.scan_neutral])
    refine ⟨[], Stage.ofSegment 0 t, ?_, Text.endsQuoted_trim_iff.mpr h, by simp⟩
    simp [stages_of_segments_eq hseg, hblank]
  | pipe a t hscan ha ih =>
    obtain ⟨init, last, hstages, hlast, hinit⟩ := ih ((endsQuoted_append_pipe_iff hscan).mp h)
    refine ⟨Stage.ofSegment 0 a :: init.map (·.shift (a.byteLength + 1)),
      last.shift (a.byteLength + 1), ?_, hlast, ?_⟩
    · simp [stages_append_pipe hscan ha, hstages]
    · refine List.forall_mem_cons.mpr ⟨not_endsQuoted_ofSegment (by simp [Text.EndsQuoted, hscan]),
        fun s hs => ?_⟩
      obtain ⟨u, hu, rfl⟩ := List.mem_map.mp hs
      exact hinit u hu

end Pipeline

end PipeLint
