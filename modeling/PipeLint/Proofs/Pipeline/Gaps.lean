import PipeLint.Proofs.Pipeline.Pieces
import PipeLint.Proofs.Text.Gaps

/-!
# How the stages lie in an expression

The stages follow one another in the expression with nothing but white space and the separating
pipes in the gaps. Every piece between separating pipes has its stage, an empty one if the piece is
blank; only the piece behind the last separating pipe has none if it is blank.

## Main definitions

* `PipeLint.Stage.span`: the bytes that a stage covers.
* `PipeLint.Text.OnePipe`: white space with one pipe in it.
* `PipeLint.Pipeline.Tiles`: how stages lie in an expression.

## Main results

* `PipeLint.Pipeline.exists_covers_iff`: which pipes are part of a stage.
* `PipeLint.Pipeline.exists_within_iff`: which pieces have a stage.
* `PipeLint.Pipeline.exists_gaps?_stages`: what stands between the stages.
* `PipeLint.Pipeline.stages_tile`: how the stages of an expression lie in it.
-/

namespace PipeLint

/-- The bytes that the stage covers. -/
def Stage.span (s : Stage) : Span :=
  ⟨s.offset, s.text.byteLength⟩

@[simp]
theorem Stage.span_shift (s : Stage) (n : Nat) : (s.shift n).span = s.span.shift n := rfl

/-- White space with one pipe in it. -/
def Text.OnePipe (t : Text) : Prop :=
  ∃ a b : Text, t = a ++ '|' :: b ∧ a.Blank ∧ b.Blank

namespace Span

theorem covers_shift_iff {s : Span} {m n : Nat} : (s.shift m).Covers (n + m) ↔ s.Covers n := by
  simp only [Covers, stop, start_shift, length_shift]
  omega

theorem not_covers_of_stop_le {s : Span} {n : Nat} (h : s.stop ≤ n) : ¬ s.Covers n :=
  fun hcovers => absurd hcovers.2 (by omega)

end Span

namespace Pipeline

open Quoting

/-! ### One piece -/

/-- A piece is white space, the text of its stage at the offset of the stage, and white space. -/
theorem exists_eq_append_ofSegment (t : Text) :
    ∃ front back, t = front ++ (Stage.ofSegment 0 t).text ++ back ∧ front.Blank ∧ back.Blank ∧
      (Stage.ofSegment 0 t).span = ⟨front.byteLength, (Stage.ofSegment 0 t).text.byteLength⟩ := by
  obtain ⟨back, hback, ht⟩ := Text.exists_eq_append_trim t
  refine ⟨_, back, ht.symm, Text.blank_takeWhile t, hback, ?_⟩
  ext
  · exact Nat.zero_add _
  · rfl

theorem stop_ofSegment_le (t : Text) : (Stage.ofSegment 0 t).span.stop ≤ t.byteLength :=
  (hasPartAt_ofSegment t).add_byteLength_le

theorem covers_ofSegment {t a b : Text} (h : t = a ++ '|' :: b) :
    (Stage.ofSegment 0 t).span.Covers a.byteLength := by
  obtain ⟨front, back, ht, hfront, hback, hspan⟩ := exists_eq_append_ofSegment t
  obtain ⟨x, y, rfl, htext, -⟩ := Text.exists_of_blank_append_eq hfront hback (ht.symm.trans h)
  rw [hspan, htext]
  have hpipe : '|'.utf8Size = 1 := rfl
  constructor <;> simp only [Span.stop, Text.byteLength_append, Text.byteLength_cons, hpipe] <;>
    omega

/-! ### Stages behind the first pipe -/

section AppendPipe

variable {s : Text} (hscan : neutral.scan s = neutral) (hs : s.Unsplit)

include hscan hs

theorem exists_mem_stages_append_pipe {P : Stage → Prop} (t : Text) :
    (∃ u ∈ (ofText (s ++ '|' :: t)).stages, P u) ↔
      P (Stage.ofSegment 0 s) ∨ ∃ u ∈ (ofText t).stages, P (u.shift (s.byteLength + 1)) := by
  simp [stages_append_pipe hscan (Text.unsplit_iff.mp hs)]

end AppendPipe

theorem byteLength_append_pipe (s t : Text) :
    Text.byteLength (s ++ '|' :: t) = t.byteLength + (s.byteLength + 1) := by
  simp only [Text.byteLength_append, Text.byteLength_cons, show '|'.utf8Size = 1 from rfl]
  omega

theorem pairwise_offset_stages (t : Text) : (ofText t).stages.Pairwise (·.offset < ·.offset) := by
  induction t using pipe_induction with
  | single t hseg =>
    rw [stages_of_segments_eq hseg]
    split <;> simp
  | pipe s t hscan hs ih =>
    rw [stages_append_pipe hscan hs]
    refine List.pairwise_cons.mpr ⟨fun u hu => ?_, List.pairwise_map.mpr (ih.imp fun h => ?_)⟩
    · obtain ⟨v, -, rfl⟩ := List.mem_map.mp hu
      have hstop := stop_ofSegment_le s
      simp only [Span.stop, Stage.span, Stage.offset_shift] at hstop ⊢
      omega
    · simpa using h

/-- A pipe of an expression is part of a stage exactly if something is open before it. -/
theorem exists_covers_iff {t a b : Text} (h : t = a ++ '|' :: b) :
    (∃ s ∈ (ofText t).stages, s.span.Covers a.byteLength) ↔ neutral.scan a ≠ neutral := by
  induction t using pipe_induction generalizing a b with
  | single t hseg =>
    have hblank : ¬ t.Blank := fun hblank => absurd (hblank '|' (by simp [h])) (by decide)
    rw [stages_of_segments_eq hseg, if_neg hblank]
    exact iff_of_true ⟨_, List.mem_singleton_self _, covers_ofSegment h⟩
      (Text.unsplit_iff.mpr hseg a b h)
  | pipe s t hscan hs ih =>
    have hunsplit := Text.unsplit_iff.mpr hs
    have hstop := stop_ofSegment_le s
    rw [exists_mem_stages_append_pipe hscan hunsplit]
    rcases append_cons_eq_append_cons_cases h with ⟨rfl, rfl⟩ | ⟨m, rfl, rfl⟩ | ⟨m, rfl, rfl⟩
    · -- the pipe itself, which is behind the first stage and before the others
      refine iff_of_false ?_ (not_not_intro hscan)
      rintro (hcovers | ⟨u, -, hcovers⟩)
      · exact Span.not_covers_of_stop_le hstop hcovers
      · have hstart := hcovers.1
        simp only [Stage.span_shift, Span.start_shift] at hstart
        omega
    · exact iff_of_true (Or.inl (covers_ofSegment rfl)) (hunsplit a m rfl)
    · have hlength := byteLength_append_pipe s m
      rw [hlength, Text.scan_append_pipe hscan, or_iff_right]
      · simp only [Stage.span_shift, Span.covers_shift_iff]
        exact ih rfl
      · exact Span.not_covers_of_stop_le (by omega)

/-- A piece of an expression has a stage in it unless it is the last one and blank. -/
theorem exists_within_iff {t front piece back : Text} (h : IsPiece front piece back)
    (ht : t = front ++ piece ++ back) :
    (∃ s ∈ (ofText t).stages, front.byteLength ≤ s.span.start ∧
      s.span.stop ≤ (front ++ piece).byteLength) ↔ ¬ (back = [] ∧ piece.Blank) := by
  induction t using pipe_induction generalizing front back with
  | single t hseg =>
    obtain ⟨rfl, rfl⟩ := h.of_unsplit (ht ▸ Text.unsplit_iff.mpr hseg)
    obtain rfl : t = piece := by simpa using ht
    rw [stages_of_segments_eq hseg]
    split
    · rename_i hblank
      simp [hblank]
    · rename_i hblank
      refine iff_of_true ⟨_, List.mem_singleton_self _, Nat.zero_le _, ?_⟩ fun h => hblank h.2
      exact stop_ofSegment_le t
  | pipe s t hscan hs ih =>
    have hunsplit := Text.unsplit_iff.mpr hs
    have hstop := stop_ofSegment_le s
    rw [exists_mem_stages_append_pipe hscan hunsplit]
    rcases isPiece_append_pipe hscan hunsplit h ht.symm with
      ⟨rfl, rfl, rfl⟩ | ⟨front', rfl, rfl, hpiece⟩
    · exact iff_of_true (Or.inl ⟨Nat.zero_le _, hstop⟩) fun h => absurd h.1 (by simp)
    · rw [← ih hpiece rfl, or_iff_right]
      · have hlength : Text.byteLength (s ++ '|' :: front' ++ piece) =
            Text.byteLength (front' ++ piece) + (s.byteLength + 1) := by
          rw [List.append_assoc]
          exact byteLength_append_pipe s (front' ++ piece)
        rw [hlength, byteLength_append_pipe]
        refine exists_congr fun u => and_congr_right fun _ => ?_
        simp only [Stage.span_shift, Span.start_shift, Span.stop, Span.length_shift]
        omega
      · rintro ⟨hstart, -⟩
        have hle : (Stage.ofSegment 0 s).span.start ≤ (Stage.ofSegment 0 s).span.stop :=
          Nat.le_add_right _ _
        rw [byteLength_append_pipe] at hstart
        omega

/-! ### Gaps -/

/-- The gap between the first stage and the next one, or the end, goes over the first pipe. -/
theorem gaps?_append_pipe {s t : Text} (hscan : neutral.scan s = neutral) (hs : s.Unsplit)
    (front : Text) :
    ∃ left right : Text, left.Blank ∧ right.Blank ∧ ∀ gap gaps,
      (front ++ (s ++ ['|']) ++ t).gaps? (front ++ (s ++ ['|'])).byteLength
          ((ofText t).stages.map (·.span.shift (front ++ (s ++ ['|'])).byteLength)) =
        some (gap :: gaps) →
      (front ++ (s ++ '|' :: t)).gaps? front.byteLength
          ((ofText (s ++ '|' :: t)).stages.map (·.span.shift front.byteLength)) =
        some (left :: (right ++ '|' :: gap) :: gaps) := by
  obtain ⟨left, right, heq, hleft, hright, hspan⟩ := exists_eq_append_ofSegment s
  refine ⟨left, right, hleft, hright, fun gap gaps h => ?_⟩
  have hwhole : front ++ (s ++ ['|']) =
      front ++ left ++ (Stage.ofSegment 0 s).text ++ (right ++ ['|']) := by
    simpa using congrArg (front ++ · ++ ['|']) heq
  have hfirst : (Stage.ofSegment 0 s).span.shift front.byteLength =
      ⟨(front ++ left).byteLength, (Stage.ofSegment 0 s).text.byteLength⟩ := by
    rw [hspan, Text.byteLength_append, Nat.add_comm]
    rfl
  have hlength : (front ++ (s ++ ['|'])).byteLength = s.byteLength + 1 + front.byteLength := by
    rw [Text.byteLength_append, byteLength_append_pipe, Text.byteLength_nil]
    omega
  have hothers : (ofText t).stages.map ((·.span.shift front.byteLength) ∘
      (·.shift (s.byteLength + 1))) =
        (ofText t).stages.map (·.span.shift (front ++ (s ++ ['|'])).byteLength) := by
    simp only [hlength, Function.comp_def, Stage.span_shift, Span.shift_shift]
  have hbehind : front ++ (s ++ '|' :: t) = front ++ (s ++ ['|']) ++ t := by simp
  rw [stages_append_pipe hscan (Text.unsplit_iff.mp hs), List.map_cons, List.map_map, hfirst,
    hothers, hbehind, hwhole]
  rw [hwhole] at h
  exact (Text.gaps?_append_cons_append h).trans (by simp)

/-- The stages of an expression that stands behind other text have white space in front; between
two of them stands one pipe, and behind the last of them at most one. -/
theorem exists_gaps?_stages (t front : Text) :
    ((ofText t).stages = [] ∧ t.Blank) ∨
      ∃ before between behind, (front ++ t).gaps? front.byteLength
          ((ofText t).stages.map (·.span.shift front.byteLength)) =
            some (before :: (between ++ [behind])) ∧
        before.Blank ∧ (∀ g ∈ between, g.OnePipe) ∧ (behind.Blank ∨ behind.OnePipe) := by
  induction t using pipe_induction generalizing front with
  | single t hseg =>
    rw [stages_of_segments_eq hseg]
    split
    · exact Or.inl ⟨rfl, by assumption⟩
    · obtain ⟨left, right, ht, hleft, hright, hspan⟩ := exists_eq_append_ofSegment t
      refine Or.inr ⟨left, [], right, ?_, hleft, by simp, Or.inl hright⟩
      have hgaps := Text.gaps?_append_cons
        (Text.gaps?_nil (front ++ left ++ (Stage.ofSegment 0 t).text) right)
      simpa [hspan, ← ht, Span.shift, Nat.add_comm] using hgaps
  | pipe s t hscan hs ih =>
    obtain ⟨left, right, hleft, hright, hgaps⟩ :=
      gaps?_append_pipe (t := t) hscan (Text.unsplit_iff.mpr hs) front
    have hpipe {gap : Text} (h : gap.Blank) : Text.OnePipe (right ++ '|' :: gap) :=
      ⟨right, gap, rfl, hright, h⟩
    rcases ih (front ++ (s ++ ['|'])) with ⟨hnone, hblank⟩ |
      ⟨before, between, behind, hrest, hbefore, hbetween, hbehind⟩
    · refine Or.inr ⟨left, [], right ++ '|' :: t, ?_, hleft, by simp, Or.inr (hpipe hblank)⟩
      exact hgaps t [] (by rw [hnone]; exact Text.gaps?_nil _ t)
    · refine Or.inr ⟨left, (right ++ '|' :: before) :: between, behind, hgaps _ _ hrest, hleft, ?_,
        hbehind⟩
      exact List.forall_mem_cons.mpr ⟨hpipe hbefore, hbetween⟩

/-! ### Expressions -/

/-- How stages lie in an expression. -/
structure Tiles (t : Text) (stages : List Stage) : Prop where
  /-- The stages are in the order of their offsets. -/
  ordered : stages.Pairwise (·.offset < ·.offset)
  /-- A stage stands in the expression at its offset, without white space at its ends. -/
  placed : ∀ s ∈ stages, t.slice? s.span.start s.span.stop = some s.text ∧ s.text.Trimmed
  /-- Before the first stage stands white space, between two stages one pipe, and behind the last
  stage at most one. -/
  gaps : stages ≠ [] → ∃ before between behind,
    t.gaps? 0 (stages.map Stage.span) = some (before :: (between ++ [behind])) ∧
      before.Blank ∧ (∀ g ∈ between, g.OnePipe) ∧ (behind.Blank ∨ behind.OnePipe)
  /-- The pipes outside of all stages are the separating ones. -/
  pipes : ∀ a b, t = a ++ '|' :: b →
    ((∀ s ∈ stages, ¬ s.span.Covers a.byteLength) ↔ neutral.scan a = neutral)
  /-- There is a piece behind the last separating pipe. -/
  last : ∃ front piece, t = front ++ piece ∧ IsPiece front piece []
  /-- Only the piece behind the last separating pipe can be without a stage, and it is if it is
  blank. -/
  pieces : ∀ front piece back, t = front ++ piece ++ back → IsPiece front piece back →
    ((∀ s ∈ stages, ¬ (front.byteLength ≤ s.span.start ∧
      s.span.stop ≤ (front ++ piece).byteLength)) ↔ back = [] ∧ piece.Blank)

/-- **The stages of an expression tile it.** They stand in the expression one after the other; all
that is left is white space and the separating pipes, of which each closes one stage. -/
theorem stages_tile (t : Text) : Tiles t (ofText t).stages where
  ordered := pairwise_offset_stages t
  placed s hs :=
    ⟨Text.hasPartAt_iff_slice?.mp (hasPartAt_of_mem_stages s hs), trimmed_of_mem_stages s hs⟩
  gaps hne := by
    rcases exists_gaps?_stages t [] with ⟨hnone, -⟩ | hgaps
    · exact absurd hnone hne
    · simpa using hgaps
  pipes a b h := by
    simpa using not_congr (exists_covers_iff h)
  last := exists_isPiece_last t
  pieces front piece back ht h := by
    simpa using not_congr (exists_within_iff h ht)

end Pipeline

end PipeLint
