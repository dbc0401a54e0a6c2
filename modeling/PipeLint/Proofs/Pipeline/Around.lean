import PipeLint.Proofs.Pipeline.Pieces

/-!
# White space and pipes around an expression

White space in front of an expression moves its stages, and white space behind it does nothing to
them. A pipe behind an expression closes a stage, as every separating pipe does. If the last piece
of the expression has text, the first pipe behind it closes the stage that the expression ends in;
each of the others closes a stage without text.

## Main definitions

* `PipeLint.Text.BarePipes`: a text of pipes and white space.

## Main results

* `PipeLint.Pipeline.stages_blank_append` and `PipeLint.Pipeline.stages_append_blank`: white space
  in front of an expression and behind it.
* `PipeLint.Pipeline.exists_stages_append_barePipes`: pipes and white space behind an expression.
-/

namespace PipeLint

/-! ### One piece -/

namespace Stage

variable {w s : Text}

theorem ofSegment_blank_append (hw : w.Blank) (s : Text) :
    ofSegment 0 (w ++ s) = (ofSegment 0 s).shift w.byteLength := by
  refine Stage.ext ?_ ?_
  · have htrim := Text.trim_append_of_blank hw Text.blank_nil s
    rwa [List.append_nil] at htrim
  · simp only [ofSegment, offset_shift, List.takeWhile_append_of_pos hw, Text.byteLength_append]
    omega

/-- White space behind a piece with text does nothing to its stage. -/
theorem ofSegment_append_blank (hw : w.Blank) (hs : ¬ s.Blank) :
    ofSegment 0 (s ++ w) = ofSegment 0 s := by
  rw [ofSegment, ofSegment, Text.takeWhile_append_of_not_blank hs,
    ← List.nil_append (s ++ w), ← List.append_assoc, Text.trim_append_of_blank Text.blank_nil hw]

end Stage

namespace Pipeline

open Quoting

/-! ### White space -/

section Blank

variable {w : Text} (hw : w.Blank) (t : Text)

include hw

/-- White space behind an expression does nothing to its stages. -/
theorem stages_append_blank : (ofText (t ++ w)).stages = (ofText t).stages := by
  induction t using pipe_induction with
  | single t hseg =>
    have hwhole : (t ++ w).Unsplit := by
      simpa using (Text.unsplit_append_iff Text.blank_nil hw).mpr (Text.unsplit_iff.mpr hseg)
    rw [stages_of_segments_eq (Text.unsplit_iff.mp hwhole), stages_of_segments_eq hseg]
    by_cases ht : t.Blank
    · rw [if_pos (Text.blank_append.mpr ⟨ht, hw⟩), if_pos ht]
    · rw [if_neg fun h => ht (Text.blank_append.mp h).1, if_neg ht,
        Stage.ofSegment_append_blank hw ht]
  | pipe s t hscan hs ih =>
    rw [List.append_assoc, List.cons_append, stages_append_pipe hscan hs, ih,
      stages_append_pipe hscan hs]

/-- White space in front of an expression moves its stages. -/
theorem stages_blank_append :
    (ofText (w ++ t)).stages = (ofText t).stages.map (·.shift w.byteLength) := by
  have hunsplit {s : Text} (hs : neutral.segments s = (s, [])) :
      neutral.segments (w ++ s) = (w ++ s, []) := by
    refine Text.unsplit_iff.mp ?_
    simpa using (Text.unsplit_append_iff hw Text.blank_nil).mpr (Text.unsplit_iff.mpr hs)
  rcases segments_cases neutral t with hseg | ⟨s, t, rfl, hscan, hs⟩
  · rw [stages_of_segments_eq (hunsplit hseg), stages_of_segments_eq hseg]
    by_cases ht : t.Blank
    · rw [if_pos (Text.blank_append.mpr ⟨hw, ht⟩), if_pos ht, List.map_nil]
    · rw [if_neg fun h => ht (Text.blank_append.mp h).2, if_neg ht,
        Stage.ofSegment_blank_append hw, List.map_singleton]
  · have hneutral : neutral.scan (w ++ s) = neutral := by
      rw [scan_append, hw.scan_neutral, hscan]
    have hlength : Text.byteLength (w ++ s) + 1 = s.byteLength + 1 + w.byteLength := by
      rw [Text.byteLength_append]
      omega
    rw [← List.append_assoc, stages_append_pipe hneutral (hunsplit hs),
      stages_append_pipe hscan hs, Stage.ofSegment_blank_append hw, hlength, List.map_cons,
      List.map_map]
    simp [Function.comp_def, Stage.shift, Nat.add_assoc]

end Blank

end Pipeline

/-! ### Pipes and white space -/

/-- A text of pipes and white space only. -/
def Text.BarePipes (t : Text) : Prop :=
  ∀ c ∈ t, c = '|' ∨ isBlank c = true

instance (t : Text) : Decidable t.BarePipes :=
  decidable_of_iff (t.all (fun c => c = '|' || isBlank c) = true) (by simp [Text.BarePipes])

namespace Text.BarePipes

open Quoting

variable {s t : Text}

theorem append_iff : BarePipes (s ++ t) ↔ s.BarePipes ∧ t.BarePipes :=
  List.forall_mem_append

theorem scan_neutral (h : t.BarePipes) : neutral.scan t = neutral := by
  refine scan_neutral_of_isPlain fun c hc => ?_
  rcases h c hc with rfl | hblank
  · decide
  · exact isPlain_of_isBlank hblank

/-- Pipes separate stages if there is nothing else but white space, so only white space has no
separating pipe. -/
theorem blank_of_unsplit (h : t.BarePipes) (ht : t.Unsplit) : t.Blank := by
  intro c hc
  refine (h c hc).resolve_left ?_
  rintro rfl
  obtain ⟨a, b, rfl⟩ := List.append_of_mem hc
  exact ht a b rfl (append_iff.mp h).1.scan_neutral

end Text.BarePipes

theorem Text.Blank.count_pipe {w : Text} (hw : w.Blank) : w.count '|' = 0 :=
  List.count_eq_zero.mpr fun hmem => absurd (hw _ hmem) (by decide)

namespace Pipeline

open Quoting

variable {t : Text} (ht : t.BarePipes)

include ht

/-- Every pipe among white space closes a stage without text. -/
theorem stages_of_barePipes :
    (∀ s ∈ (ofText t).stages, s.text = []) ∧ (ofText t).stages.length = t.count '|' := by
  induction t using pipe_induction with
  | single t hseg =>
    have hblank := ht.blank_of_unsplit (Text.unsplit_iff.mpr hseg)
    simp [stages_of_segments_eq hseg, hblank, hblank.count_pipe]
  | pipe s t hscan hs ih =>
    obtain ⟨hfront, hback⟩ := Text.BarePipes.append_iff.mp ht
    obtain ⟨htexts, hlength⟩ := ih (List.forall_mem_cons.mp hback).2
    have hblank := hfront.blank_of_unsplit (Text.unsplit_iff.mpr hs)
    rw [stages_append_pipe hscan hs]
    constructor
    · refine List.forall_mem_cons.mpr ⟨Text.trim_eq_nil_iff.mpr hblank, ?_⟩
      simpa using htexts
    · simp [hlength, hblank.count_pipe]

theorem exists_stages_unsplit_append {piece : Text} (hpiece : piece.Unsplit)
    (hscan : neutral.scan piece = neutral) :
    ∃ added, (ofText (piece ++ t)).stages = (ofText piece).stages ++ added ∧
      (∀ s ∈ added, s.text = []) ∧
      (added ≠ [] ↔ '|' ∈ t ∧ (piece.Blank ∨ 1 < t.count '|')) := by
  have hseg := Text.unsplit_iff.mp hpiece
  rcases segments_cases neutral t with hnone | ⟨w, t, rfl, hneutral, hw⟩
  · have hblank := ht.blank_of_unsplit (Text.unsplit_iff.mpr hnone)
    refine ⟨[], by rw [stages_append_blank hblank, List.append_nil], by simp, ?_⟩
    exact iff_of_false (by simp) fun h => absurd (hblank _ h.1) (by decide)
  · obtain ⟨hfront, hback⟩ := Text.BarePipes.append_iff.mp ht
    have hblank := hfront.blank_of_unsplit (Text.unsplit_iff.mpr hw)
    obtain ⟨htexts, hlength⟩ := stages_of_barePipes (List.forall_mem_cons.mp hback).2
    have hcount : (w ++ '|' :: t).count '|' = t.count '|' + 1 := by
      simp [hblank.count_pipe]
    have hunsplit : (piece ++ w).Unsplit := by
      simpa using (Text.unsplit_append_iff Text.blank_nil hblank).mpr hpiece
    have hstages : (ofText (piece ++ (w ++ '|' :: t))).stages =
        Stage.ofSegment 0 (piece ++ w) ::
          (ofText t).stages.map (·.shift ((piece ++ w).byteLength + 1)) := by
      rw [← List.append_assoc, stages_append_pipe (by rw [scan_append, hscan, hneutral])
        (Text.unsplit_iff.mp hunsplit)]
    have hothers : ∀ s ∈ (ofText t).stages.map (·.shift ((piece ++ w).byteLength + 1)),
        s.text = [] := by
      simpa using htexts
    rw [hstages, stages_of_segments_eq hseg, hcount]
    by_cases hpieceblank : piece.Blank
    · have hnothing : (Stage.ofSegment 0 (piece ++ w)).text = [] :=
        Text.trim_eq_nil_iff.mpr (Text.blank_append.mpr ⟨hpieceblank, hblank⟩)
      rw [if_pos hpieceblank]
      exact ⟨_, rfl, List.forall_mem_cons.mpr ⟨hnothing, hothers⟩, by simp [hpieceblank]⟩
    · rw [if_neg hpieceblank, Stage.ofSegment_append_blank hblank hpieceblank]
      refine ⟨_, rfl, hothers, ?_⟩
      rw [← List.length_pos_iff, List.length_map, hlength]
      simp [hpieceblank]

/-- Pipes and white space behind an expression that leaves nothing open add stages without text:
one for each pipe, but for the pipe that closes the stage of the last piece. -/
theorem exists_stages_append_barePipes {front piece : Text} (hpiece : IsPiece front piece [])
    (hscan : neutral.scan (front ++ piece) = neutral) :
    ∃ added, (ofText (front ++ piece ++ t)).stages = (ofText (front ++ piece)).stages ++ added ∧
      (∀ s ∈ added, s.text = []) ∧
      (added ≠ [] ↔ '|' ∈ t ∧ (piece.Blank ∨ 1 < t.count '|')) := by
  rw [scan_append, hpiece.scan_front] at hscan
  obtain ⟨closed, hclosed⟩ := exists_stages_append hpiece.front_eq
  obtain ⟨added, hadded, htexts, hnone⟩ := exists_stages_unsplit_append ht hpiece.unsplit hscan
  refine ⟨added.map (·.shift front.byteLength), ?_, by simpa using htexts, by simpa using hnone⟩
  rw [List.append_assoc, hclosed, hclosed, hadded, List.map_append, List.append_assoc]

end Pipeline

end PipeLint
