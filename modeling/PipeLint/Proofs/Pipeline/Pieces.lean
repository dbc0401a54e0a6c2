import PipeLint.Proofs.Pipeline.Stages

/-!
# The pieces of an expression

The separating pipes of an expression are those before which nothing is open, when the expression
is read from its start. They cut it into pieces without separating pipes; white space around a piece
neither makes nor hides a pipe. The text of a stage is a piece without the white space around it.

## Main definitions

* `PipeLint.Text.Unsplit`: a text without separating pipes.
* `PipeLint.Pipeline.IsPiece`: a piece between neighbouring separating pipes.

## Main results

* `PipeLint.Text.unsplit_iff`: the texts without separating pipes are those that are not cut.
* `PipeLint.Text.unsplit_append_iff`: white space around a text makes no difference.
* `PipeLint.Pipeline.unsplit_of_mem_stages`, `PipeLint.Pipeline.trimmed_of_mem_stages`: the texts of
  stages.
* `PipeLint.Pipeline.isPiece_append_pipe`: the first piece, and the pieces behind it.
* `PipeLint.Pipeline.exists_stages_append_append`: which stages do not depend on a part of a piece.
-/

namespace PipeLint

/-! ### Cuts of a list -/

section Cut

variable {α : Type*} {c : α} {a b x y : List α}

theorem exists_of_append_eq_of_notMem_left (hc : c ∉ a) (h : a ++ b = x ++ c :: y) :
    ∃ m, x = a ++ m ∧ b = m ++ c :: y := by
  rcases List.append_eq_append_iff.mp h with ⟨m, rfl, hm⟩ | ⟨m, rfl, hm⟩
  · exact ⟨m, rfl, hm⟩
  · cases m with
    | nil => exact ⟨[], by simp, hm.symm⟩
    | cons d m =>
      obtain ⟨rfl, -⟩ := List.cons.inj hm
      simp at hc

theorem exists_of_append_eq_of_notMem_right (hc : c ∉ b) (h : a ++ b = x ++ c :: y) :
    ∃ m, a = x ++ c :: m ∧ y = m ++ b := by
  rcases List.append_eq_append_iff.mp h with ⟨m, -, rfl⟩ | ⟨m, rfl, hm⟩
  · simp at hc
  · cases m with
    | nil =>
      obtain rfl : c :: y = b := hm
      simp at hc
    | cons d m =>
      obtain ⟨rfl, rfl⟩ := List.cons.inj hm
      exact ⟨m, rfl, rfl⟩

/-- Two cuts of a list at an element are the same, or one of them comes first. -/
theorem append_cons_eq_append_cons_cases (h : a ++ c :: b = x ++ c :: y) :
    (x = a ∧ y = b) ∨ (∃ m, a = x ++ c :: m ∧ y = m ++ c :: b) ∨
      ∃ m, x = a ++ c :: m ∧ b = m ++ c :: y := by
  rcases List.append_eq_append_iff.mp h with ⟨m, rfl, hm⟩ | ⟨m, rfl, hm⟩
  · cases m with
    | nil => exact Or.inl ⟨by simp, (List.cons.inj hm).2.symm⟩
    | cons d m =>
      obtain ⟨rfl, rfl⟩ := List.cons.inj hm
      exact Or.inr (Or.inr ⟨m, rfl, rfl⟩)
  · cases m with
    | nil => exact Or.inl ⟨by simp, (List.cons.inj hm).2⟩
    | cons d m =>
      obtain ⟨rfl, rfl⟩ := List.cons.inj hm
      exact Or.inr (Or.inl ⟨m, rfl, rfl⟩)

end Cut

namespace Text

open Quoting

/-! ### Texts without separating pipes -/

/-- A text has no separating pipe when something is open before each of its pipes. -/
def Unsplit (t : Text) : Prop :=
  ∀ a b, t = a ++ '|' :: b → neutral.scan a ≠ neutral

/-- A text has no separating pipe exactly if it is not cut. -/
theorem unsplit_iff {t : Text} : t.Unsplit ↔ neutral.segments t = (t, []) := by
  constructor
  · intro h
    rcases segments_cases neutral t with hseg | ⟨a, b, ht, hscan, -⟩
    · exact hseg
    · exact absurd hscan (h a b ht)
  · rintro h a b rfl hscan
    rw [segments_append_pipe hscan] at h
    simp at h

theorem unsplit_of_notMem {t : Text} (h : '|' ∉ t) : t.Unsplit :=
  fun a b ht => absurd (by simp [ht]) h

theorem Unsplit.append {s t : Text} (hs : s.Unsplit) (hscan : neutral.scan s = neutral)
    (ht : t.Unsplit) : (s ++ t).Unsplit := by
  intro a b h
  rcases List.append_eq_append_iff.mp h with ⟨m, rfl, hm⟩ | ⟨m, rfl, hm⟩
  · rw [scan_append, hscan]
    exact ht m b hm
  · cases m with
    | nil =>
      exact absurd rfl (ht [] b hm.symm)
    | cons d m =>
      obtain ⟨rfl, -⟩ := List.cons.inj hm
      exact hs a m rfl

instance (t : Text) : Decidable t.Unsplit :=
  decidable_of_iff _ unsplit_iff.symm

theorem exists_of_blank_append_eq {left t right a b : Text} (hleft : left.Blank)
    (hright : right.Blank) (h : left ++ t ++ right = a ++ '|' :: b) :
    ∃ x y, a = left ++ x ∧ t = x ++ '|' :: y ∧ b = y ++ right := by
  have hnot {s : Text} (hs : s.Blank) : '|' ∉ s := fun hmem => absurd (hs _ hmem) (by decide)
  obtain ⟨y, hy, rfl⟩ := exists_of_append_eq_of_notMem_right (hnot hright) h
  obtain ⟨x, rfl, rfl⟩ := exists_of_append_eq_of_notMem_left (hnot hleft) hy
  exact ⟨x, y, rfl, rfl, rfl⟩

/-- White space around a text makes no difference to its pipes. -/
theorem unsplit_append_iff {left t right : Text} (hleft : left.Blank) (hright : right.Blank) :
    (left ++ t ++ right).Unsplit ↔ t.Unsplit := by
  constructor
  · rintro h x y rfl hx
    refine h (left ++ x) (y ++ right) (by simp) ?_
    rw [scan_append, hleft.scan_neutral, hx]
  · intro h a b heq ha
    obtain ⟨x, y, rfl, rfl, -⟩ := exists_of_blank_append_eq hleft hright heq
    rw [scan_append, hleft.scan_neutral] at ha
    exact h x y rfl ha

theorem unsplit_trim_iff {t : Text} : t.trim.Unsplit ↔ t.Unsplit := by
  obtain ⟨back, hback, ht⟩ := exists_eq_append_trim t
  rw [← unsplit_append_iff (blank_takeWhile t) hback, ht]

theorem scan_append_pipe {s : Text} (hs : neutral.scan s = neutral) (t : Text) :
    neutral.scan (s ++ '|' :: t) = neutral.scan t := by
  rw [scan_append, hs]
  rfl

end Text

namespace Pipeline

open Quoting

/-! ### The texts of stages -/

/-- What holds of the trimmed pieces of an expression holds of the texts of its stages. -/
theorem forall_mem_stages_of_unsplit {P : Text → Prop}
    (h : ∀ segment : Text, segment.Unsplit → P segment.trim) {t : Text} :
    ∀ s ∈ (ofText t).stages, P s.text := by
  induction t using pipe_induction with
  | single t hseg =>
    intro s hs
    rw [stages_of_segments_eq hseg] at hs
    split at hs
    · simp at hs
    · obtain rfl := List.mem_singleton.mp hs
      exact h t (Text.unsplit_iff.mpr hseg)
  | pipe a t hscan ha ih =>
    rw [stages_append_pipe hscan ha]
    refine List.forall_mem_cons.mpr ⟨h a (Text.unsplit_iff.mpr ha), fun s hs => ?_⟩
    obtain ⟨u, hu, rfl⟩ := List.mem_map.mp hs
    exact ih u hu

/-- The text of a stage has no white space at its ends. -/
theorem trimmed_of_mem_stages {t : Text} : ∀ s ∈ (ofText t).stages, s.text.Trimmed :=
  forall_mem_stages_of_unsplit fun segment _ => Text.trimmed_trim segment

/-- The text of a stage has no separating pipe. -/
theorem unsplit_of_mem_stages {t : Text} : ∀ s ∈ (ofText t).stages, s.text.Unsplit :=
  forall_mem_stages_of_unsplit fun _ h => Text.unsplit_trim_iff.mpr h

theorem stages_of_trimmed {t : Text} (hne : t ≠ []) (htrimmed : t.Trimmed) (hunsplit : t.Unsplit) :
    (ofText t).stages = [⟨t, 0⟩] := by
  have hlead : t.takeWhile isBlank = [] := by
    simpa using htrimmed.takeWhile_append Text.blank_nil hne []
  rw [stages_of_segments_eq (Text.unsplit_iff.mp hunsplit), if_neg (htrimmed.not_blank hne),
    Stage.ofSegment, htrimmed.trim_eq, hlead]
  rfl

/-! ### Pieces -/

/-- A piece of an expression, with what stands before and behind it: it reaches from the start or a
separating pipe to the next separating pipe or the end. -/
structure IsPiece (front piece back : Text) : Prop where
  /-- The piece starts behind a separating pipe unless it is the first one. -/
  front_eq : front = [] ∨ ∃ a, front = a ++ ['|'] ∧ neutral.scan a = neutral
  /-- There is no separating pipe in the piece. -/
  scan_ne : ∀ a b, piece = a ++ '|' :: b → neutral.scan (front ++ a) ≠ neutral
  /-- The piece ends before a separating pipe unless it is the last one. -/
  back_eq : back = [] ∨ ∃ b, back = '|' :: b ∧ neutral.scan (front ++ piece) = neutral

/-- Nothing is open before a piece. -/
theorem IsPiece.scan_front {front piece back : Text} (h : IsPiece front piece back) :
    neutral.scan front = neutral := by
  rcases h.front_eq with rfl | ⟨a, rfl, ha⟩
  · rfl
  · exact Text.scan_append_pipe ha []

theorem IsPiece.unsplit {front piece back : Text} (h : IsPiece front piece back) :
    piece.Unsplit := by
  intro a b hab
  have hne := h.scan_ne a b hab
  rwa [scan_append, h.scan_front] at hne

theorem IsPiece.of_unsplit {front piece back : Text} (h : IsPiece front piece back)
    (ht : (front ++ piece ++ back).Unsplit) : front = [] ∧ back = [] := by
  constructor
  · rcases h.front_eq with hfront | ⟨a, rfl, ha⟩
    · exact hfront
    · exact absurd ha (ht a (piece ++ back) (by simp))
  · rcases h.back_eq with hback | ⟨b, rfl, hb⟩
    · exact hback
    · exact absurd hb (ht (front ++ piece) b rfl)

theorem IsPiece.append_pipe {s front piece back : Text} (h : IsPiece front piece back)
    (hscan : neutral.scan s = neutral) : IsPiece (s ++ '|' :: front) piece back where
  front_eq := by
    rcases h.front_eq with rfl | ⟨a, rfl, ha⟩
    · exact Or.inr ⟨s, rfl, hscan⟩
    · exact Or.inr ⟨s ++ '|' :: a, by simp, by rw [Text.scan_append_pipe hscan, ha]⟩
  scan_ne a b hab := by
    rw [List.append_assoc, List.cons_append, Text.scan_append_pipe hscan]
    exact h.scan_ne a b hab
  back_eq := by
    rw [List.append_assoc, List.cons_append, Text.scan_append_pipe hscan]
    exact h.back_eq

theorem exists_isPiece_last (t : Text) : ∃ front piece, t = front ++ piece ∧
    IsPiece front piece [] := by
  induction t using pipe_induction with
  | single t hseg => exact ⟨[], t, rfl, Or.inl rfl, Text.unsplit_iff.mpr hseg, Or.inl rfl⟩
  | pipe s t hscan _ ih =>
    obtain ⟨front, piece, rfl, hpiece⟩ := ih
    exact ⟨s ++ '|' :: front, piece, by simp, hpiece.append_pipe hscan⟩

/-- A piece of an expression that starts with a piece and a pipe is this piece, or it is one of the
expression behind the pipe. -/
theorem isPiece_append_pipe {s t front piece back : Text} (hscan : neutral.scan s = neutral)
    (hs : s.Unsplit) (h : IsPiece front piece back) (heq : front ++ piece ++ back = s ++ '|' :: t) :
    (front = [] ∧ piece = s ∧ back = '|' :: t) ∨
      ∃ front', front = s ++ '|' :: front' ∧ t = front' ++ piece ++ back ∧
        IsPiece front' piece back := by
  -- moved behind the pipe, what is read before a place is the same
  have hmove {front' : Text} (hfront' : front' = [] ∨ ∃ a, front' = a ++ ['|'] ∧
      neutral.scan a = neutral) (hfront : front = s ++ '|' :: front') :
      IsPiece front' piece back := by
    have hread (m : Text) : neutral.scan (front ++ m) = neutral.scan (front' ++ m) := by
      rw [hfront, List.append_assoc, List.cons_append, Text.scan_append_pipe hscan]
    exact ⟨hfront', fun a b hab => hread a ▸ h.scan_ne a b hab, hread piece ▸ h.back_eq⟩
  rcases h.front_eq with rfl | ⟨a, rfl, ha⟩
  · refine Or.inl ⟨rfl, ?_⟩
    rcases h.back_eq with rfl | ⟨b, rfl, hb⟩
    · exact absurd hscan (h.scan_ne s t (by simpa using heq))
    · rcases append_cons_eq_append_cons_cases heq.symm with
        ⟨hpiece, rfl⟩ | ⟨m, hm, -⟩ | ⟨m, hm, -⟩
      · exact ⟨hpiece, rfl⟩
      · exact absurd hb (hs _ m hm)
      · exact absurd hscan (h.scan_ne s m hm)
  · refine Or.inr ?_
    have hcut : s ++ '|' :: t = a ++ '|' :: (piece ++ back) := by simpa using heq.symm
    rcases append_cons_eq_append_cons_cases hcut with ⟨rfl, rfl⟩ | ⟨m, hm, -⟩ | ⟨m, rfl, rfl⟩
    · exact ⟨[], rfl, rfl, hmove (Or.inl rfl) rfl⟩
    · exact absurd ha (hs a m hm)
    · rw [Text.scan_append_pipe hscan] at ha
      exact ⟨m ++ ['|'], by simp, by simp, hmove (Or.inr ⟨m, rfl, ha⟩) (by simp)⟩

/-! ### Stages around a place -/

/-- The stages of the pieces that are closed by a pipe do not depend on what follows them. -/
theorem exists_stages_append {front : Text}
    (h : front = [] ∨ ∃ a, front = a ++ ['|'] ∧ neutral.scan a = neutral) :
    ∃ closed, ∀ t, (ofText (front ++ t)).stages =
      closed ++ (ofText t).stages.map (·.shift front.byteLength) := by
  rcases h with rfl | ⟨s, rfl, hscan⟩
  · exact ⟨[], fun t => by simp [Stage.shift]⟩
  induction s using pipe_induction with
  | single s hs =>
    refine ⟨[Stage.ofSegment 0 s], fun t => ?_⟩
    rw [List.append_assoc, List.singleton_append, stages_append_pipe hscan hs,
      Text.byteLength_append]
    rfl
  | pipe a b ha hseg ih =>
    obtain ⟨closed, hclosed⟩ := ih (by rwa [Text.scan_append_pipe ha] at hscan)
    refine ⟨Stage.ofSegment 0 a :: closed.map (·.shift (a.byteLength + 1)), fun t => ?_⟩
    have hlength : Text.byteLength (a ++ '|' :: b ++ ['|']) =
        Text.byteLength (b ++ ['|']) + (a.byteLength + 1) := by
      simp only [Text.byteLength_append, Text.byteLength_cons, show '|'.utf8Size = 1 from rfl]
      omega
    have hwhole : a ++ '|' :: b ++ ['|'] ++ t = a ++ '|' :: (b ++ ['|'] ++ t) := by simp
    rw [hwhole, stages_append_pipe ha hseg, hclosed, hlength]
    simp [Function.comp_def, Stage.shift, Nat.add_assoc]

/-- The piece in which a text stands, and the stages behind this piece, which do not depend on the
text. -/
theorem exists_stages_append_append {piece : Text} (hpiece : piece.Unsplit)
    (hscan : neutral.scan piece = neutral) (b : Text) :
    ∃ (behind : Text) (others : List Stage), ∀ m : Text, m.Unsplit → neutral.scan m = neutral →
      ¬ m.Blank → (ofText (piece ++ m ++ b)).stages =
        Stage.ofSegment 0 (piece ++ m ++ behind) ::
          others.map (·.shift ((piece ++ m ++ behind).byteLength + 1)) := by
  have hfront {m : Text} (hm : m.Unsplit) (hmscan : neutral.scan m = neutral) :
      (piece ++ m).Unsplit ∧ neutral.scan (piece ++ m) = neutral :=
    ⟨hpiece.append hscan hm, by rw [scan_append, hscan, hmscan]⟩
  rcases segments_cases neutral b with hb | ⟨behind, rest, rfl, hbehind, hseg⟩
  · refine ⟨b, [], fun m hm hmscan hblank => ?_⟩
    obtain ⟨hunsplit, hneutral⟩ := hfront hm hmscan
    have hwhole : ¬ Text.Blank (piece ++ m ++ b) := by
      rw [Text.blank_append, Text.blank_append]
      exact fun h => hblank h.1.2
    rw [stages_of_segments_eq
      (Text.unsplit_iff.mp (hunsplit.append hneutral (Text.unsplit_iff.mpr hb))), if_neg hwhole]
    rfl
  · refine ⟨behind, (ofText rest).stages, fun m hm hmscan _ => ?_⟩
    obtain ⟨hunsplit, hneutral⟩ := hfront hm hmscan
    rw [← List.append_assoc, stages_append_pipe (by rw [scan_append, hneutral, hbehind])
      (Text.unsplit_iff.mp (hunsplit.append hneutral (Text.unsplit_iff.mpr hseg)))]

end Pipeline

end PipeLint
