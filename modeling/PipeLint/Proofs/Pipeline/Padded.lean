import PipeLint.Proofs.Pipeline.Pieces

/-!
# Expressions written stage by stage

An expression can be written down stage by stage, with white space around the text of each stage and
a pipe between neighbours. If the text of a stage has no separating pipe, and that of every stage
but the last leaves nothing open, the stages of the expression are the ones that were written, each
at the place of its text. A stage without text is found at the pipe that closes it.

## Main definitions

* `PipeLint.PaddedStage`: the text of a stage with white space around it.
* `PipeLint.PaddedStage.joined`: stages written one after the other.
* `PipeLint.PaddedStage.leading`: what is written before a stage.

## Main results

* `PipeLint.PaddedStage.stages_joined_eq`: the stages that are read from joined stages.
* `PipeLint.PaddedStage.stages_joined`: their texts and their places.
-/

namespace PipeLint

open Quoting

/-- A stage as it is written: its text with white space around it. -/
structure PaddedStage where
  /-- The white space before the text. -/
  left : Text
  /-- The text of the stage. -/
  text : Text
  /-- The white space behind the text. -/
  right : Text
  blank_left : left.Blank
  blank_right : right.Blank
  /-- The text has no white space of its own at its ends. -/
  trimmed : text.Trimmed
  /-- Read on its own, the text has no separating pipe. -/
  unsplit : text.Unsplit

namespace PaddedStage

/-- The text of the stage and the white space around it. -/
def spelled (p : PaddedStage) : Text :=
  p.left ++ p.text ++ p.right

/-- Stages written one after the other, with a pipe between neighbours. -/
def joined (stages : List PaddedStage) : Text :=
  ['|'].intercalate (stages.map spelled)

/-- What is written before a stage: the stages in front of it, each with the pipe that closes it. -/
def leading (stages : List PaddedStage) : Text :=
  stages.flatMap fun p => p.spelled ++ ['|']

theorem joined_cons {stages : List PaddedStage} (hne : stages ≠ []) (p : PaddedStage) :
    joined (p :: stages) = p.spelled ++ '|' :: joined stages := by
  obtain ⟨q, others, rfl⟩ := List.exists_cons_of_ne_nil hne
  simp [joined, List.intercalate_cons_cons]

/-- What joined stages spell from a stage on: the stage, and the pipe behind it if another stage
follows. -/
theorem exists_joined_cons_eq (p : PaddedStage) (stages : List PaddedStage) :
    ∃ rest, joined (p :: stages) = p.spelled ++ rest ∧ (stages ≠ [] → rest.head? = some '|') := by
  cases stages with
  | nil => exact ⟨[], by simp [joined], by simp⟩
  | cons q stages => exact ⟨_, joined_cons (List.cons_ne_nil q stages) p, by simp⟩

theorem joined_append_cons (front : List PaddedStage) (p : PaddedStage)
    (back : List PaddedStage) :
    joined (front ++ p :: back) = leading front ++ joined (p :: back) := by
  induction front with
  | nil => rfl
  | cons q front ih =>
    rw [List.cons_append, joined_cons (by simp), ih]
    simp [leading]

/-! ### One stage -/

/-- The white space that is read before the place of a stage. -/
def lead (p : PaddedStage) : Text :=
  if p.text = [] then p.left ++ p.right else p.left

theorem ofSegment_spelled (p : PaddedStage) :
    Stage.ofSegment 0 p.spelled = ⟨p.text, p.lead.byteLength⟩ := by
  have htext : p.spelled.trim = p.text := p.trimmed.trim_append p.blank_left p.blank_right
  have hlead : p.spelled.takeWhile isBlank = p.lead := by
    rw [spelled, lead]
    split
    · rename_i hnil
      rw [hnil, List.append_nil]
      exact List.takeWhile_eq_self_iff.mpr (Text.blank_append.mpr ⟨p.blank_left, p.blank_right⟩)
    · rename_i hne
      exact p.trimmed.takeWhile_append p.blank_left hne p.right
  rw [Stage.ofSegment, htext, hlead, Nat.zero_add]

theorem unsplit_spelled (p : PaddedStage) : p.spelled.Unsplit :=
  (Text.unsplit_append_iff p.blank_left p.blank_right).mpr p.unsplit

theorem scan_spelled {p : PaddedStage} (h : neutral.scan p.text = neutral) :
    neutral.scan p.spelled = neutral := by
  rw [spelled, scan_append, scan_append, p.blank_left.scan_neutral, h, p.blank_right.scan_neutral]

/-! ### Joined stages -/

theorem scan_joined {stages : List PaddedStage} (h : ∀ p ∈ stages, neutral.scan p.text = neutral) :
    neutral.scan (joined stages) = neutral := by
  induction stages with
  | nil => rfl
  | cons p stages ih =>
    obtain ⟨hp, hstages⟩ := List.forall_mem_cons.mp h
    rcases eq_or_ne stages [] with rfl | hne
    · simpa [joined] using scan_spelled hp
    · rw [joined_cons hne, Text.scan_append_pipe (scan_spelled hp), ih hstages]

/-- The stages at their places in the text that they are joined to. -/
def placed : List PaddedStage → List Stage
  | [] => []
  | p :: stages =>
    ⟨p.text, p.lead.byteLength⟩ :: (placed stages).map (·.shift (p.spelled.byteLength + 1))

theorem map_text_placed (stages : List PaddedStage) :
    (placed stages).map Stage.text = stages.map text := by
  induction stages with
  | nil => rfl
  | cons p stages ih =>
    rw [placed, List.map_cons, List.map_map, List.map_cons, ← ih]
    rfl

theorem getElem?_placed (front : List PaddedStage) (p : PaddedStage) (back : List PaddedStage) :
    (placed (front ++ p :: back))[front.length]? =
      some ⟨p.text, (leading front ++ p.lead).byteLength⟩ := by
  induction front with
  | nil => rfl
  | cons q front ih =>
    have hlength : Text.byteLength (leading (q :: front) ++ p.lead) =
        (leading front ++ p.lead).byteLength + (q.spelled.byteLength + 1) := by
      simp only [leading, List.flatMap_cons, Text.byteLength_append, Text.byteLength_cons,
        Text.byteLength_nil, show '|'.utf8Size = 1 from rfl]
      omega
    rw [List.cons_append, placed, List.length_cons, List.getElem?_cons_succ, List.getElem?_map, ih,
      hlength]
    rfl

/-- The stages that are read from joined stages are these stages at their places. -/
theorem stages_joined_eq {init : List PaddedStage} {last : PaddedStage}
    (hinit : ∀ p ∈ init, neutral.scan p.text = neutral) (hlast : last.text ≠ []) :
    (Pipeline.ofText (joined (init ++ [last]))).stages = placed (init ++ [last]) := by
  induction init with
  | nil =>
    have hblank : ¬ last.spelled.Blank := by
      rw [spelled, Text.blank_append, Text.blank_append]
      exact fun h => last.trimmed.not_blank hlast h.1.2
    have hjoined : joined [last] = last.spelled := by simp [joined]
    rw [List.nil_append, hjoined,
      Pipeline.stages_of_segments_eq (Text.unsplit_iff.mp last.unsplit_spelled), if_neg hblank,
      ofSegment_spelled]
    rfl
  | cons p init ih =>
    obtain ⟨hp, hinit⟩ := List.forall_mem_cons.mp hinit
    rw [List.cons_append, joined_cons (by simp),
      Pipeline.stages_append_pipe (scan_spelled hp) (Text.unsplit_iff.mp p.unsplit_spelled),
      ofSegment_spelled, ih hinit, placed]

/-- **Joined stages are read back.** The stages of an expression that is written stage by stage
have the texts that were written. A stage with text stands where its text does, and a stage without
text at the pipe that closes it. In particular a stage with text is its own only stage. -/
theorem stages_joined {init : List PaddedStage} {last : PaddedStage}
    (hinit : ∀ p ∈ init, neutral.scan p.text = neutral) (hlast : last.text ≠ []) :
    (Pipeline.ofText (joined (init ++ [last]))).stages.map Stage.text =
        (init ++ [last]).map text ∧
      (∀ front p back, init ++ [last] = front ++ p :: back →
        (p.text ≠ [] → ∃ rest,
          joined (init ++ [last]) = leading front ++ p.left ++ p.text ++ rest ∧
          (Pipeline.ofText (joined (init ++ [last]))).stages[front.length]? =
            some ⟨p.text, (leading front ++ p.left).byteLength⟩) ∧
        (p.text = [] → ∃ rest,
          joined (init ++ [last]) = leading front ++ p.left ++ p.right ++ '|' :: rest ∧
          (Pipeline.ofText (joined (init ++ [last]))).stages[front.length]? =
            some ⟨[], (leading front ++ p.left ++ p.right).byteLength⟩)) ∧
      ∀ t, ∀ s ∈ (Pipeline.ofText t).stages, s.text ≠ [] →
        (Pipeline.ofText s.text).stages = [⟨s.text, 0⟩] := by
  rw [stages_joined_eq hinit hlast]
  refine ⟨map_text_placed _, fun front p back heq => ?_, fun t s hs hne => ?_⟩
  · obtain ⟨rest, hrest, hhead⟩ := exists_joined_cons_eq p back
    have hjoined : joined (init ++ [last]) = leading front ++ (p.spelled ++ rest) := by
      rw [heq, joined_append_cons, hrest]
    have hplaced := heq ▸ getElem?_placed front p back
    constructor
    · intro hne
      rw [lead, if_neg hne] at hplaced
      exact ⟨p.right ++ rest, by simp [hjoined, spelled], hplaced⟩
    · intro hnil
      -- the last stage has text, so another stage follows this one
      have hback : back ≠ [] := by
        rintro rfl
        obtain ⟨-, hp⟩ := List.append_inj' heq rfl
        exact hlast (by rw [(List.cons.inj hp).1, hnil])
      obtain ⟨others, rfl⟩ := List.head?_eq_some_iff.mp (hhead hback)
      rw [lead, if_pos hnil, hnil, ← List.append_assoc] at hplaced
      exact ⟨others, by simp [hjoined, spelled, hnil], hplaced⟩
  · exact Pipeline.stages_of_trimmed hne (Pipeline.trimmed_of_mem_stages s hs)
      (Pipeline.unsplit_of_mem_stages s hs)

/-- A quoted pipe, a stage without text, and a string that is not closed. -/
theorem stages_joined_quoted_pipe :
    ∃ init last,
      (∀ p ∈ init, neutral.scan p.text = neutral) ∧ last.text ≠ [] ∧
      joined (init ++ [last]) = " 'a|b'|\t|c\"| ".toList ∧
      (Pipeline.ofText " 'a|b'|\t|c\"| ".toList).stages.map Stage.text =
        ["'a|b'".toList, [], "c\"|".toList] := by
  let first : PaddedStage :=
    ⟨" ".toList, "'a|b'".toList, [], by decide, by decide, by decide, by decide⟩
  let second : PaddedStage := ⟨[], [], "\t".toList, by decide, by decide, by decide, by decide⟩
  let last : PaddedStage :=
    ⟨[], "c\"|".toList, " ".toList, by decide, by decide, by decide, by decide⟩
  have hinit : ∀ p ∈ [first, second], neutral.scan p.text = neutral := by decide
  have hlast : last.text ≠ [] := by decide
  exact ⟨[first, second], last, hinit, hlast, rfl, (stages_joined hinit hlast).1⟩

end PaddedStage

end PipeLint
