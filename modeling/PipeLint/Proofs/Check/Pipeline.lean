import PipeLint.Check.Pipeline
import PipeLint.Proofs.Check.Supported

/-!
# What the checks on a whole pipeline look at

The checks on a pipeline look at the letters in the groups of flags of its stages and at nothing
else: whether the last stage has the flag `v`, and whether two stages have the flag `i`. So strings
and words are none of their business, nor is the order of the stages before the last one. A stage
without text has no flags; behind the others it takes the place of the last stage.

## Main definitions

* `PipeLint.Text.HasFlag`: a stage with a letter in one of its groups of flags.
* `PipeLint.EndsNegated`, `PipeLint.RepeatsIgnoreCase`: the two things that are questionable about
  a pipeline.

## Main results

* `PipeLint.pipelineFindings_eq`: each of them is found once.
* `PipeLint.pipelineFindings_append_of_perm`: the order of the stages before the last one.
* `PipeLint.pipelineFindings_of_hasFlag_iff`: a stage in the place of another one with the same
  flags.
* `PipeLint.pipelineFindings_append_nil`: stages without text behind the others.
-/

namespace PipeLint

/-! ### Flags -/

/-- A stage has a flag when the letter stands behind the dash of one of its groups of flags. -/
def Text.HasFlag (t : Text) (letter : Char) : Prop :=
  ∃ k ∈ t.tokens, k.kind = .flags ∧ ∃ letters, k.text = '-' :: letters ∧ letter ∈ letters

theorem usesFlag_iff_hasFlag {letter : Char} {t : Text} :
    usesFlag letter t = true ↔ t.HasFlag letter := by
  simp only [usesFlag, List.any_eq_true, decide_eq_true_eq, Text.HasFlag]
  refine exists_congr fun k => and_congr_right fun hk => ?_
  by_cases hkind : k.kind = .flags
  · obtain ⟨letters, htext, -, -⟩ := Text.exists_of_kind_eq_flags hk hkind
    rw [Token.flagLetters_eq hkind htext]
    simp [hkind, htext]
  · simp [Token.flagLetters_eq_nil hkind, hkind]

instance (t : Text) (letter : Char) : Decidable (t.HasFlag letter) :=
  decidable_of_iff _ usesFlag_iff_hasFlag

/-- What a stage uses depends on its groups of flags alone. -/
theorem Text.hasFlag_congr {s t : Text}
    (h : (s.tokens.filter (·.kind = .flags)).map Token.text =
      (t.tokens.filter (·.kind = .flags)).map Token.text) (letter : Char) :
    s.HasFlag letter ↔ t.HasFlag letter := by
  have hgroups (u : Text) : u.HasFlag letter ↔
      ∃ group ∈ (u.tokens.filter (·.kind = .flags)).map Token.text,
        ∃ letters, group = '-' :: letters ∧ letter ∈ letters := by
    simp only [HasFlag, List.mem_map, List.mem_filter, decide_eq_true_eq]
    constructor
    · rintro ⟨k, hk, hkind, hletters⟩
      exact ⟨k.text, ⟨k, ⟨hk, hkind⟩, rfl⟩, hletters⟩
    · rintro ⟨_, ⟨k, ⟨hk, hkind⟩, rfl⟩, hletters⟩
      exact ⟨k, hk, hkind, hletters⟩
  rw [hgroups, hgroups, h]

/-! ### Pipelines -/

/-- A pipeline ends negated when its last stage has the flag `v`. -/
def EndsNegated (stages : List Text) : Prop :=
  ∃ last, stages.getLast? = some last ∧ last.HasFlag 'v'

/-- A pipeline repeats that it ignores case when two of its stages, one before the other, have the
flag `i`. -/
def RepeatsIgnoreCase (stages : List Text) : Prop :=
  ∃ first second, [first, second].Sublist stages ∧ first.HasFlag 'i' ∧ second.HasFlag 'i'

/-- More than one element of a list is counted if two of them, one before the other, are. -/
theorem one_lt_countP_iff {α : Type*} {p : α → Bool} {l : List α} :
    1 < l.countP p ↔ ∃ a b, [a, b].Sublist l ∧ p a = true ∧ p b = true := by
  constructor
  · intro h
    rw [List.countP_eq_length_filter] at h
    obtain ⟨a, b, rest, hfilter⟩ : ∃ a b rest, l.filter p = a :: b :: rest := by
      match hl : l.filter p with
      | [] | [_] => simp [hl] at h
      | a :: b :: rest => exact ⟨a, b, rest, rfl⟩
    have hp (c : α) (hc : c ∈ l.filter p) : p c = true := (List.mem_filter.mp hc).2
    have hfirst : [a, b].Sublist (l.filter p) := by simp [hfilter]
    exact ⟨a, b, hfirst.trans List.filter_sublist, hp a (by simp [hfilter]),
      hp b (by simp [hfilter])⟩
  · rintro ⟨a, b, hsub, ha, hb⟩
    calc 1 < [a, b].countP p := by simp [ha, hb]
      _ ≤ l.countP p := hsub.countP_le

theorem endsNegated_iff {stages : List Text} :
    EndsNegated stages ↔ stages.getLast?.any (usesFlag 'v') = true := by
  simp only [EndsNegated, Option.any_eq_true, usesFlag_iff_hasFlag]

theorem repeatsIgnoreCase_iff {stages : List Text} :
    RepeatsIgnoreCase stages ↔ 1 < stages.countP (usesFlag 'i') := by
  simp only [one_lt_countP_iff, usesFlag_iff_hasFlag, RepeatsIgnoreCase]

instance (stages : List Text) : Decidable (EndsNegated stages) :=
  decidable_of_iff _ endsNegated_iff.symm

instance (stages : List Text) : Decidable (RepeatsIgnoreCase stages) :=
  decidable_of_iff _ repeatsIgnoreCase_iff.symm

/-- What is questionable about a pipeline is found once. -/
theorem pipelineFindings_eq (stages : List Text) :
    pipelineFindings stages =
      (if EndsNegated stages then [⟨.negatedFinalStage, ⟨0, 0⟩⟩] else []) ++
        (if RepeatsIgnoreCase stages then [⟨.repeatedIgnoreCase, ⟨0, 0⟩⟩] else []) := by
  simp only [pipelineFindings, endsNegated_iff, repeatsIgnoreCase_iff]

/-! ### Other stages with the same flags -/

theorem pipelineFindings_congr {stages others : List Text}
    (h : ∀ letter, stages.map (usesFlag letter) = others.map (usesFlag letter)) :
    pipelineFindings stages = pipelineFindings others := by
  have hlast (letter : Char) (l : List Text) : l.getLast?.any (usesFlag letter) =
      (l.map (usesFlag letter)).getLast?.any id := by
    rw [List.getLast?_map, Option.any_map]
    rfl
  have hcount (letter : Char) (l : List Text) : l.countP (usesFlag letter) =
      (l.map (usesFlag letter)).countP id := by
    rw [List.countP_map]
    rfl
  simp only [pipelineFindings, hlast, hcount, h]

/-- A stage in the place of another one that has the same flags changes nothing. -/
theorem pipelineFindings_of_hasFlag_iff {s t : Text}
    (h : ∀ letter, s.HasFlag letter ↔ t.HasFlag letter) (front back : List Text) :
    pipelineFindings (front ++ s :: back) = pipelineFindings (front ++ t :: back) := by
  refine pipelineFindings_congr fun letter => ?_
  have huses : usesFlag letter s = usesFlag letter t := by
    rw [Bool.eq_iff_iff, usesFlag_iff_hasFlag, usesFlag_iff_hasFlag, h]
  rw [List.map_append, List.map_append, List.map_cons, List.map_cons, huses]

/-- The order of the stages before the last one changes nothing. -/
theorem pipelineFindings_append_of_perm {init init' : List Text} (h : init.Perm init')
    (last : Text) : pipelineFindings (init ++ [last]) = pipelineFindings (init' ++ [last]) := by
  simp only [pipelineFindings, List.getLast?_concat, List.countP_append, h.countP_eq]

/-! ### Stages without text -/

/-- Stages without text behind the others are the last ones, and have no flags: nothing else is
different about the pipeline. -/
theorem pipelineFindings_append_nil (stages : List Text) {added : List Text}
    (hadded : ∀ s ∈ added, s = []) (hne : added ≠ []) :
    pipelineFindings (stages ++ added) =
      (pipelineFindings stages).filter (·.issue ≠ .negatedFinalStage) := by
  have hnone (letter : Char) : usesFlag letter [] = false := by
    simp [usesFlag, Text.tokens]
  have hlast : (stages ++ added).getLast? = some [] := by
    obtain ⟨s, hs⟩ := Option.isSome_iff_exists.mp (List.getLast?_isSome.mpr hne)
    rw [List.getLast?_append, hs, Option.some_or, hadded s (List.mem_of_getLast? hs)]
  have hcount : added.countP (usesFlag 'i') = 0 :=
    List.countP_eq_zero.mpr fun s hs => by simp [hadded s hs, hnone]
  simp only [pipelineFindings, hlast, Option.any_some, hnone, List.countP_append, hcount,
    Nat.add_zero, List.filter_append]
  cases stages.getLast?.any (usesFlag 'v') <;> by_cases hmany : 1 < stages.countP (usesFlag 'i') <;>
    simp [hmany]

end PipeLint
