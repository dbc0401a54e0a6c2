import PipeLint.Proofs.Check.Pipeline
import PipeLint.Proofs.Pipeline.Join

/-!
# The warnings about one fault

The wording of a warning tells its fault, so the warnings about one fault can be picked out of a
report, and taken off it. A backslash at the end of an expression, and each of the two faults of a
pipeline as a whole, is looked for by a check of its own and reported once. Whether there is
something to report can be told from the expression alone: from the backslashes that it ends in,
whatever they stand in, and from the groups of flags of its stages.

## Main definitions

* `PipeLint.Report.warningsAbout`: the warnings of a report about a fault.
* `PipeLint.Report.without`: a report without them.

## Main results

* `PipeLint.Report.warningsAbout_ofFindings` and `PipeLint.Report.without_ofFindings`: the findings
  behind both.
* `PipeLint.Rules.warningsAbout_trailingEscape`: a backslash at the end.
* `PipeLint.Rules.warningsAbout_pipelineWide`: the pipeline as a whole.
-/

namespace PipeLint

/-- A warning is worded like no other fault. -/
theorem Issue.message_eq_iff_of_warning {i j : Issue} (hi : i.severity = .warning) :
    j.message = i.message ↔ j = i := by
  rw [message_eq_iff, or_iff_left]
  rintro ⟨p, q, -, rfl, -⟩
  simp [severity] at hi

namespace Report

/-- The warnings about a fault, judging by their wording. -/
def warningsAbout (r : Report) (i : Issue) : List Entry :=
  r.warnings.filter (·.message = i.message)

/-- The report without the warnings about a fault. -/
def without (r : Report) (i : Issue) : Report :=
  { r with warnings := r.warnings.filter (·.message ≠ i.message) }

section Findings

variable {i : Issue} (hi : i.severity = .warning) (l : List Finding)

include hi

theorem warningsAbout_ofFindings :
    (ofFindings l).warningsAbout i = (l.filter (·.issue = i)).map Finding.entry := by
  rw [warningsAbout, warnings_ofFindings, List.filter_map, List.filter_filter]
  refine congrArg _ (List.filter_congr fun f _ => ?_)
  have hmessage : f.entry.message = i.message ↔ f.issue = i := Issue.message_eq_iff_of_warning hi
  by_cases hf : f.issue = i <;> simp [hmessage, hf, hi]

theorem without_ofFindings :
    (ofFindings l).without i = ofFindings (l.filter (·.issue ≠ i)) := by
  have herrors : (ofFindings l).errors = (ofFindings (l.filter (·.issue ≠ i))).errors := by
    rw [errors_ofFindings, errors_ofFindings, List.filter_filter]
    refine congrArg _ (List.filter_congr fun f _ => ?_)
    by_cases hf : f.issue = i <;> simp [hf, hi]
  have hwarnings : ((ofFindings l).warnings.filter (·.message ≠ i.message)) =
      (ofFindings (l.filter (·.issue ≠ i))).warnings := by
    rw [warnings_ofFindings, warnings_ofFindings, List.filter_map, List.filter_filter,
      List.filter_filter]
    refine congrArg _ (List.filter_congr fun f _ => ?_)
    have hmessage : f.entry.message = i.message ↔ f.issue = i := Issue.message_eq_iff_of_warning hi
    simp [hmessage, Bool.and_comm]
  exact Report.ext (congrArg List.isEmpty herrors) herrors hwarnings

end Findings

end Report

namespace Rules

variable (r : Rules)

/-! ### A backslash at the end -/

theorem findings_of_trailingFindings_eq_nil {r : Rules} {t : Text}
    (h : r.trailingFindings (Pipeline.ofText t) = []) :
    r.findings t = (Pipeline.ofText t).stages.flatMap r.findingsAt ++
      pipelineFindings ((Pipeline.ofText t).stages.map (·.text)) := by
  rw [findings_eq, placedFindings, h, List.append_nil]

theorem filter_ne_trailingEscape_findings (t : Text) :
    (r.findings t).filter (·.issue ≠ .trailingEscape) =
      (Pipeline.ofText t).stages.flatMap r.findingsAt ++
        pipelineFindings ((Pipeline.ofText t).stages.map (·.text)) := by
  have hstages : ∀ f ∈ (Pipeline.ofText t).stages.flatMap r.findingsAt,
      decide (f.issue ≠ .trailingEscape) = true := by
    intro f hf
    obtain ⟨s, -, hf⟩ := List.mem_flatMap.mp hf
    exact decide_eq_true (r.ne_trailingEscape_of_mem_findingsAt hf)
  have htrailing : (r.trailingFindings (Pipeline.ofText t)).filter
      (·.issue ≠ .trailingEscape) = [] := by
    refine List.filter_eq_nil_iff.mpr fun f hf => ?_
    obtain ⟨-, rfl⟩ := r.mem_trailingFindings hf
    simp
  have hpipeline : ∀ f ∈ pipelineFindings ((Pipeline.ofText t).stages.map (·.text)),
      decide (f.issue ≠ .trailingEscape) = true :=
    fun f hf => decide_eq_true (ne_trailingEscape_of_mem_pipelineFindings hf)
  rw [findings_eq, placedFindings, List.filter_append, List.filter_append,
    List.filter_eq_self.mpr hstages, htrailing, List.filter_eq_self.mpr hpipeline, List.append_nil]

/-- **A backslash at the end.** Whether an expression ends in a backslash that escapes nothing is
decided by the number of backslashes that it ends in, whatever is open before them. If rules ask for
it, such a backslash is reported once, at the last byte of the expression; rules that do not ask for
it report all else that they reported before. -/
theorem warningsAbout_trailingEscape (t : Text) :
    (Pipeline.ofText t).trailingEscape? =
        (if t.trailingBackslashes % 2 = 1 then some (t.byteLength - 1) else none) ∧
      ∀ r : Rules,
        (r.report t).warningsAbout .trailingEscape =
            (if r.trailingEscape = true ∧ t.trailingBackslashes % 2 = 1 then
              [⟨"trailing escape character".toList, ⟨t.byteLength - 1, 1⟩, .warning⟩]
            else []) ∧
          report { r with trailingEscape := false } t = (r.report t).without .trailingEscape := by
  have hescaped : (Quoting.neutral.scan t).escaped = true ↔ t.trailingBackslashes % 2 = 1 :=
    Quoting.escaped_scan_iff rfl t
  refine ⟨by simp only [Pipeline.ofText, hescaped], fun r => ⟨?_, ?_⟩⟩
  · rw [report, Report.warningsAbout_ofFindings rfl, filter_trailingEscape_findings,
      trailingFindings_ofText]
    simp only [hescaped]
    split <;> rfl
  · have hnone : trailingFindings { r with trailingEscape := false } (Pipeline.ofText t) = [] := by
      rw [trailingFindings_ofText, if_neg fun h => Bool.noConfusion h.1]
    rw [report, report, Report.without_ofFindings rfl, filter_ne_trailingEscape_findings,
      findings_of_trailingFindings_eq_nil hnone]
    rfl

/-! ### The pipeline as a whole -/

section PipelineWide

variable {i : Issue} (hi : i.isPipelineWide = true)

include hi

theorem ne_of_mem_placedFindings {t : Text} {f : Finding} (hf : f ∈ r.placedFindings t) :
    f.issue ≠ i := by
  rintro rfl
  rw [r.isPipelineWide_of_mem_placedFindings hf] at hi
  exact Bool.noConfusion hi

/-- The faults of a pipeline as a whole are found by one check only. -/
theorem filter_findings_of_isPipelineWide (t : Text) :
    (r.findings t).filter (·.issue = i) =
      (pipelineFindings ((Pipeline.ofText t).stages.map (·.text))).filter (·.issue = i) := by
  have hnone : (r.placedFindings t).filter (·.issue = i) = [] :=
    List.filter_eq_nil_iff.mpr fun f hf => by simpa using r.ne_of_mem_placedFindings hi hf
  rw [findings_eq, List.filter_append, hnone, List.nil_append]

theorem filter_ne_findings_of_isPipelineWide (t : Text) :
    (r.findings t).filter (·.issue ≠ i) =
      r.placedFindings t ++
        (pipelineFindings ((Pipeline.ofText t).stages.map (·.text))).filter (·.issue ≠ i) := by
  have hall : (r.placedFindings t).filter (·.issue ≠ i) = r.placedFindings t :=
    List.filter_eq_self.mpr fun f hf => decide_eq_true (r.ne_of_mem_placedFindings hi hf)
  rw [findings_eq, List.filter_append, hall]

end PipelineWide

/-- **The pipeline as a whole.** That the last stage has the flag `v`, and that two stages have the
flag `i`, is reported once each, whatever the rules are. Neither depends on the order of the stages
before the last one, nor on anything in a stage but the letters of its groups of flags; so it does
not depend on strings and words. -/
theorem warningsAbout_pipelineWide :
    (∀ (r : Rules) (t : Text),
      (r.report t).warningsAbout .negatedFinalStage =
          (if EndsNegated ((Pipeline.ofText t).stages.map Stage.text) then
            [⟨"final stage negates output; results will not be highlighted".toList, ⟨0, 0⟩,
              .warning⟩]
          else []) ∧
        (r.report t).warningsAbout .repeatedIgnoreCase =
          (if RepeatsIgnoreCase ((Pipeline.ofText t).stages.map Stage.text) then
            [⟨"duplicate -i flag across stages".toList, ⟨0, 0⟩, .warning⟩]
          else [])) ∧
      (∀ (init init' : List Text) (last : Text), init.Perm init' →
        pipelineFindings (init ++ [last]) = pipelineFindings (init' ++ [last])) ∧
      (∀ (s t : Text) (front back : List Text), (∀ letter, s.HasFlag letter ↔ t.HasFlag letter) →
        pipelineFindings (front ++ s :: back) = pipelineFindings (front ++ t :: back)) ∧
      ∀ (s t : Text) (front back : List Text),
        (s.tokens.filter (·.kind = .flags)).map Token.text =
            (t.tokens.filter (·.kind = .flags)).map Token.text →
          pipelineFindings (front ++ s :: back) = pipelineFindings (front ++ t :: back) := by
  refine ⟨fun r t => ?_, fun init init' last h => pipelineFindings_append_of_perm h last,
    fun s t front back h => pipelineFindings_of_hasFlag_iff h front back,
    fun s t front back h => pipelineFindings_of_hasFlag_iff (Text.hasFlag_congr h) front back⟩
  rw [report, Report.warningsAbout_ofFindings rfl, Report.warningsAbout_ofFindings rfl,
    filter_findings_of_isPipelineWide r rfl, filter_findings_of_isPipelineWide r rfl,
    pipelineFindings_eq]
  constructor <;> split <;> split <;> rfl

/-- A quoted flag is none, and a group of two flags is as good as two groups. -/
theorem warningsAbout_pipelineWide_quoted :
    (["-i a".toList, "b".toList].Perm ["b".toList, "-i a".toList] ∧
        pipelineFindings ["-i a".toList, "b".toList, "-iv c".toList] =
          pipelineFindings ["b".toList, "-i a".toList, "-iv c".toList]) ∧
      ((∀ letter, Text.HasFlag "-iv c".toList letter ↔ Text.HasFlag "grep -v -i".toList letter) ∧
        pipelineFindings ["-i a".toList, "-iv c".toList] =
          pipelineFindings ["-i a".toList, "grep -v -i".toList]) ∧
      ((Text.tokens "-n '-v'".toList).filter (·.kind = .flags)).map Token.text =
          ((Text.tokens "-n foo-vbar".toList).filter (·.kind = .flags)).map Token.text ∧
        pipelineFindings ["-i a".toList, "-n '-v'".toList] =
          pipelineFindings ["-i a".toList, "-n foo-vbar".toList] := by
  obtain ⟨-, hperm, hflags, hgroups⟩ := warningsAbout_pipelineWide
  have hswap : ["-i a".toList, "b".toList].Perm ["b".toList, "-i a".toList] := .swap _ _ _
  have hsame (letter : Char) :
      Text.HasFlag "-iv c".toList letter ↔ Text.HasFlag "grep -v -i".toList letter := by
    have hone : Text.tokens "-iv c".toList =
        [⟨.flags, "-iv".toList, 0⟩, ⟨.word, "c".toList, 4⟩] := by decide +kernel
    have htwo : Text.tokens "grep -v -i".toList =
        [⟨.command, "grep".toList, 0⟩, ⟨.flags, "-v".toList, 5⟩, ⟨.flags, "-i".toList, 8⟩] := by
      decide +kernel
    rw [Text.HasFlag, Text.HasFlag, hone, htwo]
    simp [or_comm]
  have hquoted : ((Text.tokens "-n '-v'".toList).filter (·.kind = .flags)).map Token.text =
      ((Text.tokens "-n foo-vbar".toList).filter (·.kind = .flags)).map Token.text := by
    decide +kernel
  exact ⟨⟨hswap, hperm _ _ _ hswap⟩, ⟨hsame, hflags _ _ ["-i a".toList] [] hsame⟩, hquoted,
    hgroups _ _ ["-i a".toList] [] hquoted⟩

end Rules

end PipeLint
