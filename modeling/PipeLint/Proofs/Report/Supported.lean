import Mathlib.Data.List.Nodup
import PipeLint.Proofs.Check.Supported
import PipeLint.Proofs.Pipeline.Gaps
import PipeLint.Proofs.Pipeline.Join

/-!
# Reports when more letters are supported

A report under more letters differs from one under fewer letters in two places only. The warnings
about the letters that are supported now are gone. And a stage that had nothing to search for but a
group of flags with one of these letters is now an error, so an expression can become invalid.

## Main definitions

* `PipeLint.Entry.isAboutLetterOf`: the entries that are worded like warnings about the letters of a
  set.
* `PipeLint.Rules.lostPatterns`: the errors on stages that lose what they have to search for.

## Main results

* `PipeLint.Rules.filter_warning_findings`: the warnings of an expression in terms of the empty set.
* `PipeLint.Rules.errors_report_of_subset`: the errors of an expression under more letters.
* `PipeLint.Rules.report_of_subset`: the report on an expression under more letters.
-/

namespace PipeLint

/-! ### Entries about letters -/

/-- Whether an entry is about a letter of a set that is not supported, judging by its wording. -/
def Entry.isAboutLetterOf (flags : FlagSet) (e : Entry) : Bool :=
  flags.letters.any fun c => e.message = (Issue.unsupportedFlag c).message

@[simp]
theorem Finding.isAboutLetterOf_entry (flags : FlagSet) (f : Finding) :
    f.entry.isAboutLetterOf flags = f.issue.isAboutLetterOf flags := by
  have hmessage (c : Char) : f.issue.message = (Issue.unsupportedFlag c).message ↔
      f.issue = .unsupportedFlag c := by
    simp [Issue.message_eq_iff]
  rw [Bool.eq_iff_iff]
  simp only [Entry.isAboutLetterOf, List.any_eq_true, decide_eq_true_eq, entry, hmessage]
  cases f.issue with
  | unsupportedFlag c =>
    simp only [Issue.isAboutLetterOf, Issue.unsupportedFlag.injEq, decide_eq_true_eq]
    constructor
    · rintro ⟨d, hd, rfl⟩
      exact hd
    · exact fun hc => ⟨c, hc, rfl⟩
  | _ => simp [Issue.isAboutLetterOf]

theorem Issue.isAboutLetterOf_of_isPipelineWide {flags : FlagSet} {i : Issue}
    (h : i.isPipelineWide = true) : i.isAboutLetterOf flags = false := by
  cases i <;> first | rfl | simp [isPipelineWide] at h

namespace Rules

/-! ### Warnings -/

/-- The warnings of an expression under some letters are those under no letters, less the ones about
the letters. -/
theorem filter_warning_findings (r : Rules) (t : Text) :
    (r.findings t).filter (·.issue.severity = .warning) =
      ((findings { r with flags := ∅ } t).filter (·.issue.severity = .warning)).filter
        (!·.issue.isAboutLetterOf r.flags) := by
  have hstage (s : Stage) : (r.findingsAt s).filter (·.issue.severity = .warning) =
      ((findingsAt { r with flags := ∅ } s).filter (·.issue.severity = .warning)).filter
        (!·.issue.isAboutLetterOf r.flags) := by
    rw [filter_findingsAt r (·.severity = .warning),
      filter_findingsAt { r with flags := ∅ } (·.severity = .warning), List.filter_map,
      Text.filter_warning_stageFindings]
    rfl
  have hstages : ((Pipeline.ofText t).stages.flatMap r.findingsAt).filter
      (·.issue.severity = .warning) =
        (((Pipeline.ofText t).stages.flatMap (findingsAt { r with flags := ∅ })).filter
          (·.issue.severity = .warning)).filter (!·.issue.isAboutLetterOf r.flags) := by
    simp only [List.filter_flatMap, hstage]
  -- the other findings are not about letters
  have hother {l : List Finding} (h : ∀ f ∈ l, f.issue.isAboutLetterOf r.flags = false) :
      l.filter (·.issue.severity = .warning) =
        (l.filter (·.issue.severity = .warning)).filter (!·.issue.isAboutLetterOf r.flags) := by
    refine (List.filter_eq_self.mpr fun f hf => ?_).symm
    rw [h f (List.mem_filter.mp hf).1, Bool.not_false]
  have htrailing : ∀ f ∈ r.trailingFindings (Pipeline.ofText t),
      f.issue.isAboutLetterOf r.flags = false := by
    intro f hf
    obtain ⟨-, rfl⟩ := r.mem_trailingFindings hf
    rfl
  have hpipeline : ∀ f ∈ pipelineFindings ((Pipeline.ofText t).stages.map (·.text)),
      f.issue.isAboutLetterOf r.flags = false :=
    fun f hf => Issue.isAboutLetterOf_of_isPipelineWide (severity_of_mem_pipelineFindings hf).2
  simp only [findings_eq, placedFindings, List.filter_append]
  exact congrArg₂ (· ++ ·) (congrArg₂ (· ++ ·) hstages (hother htrailing)) (hother hpipeline)

/-! ### Errors -/

/-- The errors of the stages that lose what they have to search for. -/
def lostPatterns (fewer more : FlagSet) (t : Text) : List Entry :=
  ((Pipeline.ofText t).stages.filter (·.text.LosesPattern fewer more)).map fun s =>
    Finding.entry ⟨.missingPattern, s.span⟩

theorem mem_lostPatterns_iff {fewer more : FlagSet} {t : Text} {e : Entry} :
    e ∈ lostPatterns fewer more t ↔
      ∃ s ∈ (Pipeline.ofText t).stages, s.text.LosesPattern fewer more ∧
        Finding.entry ⟨.missingPattern, s.span⟩ = e := by
  simp [lostPatterns, and_assoc]

theorem eq_of_mem_findingsAt {r : Rules} {s : Stage} {f : Finding} (hf : f ∈ r.findingsAt s)
    (hissue : f.issue = .missingPattern) : f = ⟨.missingPattern, s.span⟩ := by
  obtain ⟨g, hg, rfl⟩ := List.mem_map.mp hf
  obtain ⟨-, hg | ⟨-, rfl⟩⟩ := mem_stageFindings_iff.mp hg
  · have htoken := isOfToken_of_mem_tokenFindings hg
    rw [Finding.issue_shift] at hissue
    rw [hissue] at htoken
    exact absurd htoken (by decide)
  · ext <;> simp [Stage.span]

end Rules

theorem Pipeline.eq_of_offset_eq {t : Text} {s u : Stage} (hs : s ∈ (ofText t).stages)
    (hu : u ∈ (ofText t).stages) (h : s.offset = u.offset) : s = u := by
  have hnodup : ((ofText t).stages.map Stage.offset).Nodup :=
    List.pairwise_map.mpr ((pairwise_offset_stages t).imp Nat.ne_of_lt)
  exact List.inj_on_of_nodup_map hnodup hs hu h

namespace Rules

variable {u w : Rules} {t : Text}

/-- The findings on a stage that are worded like lost patterns are the one about the stage, if the
stage loses what it has to search for. -/
theorem entry_mem_lostPatterns_iff {r : Rules} {fewer more : FlagSet} {s : Stage}
    (hs : s ∈ (Pipeline.ofText t).stages) {f : Finding} (hf : f ∈ r.findingsAt s) :
    f.entry ∈ lostPatterns fewer more t ↔
      f.issue = .missingPattern ∧ s.text.LosesPattern fewer more := by
  rw [mem_lostPatterns_iff]
  constructor
  · rintro ⟨s', hs', hloses, heq⟩
    have hissue : f.issue = .missingPattern := by
      have hmessage : Issue.missingPattern.message = f.issue.message := congrArg Entry.message heq
      simpa [Issue.message_eq_iff, eq_comm] using hmessage
    have hspan : s'.span = s.span := by
      rw [eq_of_mem_findingsAt hf hissue] at heq
      exact congrArg Entry.span heq
    obtain rfl := Pipeline.eq_of_offset_eq hs' hs (congrArg Span.start hspan)
    exact ⟨hissue, hloses⟩
  · rintro ⟨hissue, hloses⟩
    exact ⟨s, hs, hloses, by rw [eq_of_mem_findingsAt hf hissue]⟩

theorem filter_error_findingsAt_of_subset (hsub : ∀ c ∈ u.flags, c ∈ w.flags) {s : Stage}
    (hs : s ∈ (Pipeline.ofText t).stages) :
    (u.findingsAt s).filter (·.issue.severity = .error) =
      ((w.findingsAt s).filter (·.issue.severity = .error)).filter
        (·.entry ∉ lostPatterns u.flags w.flags t) := by
  have hkept : ∀ f ∈ (w.findingsAt s).filter (·.issue.severity = .error),
      decide (f.entry ∉ lostPatterns u.flags w.flags t) =
        decide (¬ (f.issue = .missingPattern ∧ s.text.LosesPattern u.flags w.flags)) := by
    intro f hf
    rw [decide_eq_decide, entry_mem_lostPatterns_iff hs (List.mem_filter.mp hf).1]
  rw [List.filter_congr hkept, filter_findingsAt u (·.severity = .error),
    filter_findingsAt w (·.severity = .error), List.filter_map,
    Text.filter_error_stageFindings_of_subset hsub]
  rfl

theorem errors_report_eq_flatMap (r : Rules) (t : Text) :
    (r.report t).errors =
      ((Pipeline.ofText t).stages.flatMap fun s =>
        (r.findingsAt s).filter (·.issue.severity = .error)).map Finding.entry := by
  rw [report, Report.errors_ofFindings, r.filter_findings (p := (·.severity = .error)) rfl]
  intro i hi
  cases i <;> first | rfl | simp [Issue.isPipelineWide] at hi

/-- The errors of an expression under fewer letters are those under more letters, less the ones of
stages that lose what they have to search for. -/
theorem errors_report_of_subset (hsub : ∀ c ∈ u.flags, c ∈ w.flags) (t : Text) :
    (u.report t).errors =
      (w.report t).errors.filter (· ∉ lostPatterns u.flags w.flags t) := by
  rw [errors_report_eq_flatMap, errors_report_eq_flatMap, List.filter_map, List.filter_flatMap]
  refine congrArg _ (List.flatMap_congr fun s hs => ?_)
  exact filter_error_findingsAt_of_subset hsub hs

theorem mem_errors_report_of_mem_lostPatterns {e : Entry}
    (he : e ∈ lostPatterns u.flags w.flags t) : e ∈ (w.report t).errors := by
  obtain ⟨s, hs, hloses, rfl⟩ := mem_lostPatterns_iff.mp he
  have hblank : ¬ s.text.Blank := by
    obtain ⟨-, ⟨k, hk, -⟩, -⟩ := hloses
    obtain ⟨front, c, back, htext, hc, -⟩ := Text.exists_of_mem_tokens hk
    exact fun hblank => by simp [hblank c (by simp [htext])] at hc
  have hnone := (Text.losesPattern_iff.mp hloses).2
  rw [errors_report_eq_flatMap]
  refine List.mem_map_of_mem (List.mem_flatMap.mpr ⟨s, hs, List.mem_filter.mpr ⟨?_, rfl⟩⟩)
  refine List.mem_map.mpr ⟨⟨.missingPattern, ⟨0, s.text.byteLength⟩⟩, ?_, ?_⟩
  · exact mem_stageFindings_iff.mpr ⟨hblank, Or.inr ⟨by simpa using hnone, rfl⟩⟩
  · ext <;> simp [Stage.span]

/-! ### Reports -/

/-- **Supporting more letters.** Let two sets of rules differ in that the second supports more
letters. Its warnings are those of the first without the ones about letters that it supports. The
errors of the first are those of the second without the ones on stages that lose what they have to
search for, and each such stage is an error under the second. So what is valid under more letters is
valid under fewer. -/
theorem report_of_subset (htrailing : u.trailingEscape = w.trailingEscape)
    (hsub : ∀ c ∈ u.flags, c ∈ w.flags) (t : Text) :
    (w.report t).warnings = (u.report t).warnings.filter (!·.isAboutLetterOf w.flags) ∧
      (u.report t).errors =
        (w.report t).errors.filter (· ∉ lostPatterns u.flags w.flags t) ∧
      (∀ e ∈ lostPatterns u.flags w.flags t, e ∈ (w.report t).errors) ∧
      ((w.report t).isValid = true → (u.report t).isValid = true) := by
  have herrors := errors_report_of_subset hsub t
  refine ⟨?_, herrors, fun e he => mem_errors_report_of_mem_lostPatterns he, fun hvalid => ?_⟩
  · have hempty : ({ u with flags := ∅ } : Rules) = { w with flags := ∅ } := by rw [htrailing]
    rw [report, report, Report.warnings_ofFindings, Report.warnings_ofFindings, List.filter_map,
      filter_warning_findings w, filter_warning_findings u, hempty]
    simp only [List.filter_filter]
    refine congrArg _ (List.filter_congr fun f _ => ?_)
    -- a letter that is supported by the first rules is supported by the second
    cases hissue : f.issue with
    | unsupportedFlag c =>
      simp only [Function.comp_apply, Finding.isAboutLetterOf_entry, hissue, Issue.isAboutLetterOf]
      by_cases hc : c ∈ u.flags
      · simp [hc, hsub c hc]
      · simp [hc]
    | _ => simp [hissue, Issue.isAboutLetterOf]
  · rw [report, Report.isValid_ofFindings_iff] at hvalid ⊢
    rw [report, report, hvalid] at herrors
    exact herrors

/-- The group of flags in the second stage is taken for a pattern as long as `v` is not
supported. -/
theorem report_of_subset_lost_pattern :
    (∀ c ∈ FlagSet.ofList "in".toList, c ∈ FlagSet.standard) ∧
      lostPatterns (.ofList "in".toList) .standard "é -z | -iv".toList =
        [⟨"missing search pattern".toList, ⟨8, 3⟩, .error⟩] ∧
      (report { flags := .ofList "in".toList } "é -z | -iv".toList).errors =
        (report {} "é -z | -iv".toList).errors.filter
          (· ∉ lostPatterns (.ofList "in".toList) .standard "é -z | -iv".toList) := by
  have hsub : ∀ c ∈ FlagSet.ofList "in".toList, c ∈ FlagSet.standard := by
    intro c hc
    have hletter : c = 'i' ∨ c = 'n' := by simpa using FlagSet.mem_ofList.mp hc
    rcases hletter with rfl | rfl <;> decide
  refine ⟨hsub, by decide +kernel, ?_⟩
  exact (report_of_subset (u := { flags := .ofList "in".toList }) (w := {}) rfl hsub _).2.1

end Rules

end PipeLint
