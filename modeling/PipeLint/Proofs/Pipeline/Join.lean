import PipeLint.Proofs.Check.Finding
import PipeLint.Proofs.Finding.Wording
import PipeLint.Proofs.Pipeline.Stages
import PipeLint.Rules

/-!
# Expressions joined by a pipe

A pipe behind an expression that leaves nothing open separates it from what follows. The findings
on the whole are then those on the front and those on the back, moved behind the pipe. Only the
findings on the pipeline as a whole, which look at all stages at once, do not come apart like this.

## Main definitions

* `PipeLint.Issue.isPipelineWide`, `PipeLint.Entry.isPipelineWide`: the faults of a pipeline as a
  whole, and the entries that are worded like them.
* `PipeLint.Rules.placedFindings`: the findings of an expression that have a place in it.

## Main results

* `PipeLint.Rules.placedFindings_append_pipe`: the findings on expressions joined by a pipe.
* `PipeLint.Rules.report_append_pipe`: the report on expressions joined by a pipe.
-/

namespace PipeLint

/-! ### Findings on the pipeline as a whole -/

/-- Whether a fault is one of a pipeline as a whole. -/
def Issue.isPipelineWide : Issue → Bool
  | negatedFinalStage | repeatedIgnoreCase => true
  | _ => false

theorem Issue.severity_of_isPipelineWide {i : Issue} (h : i.isPipelineWide = true) :
    i.severity = .warning := by
  cases i <;> first | rfl | simp [isPipelineWide] at h

/-- Whether an entry is about a pipeline as a whole, judging by its wording. -/
def Entry.isPipelineWide (e : Entry) : Bool :=
  e.message = Issue.negatedFinalStage.message || e.message = Issue.repeatedIgnoreCase.message

@[simp]
theorem Finding.isPipelineWide_entry (f : Finding) :
    f.entry.isPipelineWide = f.issue.isPipelineWide := by
  have hnegated : f.issue.message = Issue.negatedFinalStage.message ↔
      f.issue = .negatedFinalStage := by
    simp [Issue.message_eq_iff]
  have hrepeated : f.issue.message = Issue.repeatedIgnoreCase.message ↔
      f.issue = .repeatedIgnoreCase := by
    simp [Issue.message_eq_iff]
  simp only [Entry.isPipelineWide, Finding.entry, hnegated, hrepeated]
  cases f.issue <;> rfl

theorem severity_of_mem_pipelineFindings {stages : List Text} {f : Finding}
    (h : f ∈ pipelineFindings stages) :
    f.issue.severity = .warning ∧ f.issue.isPipelineWide = true := by
  rcases List.mem_append.mp h with h | h
  all_goals
    split at h
    · obtain rfl := List.mem_singleton.mp h
      exact ⟨rfl, rfl⟩
    · simp at h

theorem ne_trailingEscape_of_mem_pipelineFindings {stages : List Text} {f : Finding}
    (h : f ∈ pipelineFindings stages) : f.issue ≠ .trailingEscape := by
  intro hissue
  have hwide := (severity_of_mem_pipelineFindings h).2
  rw [hissue] at hwide
  exact absurd hwide (by decide)

theorem Issue.isPipelineWide_of_isOfToken {i : Issue} (h : i.isOfToken = true) :
    i.isPipelineWide = false := by
  cases i <;> first | rfl | simp [isOfToken] at h

theorem isPipelineWide_of_mem_stageFindings {flags : FlagSet} {stage : Text} {tokens : List Token}
    {f : Finding} (h : f ∈ stageFindings flags stage tokens) : f.issue.isPipelineWide = false := by
  obtain ⟨-, h | ⟨-, rfl⟩⟩ := mem_stageFindings_iff.mp h
  · exact Issue.isPipelineWide_of_isOfToken (isOfToken_of_mem_tokenFindings h)
  · rfl

namespace Rules

variable (r : Rules)

/-! ### Findings with a place in the expression -/

/-- The findings of an expression that have a place in it: all but those on the pipeline as a
whole. -/
def placedFindings (t : Text) : List Finding :=
  (Pipeline.ofText t).stages.flatMap r.findingsAt ++ r.trailingFindings (Pipeline.ofText t)

theorem findings_eq (t : Text) :
    r.findings t =
      r.placedFindings t ++ pipelineFindings ((Pipeline.ofText t).stages.map (·.text)) := rfl

theorem findingsAt_shift (s : Stage) (n : Nat) :
    r.findingsAt (s.shift n) = (r.findingsAt s).map (·.shift n) := by
  simp [findingsAt]

theorem flatMap_findingsAt_map_shift (l : List Stage) (n : Nat) :
    (l.map (·.shift n)).flatMap r.findingsAt = (l.flatMap r.findingsAt).map (·.shift n) := by
  simp only [List.flatMap_map, List.map_flatMap, findingsAt_shift]

theorem findingsAt_of_blank {s : Stage} (h : s.text.Blank) : r.findingsAt s = [] := by
  simp [findingsAt, stageFindings, h]

theorem mem_trailingFindings {t : Text} {f : Finding}
    (h : f ∈ r.trailingFindings (Pipeline.ofText t)) :
    (Quoting.neutral.scan t).escaped = true ∧ f = ⟨.trailingEscape, ⟨t.byteLength - 1, 1⟩⟩ := by
  rw [trailingFindings, Pipeline.ofText] at h
  cases hesc : (Quoting.neutral.scan t).escaped with
  | false => simp [hesc] at h
  | true =>
    simp only [hesc, if_true] at h
    split at h
    · exact ⟨rfl, List.mem_singleton.mp h⟩
    · simp at h

/-- A backslash at the end is reported if it escapes nothing and the rules ask for it. -/
theorem trailingFindings_ofText (t : Text) :
    r.trailingFindings (Pipeline.ofText t) =
      if r.trailingEscape = true ∧ (Quoting.neutral.scan t).escaped = true then
        [⟨.trailingEscape, ⟨t.byteLength - 1, 1⟩⟩]
      else [] := by
  rw [trailingFindings, Pipeline.ofText]
  cases (Quoting.neutral.scan t).escaped <;> cases r.trailingEscape <;> rfl

theorem trailingFindings_of_not_escaped {t : Text}
    (h : (Quoting.neutral.scan t).escaped = false) :
    r.trailingFindings (Pipeline.ofText t) = [] := by
  rw [trailingFindings_ofText, h]
  exact if_neg fun hescaped => Bool.false_ne_true hescaped.2

theorem isPipelineWide_of_mem_placedFindings {t : Text} {f : Finding}
    (h : f ∈ r.placedFindings t) : f.issue.isPipelineWide = false := by
  rcases List.mem_append.mp h with h | h
  · obtain ⟨s, -, h⟩ := List.mem_flatMap.mp h
    obtain ⟨g, hg, rfl⟩ := List.mem_map.mp h
    rw [Finding.issue_shift]
    exact isPipelineWide_of_mem_stageFindings hg
  · obtain ⟨-, rfl⟩ := r.mem_trailingFindings h
    rfl

/-! ### Findings of one kind -/

/-- The findings of some kind on a stage of an expression are those on its text, at its offset. -/
theorem filter_findingsAt (p : Issue → Bool) (s : Stage) :
    (r.findingsAt s).filter (p ·.issue) =
      ((stageFindings r.flags s.text s.text.tokens).filter (p ·.issue)).map
        (·.shift s.offset) := by
  rw [findingsAt, List.filter_map]
  rfl

/-- The findings of a kind that only stages can have are found stage by stage. -/
theorem filter_findings {p : Issue → Bool} (htrailing : p .trailingEscape = false)
    (hpipeline : ∀ i, i.isPipelineWide = true → p i = false) (t : Text) :
    (r.findings t).filter (p ·.issue) =
      (Pipeline.ofText t).stages.flatMap fun s => (r.findingsAt s).filter (p ·.issue) := by
  have hend : (r.trailingFindings (Pipeline.ofText t)).filter (p ·.issue) = [] := by
    refine List.filter_eq_nil_iff.mpr fun f hf => ?_
    obtain ⟨-, rfl⟩ := r.mem_trailingFindings hf
    simp [htrailing]
  have hwide : (pipelineFindings ((Pipeline.ofText t).stages.map (·.text))).filter
      (p ·.issue) = [] := by
    refine List.filter_eq_nil_iff.mpr fun f hf => ?_
    simp [hpipeline _ (severity_of_mem_pipelineFindings hf).2]
  rw [findings_eq, placedFindings, List.filter_append, List.filter_append, hend, hwide,
    List.append_nil, List.append_nil, List.filter_flatMap]

theorem ne_trailingEscape_of_mem_findingsAt {s : Stage} {f : Finding} (h : f ∈ r.findingsAt s) :
    f.issue ≠ .trailingEscape := by
  obtain ⟨g, hg, rfl⟩ := List.mem_map.mp h
  rw [Finding.issue_shift]
  intro hissue
  obtain ⟨-, hg | ⟨-, rfl⟩⟩ := mem_stageFindings_iff.mp hg
  · have htoken := isOfToken_of_mem_tokenFindings hg
    rw [hissue] at htoken
    exact absurd htoken (by decide)
  · simp at hissue

theorem filter_trailingEscape_findings (t : Text) :
    (r.findings t).filter (·.issue = .trailingEscape) = r.trailingFindings (Pipeline.ofText t) := by
  have hstages : ((Pipeline.ofText t).stages.flatMap r.findingsAt).filter
      (·.issue = .trailingEscape) = [] := by
    refine List.filter_eq_nil_iff.mpr fun f hf => ?_
    obtain ⟨s, -, hf⟩ := List.mem_flatMap.mp hf
    simpa using r.ne_trailingEscape_of_mem_findingsAt hf
  have hpipeline : (pipelineFindings ((Pipeline.ofText t).stages.map (·.text))).filter
      (·.issue = .trailingEscape) = [] := by
    refine List.filter_eq_nil_iff.mpr fun f hf => ?_
    simpa using ne_trailingEscape_of_mem_pipelineFindings hf
  have hself : (r.trailingFindings (Pipeline.ofText t)).filter (·.issue = .trailingEscape) =
      r.trailingFindings (Pipeline.ofText t) := by
    refine List.filter_eq_self.mpr fun f hf => ?_
    obtain ⟨-, rfl⟩ := r.mem_trailingFindings hf
    rfl
  rw [findings_eq, placedFindings, List.filter_append, List.filter_append, hstages, hself,
    hpipeline, List.nil_append, List.append_nil]

/-! ### Joining two expressions -/

variable {s : Text} (hscan : Quoting.neutral.scan s = Quoting.neutral) (t : Text)

include hscan

/-- The findings on the stages of joined expressions. A blank stage behind the last pipe of the
front, which the front alone does not have, has no findings. -/
theorem flatMap_findingsAt_append_pipe :
    (Pipeline.ofText (s ++ '|' :: t)).stages.flatMap r.findingsAt =
      (Pipeline.ofText s).stages.flatMap r.findingsAt ++
        ((Pipeline.ofText t).stages.flatMap r.findingsAt).map (·.shift (s.byteLength + 1)) := by
  induction s using Quoting.pipe_induction with
  | single s hs =>
    rw [Pipeline.stages_append_pipe hscan hs, Pipeline.stages_of_segments_eq hs, List.flatMap_cons,
      flatMap_findingsAt_map_shift]
    split
    · rename_i hblank
      rw [r.findingsAt_of_blank (Text.blank_trim_iff.mpr hblank)]
      rfl
    · simp
  | pipe a b ha hseg ih =>
    have hb : Quoting.neutral.scan b = Quoting.neutral := by
      rw [Quoting.scan_append, ha] at hscan
      exact hscan
    have hlength : Text.byteLength (a ++ '|' :: b) + 1 =
        Text.byteLength b + 1 + (a.byteLength + 1) := by
      simp only [Text.byteLength_append, Text.byteLength_cons, show '|'.utf8Size = 1 from rfl]
      omega
    rw [List.append_assoc, List.cons_append, Pipeline.stages_append_pipe ha hseg,
      Pipeline.stages_append_pipe ha hseg, List.flatMap_cons, List.flatMap_cons,
      flatMap_findingsAt_map_shift, flatMap_findingsAt_map_shift, ih hb, List.map_append,
      List.map_map, List.append_assoc, hlength]
    simp [Function.comp_def]

/-- A backslash at the end is found at its place behind a front that leaves nothing open. -/
theorem trailingFindings_append :
    r.trailingFindings (Pipeline.ofText (s ++ t)) =
      (r.trailingFindings (Pipeline.ofText t)).map (·.shift s.byteLength) := by
  have hwhole : Quoting.neutral.scan (s ++ t) = Quoting.neutral.scan t := by
    rw [Quoting.scan_append, hscan]
  rw [trailingFindings_ofText, trailingFindings_ofText, hwhole]
  split
  · rename_i h
    have hpos : 0 < t.byteLength := by
      refine Nat.pos_of_ne_zero fun hzero => ?_
      obtain rfl := Text.byteLength_eq_zero_iff.mp hzero
      simp at h
    have hlast : Text.byteLength (s ++ t) - 1 = t.byteLength - 1 + s.byteLength := by
      rw [Text.byteLength_append]
      omega
    rw [hlast]
    rfl
  · rfl

theorem trailingFindings_append_pipe :
    r.trailingFindings (Pipeline.ofText (s ++ '|' :: t)) =
      (r.trailingFindings (Pipeline.ofText t)).map (·.shift (s.byteLength + 1)) := by
  have hpipe : Quoting.neutral.scan (s ++ ['|']) = Quoting.neutral := by
    rw [Quoting.scan_append, hscan]
    rfl
  have hlength : Text.byteLength (s ++ ['|']) = s.byteLength + 1 := Text.byteLength_append s ['|']
  simpa [hlength] using r.trailingFindings_append hpipe t

/-- The findings on joined expressions: those on the front, and those on the back behind the
pipe. -/
theorem placedFindings_append_pipe :
    r.placedFindings (s ++ '|' :: t) =
      r.placedFindings s ++ (r.placedFindings t).map (·.shift (s.byteLength + 1)) := by
  have hnone : r.trailingFindings (Pipeline.ofText s) = [] :=
    r.trailingFindings_of_not_escaped (by rw [hscan])
  rw [placedFindings, placedFindings, placedFindings, hnone, List.append_nil, List.map_append,
    flatMap_findingsAt_append_pipe r hscan, trailingFindings_append_pipe r hscan,
    List.append_assoc]

end Rules

/-! ### Reports -/

theorem Report.errors_ofFindings (l : List Finding) :
    (ofFindings l).errors = (l.filter (·.issue.severity = .error)).map Finding.entry := by
  simp only [ofFindings, ofEntries, List.filter_map]
  rfl

theorem Report.isValid_ofFindings_iff (findings : List Finding) :
    (ofFindings findings).isValid = true ↔ (ofFindings findings).errors = [] := by
  rw [ofFindings, ofEntries, List.isEmpty_iff]

theorem Report.warnings_ofFindings (l : List Finding) :
    (ofFindings l).warnings = (l.filter (·.issue.severity = .warning)).map Finding.entry := by
  simp only [ofFindings, ofEntries, List.filter_map]
  rfl

theorem Report.entries_ofFindings_perm (l : List Finding) :
    (ofFindings l).entries.Perm (l.map Finding.entry) := by
  have hwarning (e : Entry) : decide (e.severity = .warning) = !decide (e.severity = .error) := by
    cases e.severity <;> rfl
  simp only [entries, ofFindings, ofEntries, hwarning]
  exact List.filter_append_perm _ _

namespace Rules

variable (r : Rules)

theorem exists_of_mem_entries_report {t : Text} {e : Entry} (he : e ∈ (r.report t).entries) :
    ∃ f ∈ r.findings t, f.entry = e :=
  List.mem_map.mp ((Report.entries_ofFindings_perm (r.findings t)).mem_iff.mp he)

/-- The errors of a report have places in the expression. -/
theorem errors_report (t : Text) :
    (r.report t).errors =
      ((r.placedFindings t).filter (·.issue.severity = .error)).map Finding.entry := by
  have hnone : (pipelineFindings ((Pipeline.ofText t).stages.map (·.text))).filter
      (·.issue.severity = .error) = [] := by
    refine List.filter_eq_nil_iff.mpr fun f hf => ?_
    simp [(severity_of_mem_pipelineFindings hf).1]
  rw [report, Report.errors_ofFindings, findings_eq, List.filter_append, hnone, List.append_nil]

theorem filter_warnings_report (t : Text) :
    (r.report t).warnings.filter (!·.isPipelineWide) =
      ((r.placedFindings t).filter (·.issue.severity = .warning)).map Finding.entry := by
  have hnone : (pipelineFindings ((Pipeline.ofText t).stages.map (·.text))).filter
      (fun f => !f.issue.isPipelineWide && f.issue.severity = .warning) = [] := by
    refine List.filter_eq_nil_iff.mpr fun f hf => ?_
    simp [(severity_of_mem_pipelineFindings hf).2]
  have hall : (r.placedFindings t).filter
      (fun f => !f.issue.isPipelineWide && f.issue.severity = .warning) =
      (r.placedFindings t).filter (·.issue.severity = .warning) := by
    refine List.filter_congr fun f hf => ?_
    simp [r.isPipelineWide_of_mem_placedFindings hf]
  rw [report, Report.warnings_ofFindings, List.filter_map, List.filter_filter]
  simp only [Function.comp_def, Finding.isPipelineWide_entry]
  rw [findings_eq, List.filter_append, hnone, hall, List.append_nil]

/-- **Reports on joined expressions.** If the front ends outside quotes with no escape pending, the
errors in the whole are those in the front and then those in the back, moved behind the pipe; and
so are the warnings, but for those on the pipeline as a whole. -/
theorem report_append_pipe {s : Text} (hscan : Quoting.neutral.scan s = Quoting.neutral)
    (t : Text) :
    (r.report (s ++ '|' :: t)).errors =
        (r.report s).errors ++ (r.report t).errors.map (·.shift (s.byteLength + 1)) ∧
      (r.report (s ++ '|' :: t)).warnings.filter (!·.isPipelineWide) =
        (r.report s).warnings.filter (!·.isPipelineWide) ++
          ((r.report t).warnings.filter (!·.isPipelineWide)).map
            (·.shift (s.byteLength + 1)) := by
  have hmoved (p : Issue → Bool) (l : List Finding) (n : Nat) :
      ((l.map (·.shift n)).filter (p ·.issue)).map Finding.entry =
        ((l.filter (p ·.issue)).map Finding.entry).map (·.shift n) := by
    rw [List.filter_map, List.map_map, List.map_map]
    rfl
  constructor
  · rw [errors_report, errors_report, errors_report, placedFindings_append_pipe r hscan,
      List.filter_append, List.map_append, hmoved (·.severity = .error)]
  · rw [filter_warnings_report, filter_warnings_report, filter_warnings_report,
      placedFindings_append_pipe r hscan, List.filter_append, List.map_append,
      hmoved (·.severity = .warning)]

/-- A string that is left open behind the pipe is reported at its place in the whole. -/
theorem report_append_pipe_open_string :
    Quoting.neutral.scan "grep -i a ".toList = Quoting.neutral ∧
      (({} : Rules).report ("grep -i a ".toList ++ '|' :: " \"b\\".toList)).errors =
        [⟨"unterminated double quote".toList, ⟨12, 3⟩, .error⟩] :=
  ⟨by decide, ((report_append_pipe {} (by decide) _).1).trans (by decide +kernel)⟩

end Rules

end PipeLint
