import PipeLint.Proofs.Check.Order
import PipeLint.Proofs.Finding.Place
import PipeLint.Proofs.Report.Supported
import PipeLint.Proofs.Token.Append

/-!
# The order of a report

The errors and the warnings of a report are listed stage by stage, and the stages follow one another
in the expression. Within a stage what is found in its tokens comes in the order of the places,
errors at different places even. But a stage that has nothing to search for is an error as a whole:
this one comes behind the errors in the tokens, although the stage starts no later than they do. So
the errors of an expression are in the order of their places unless such a stage has a stray
character behind its start. Among the warnings only those on the pipeline, which have no place, are
out of order, and they come last.

## Main definitions

* `PipeLint.Rules.entriesAt`: what a report lists for one stage.
* `PipeLint.Rules.InOrder`: the order of a report.

## Main results

* `PipeLint.Rules.inOrder_report`: every report is in this order.
* `PipeLint.Rules.pairwise_errors_report_iff`: when the errors are in the order of their places.
-/

namespace PipeLint

theorem Pipeline.pairwise_span_stages (t : Text) :
    (ofText t).stages.Pairwise (·.span.stop ≤ ·.span.start) := by
  rcases exists_gaps?_stages t [] with ⟨hnone, -⟩ | ⟨before, between, behind, hgaps, -⟩
  · rw [hnone]
    exact .nil
  · exact List.pairwise_map.mp (Text.pairwise_of_gaps? hgaps).2

namespace Rules

variable (r : Rules) {t : Text} {s : Stage}

/-- What a report lists for one stage, of one severity. -/
def entriesAt (severity : Severity) (s : Stage) : List Entry :=
  ((r.findingsAt s).filter (·.issue.severity = severity)).map Finding.entry

/-! ### Places of findings -/

/-- What a fault names is not empty, unless it is one of the pipeline as a whole. -/
theorem Names.part_ne_nil {span : Span} {part : Text} {i : Issue} (h : r.Names t span part i)
    (hi : i.isPipelineWide = false) : part ≠ [] := by
  cases i with
  | missingDash | emptyFlags => exact h.elim
  | unsupportedFlag c => simp [h.1]
  | malformedString =>
    obtain ⟨⟨quote, rfl, -⟩, -⟩ := h
    simp
  | openQuote quote =>
    rintro rfl
    simpa using h.2.1
  | invalidEscape =>
    obtain ⟨c, rfl, -⟩ := h
    simp
  | strayCharacter =>
    obtain ⟨c, rfl, -⟩ := h
    simp
  | missingPattern => exact h.1
  | likeWithoutWildcard =>
    obtain ⟨-, u, -, k, hk, -, rfl, -⟩ := h
    exact Text.text_ne_nil_of_mem_tokens hk
  | trailingEscape => simp [h.1]
  | negatedFinalStage | repeatedIgnoreCase => simp [Issue.isPipelineWide] at hi

variable {r}

theorem within_of_mem_findingsAt {f : Finding} (hf : f ∈ r.findingsAt s) :
    f.span.Within s.span := by
  obtain ⟨g, hg, rfl⟩ := List.mem_map.mp hf
  have hspan : s.span = Span.shift ⟨0, s.text.byteLength⟩ s.offset := by
    ext <;> simp [Stage.span]
  rw [Finding.span_shift, hspan]
  refine Span.Within.shift ?_ _
  obtain ⟨-, hg | ⟨-, rfl⟩⟩ := mem_stageFindings_iff.mp hg
  · obtain ⟨k, hk, hwithin⟩ := exists_within_of_mem_tokenFindings hg
    exact hwithin.trans (Text.span_within_of_mem_tokens hk)
  · exact .refl _

theorem isOfToken_of_mem_findingsAt {f : Finding} (hf : f ∈ r.findingsAt s)
    (hwarning : f.issue.severity = .warning) : f.issue.isOfToken = true := by
  obtain ⟨g, hg, rfl⟩ := List.mem_map.mp hf
  rw [Finding.issue_shift] at hwarning ⊢
  obtain ⟨-, hg | ⟨-, rfl⟩⟩ := mem_stageFindings_iff.mp hg
  · exact isOfToken_of_mem_tokenFindings hg
  · simp [Issue.severity] at hwarning

theorem start_lt_byteLength_of_mem_findingsAt (hs : s ∈ (Pipeline.ofText t).stages) {f : Finding}
    (hf : f ∈ r.findingsAt s) : f.span.start < t.byteLength := by
  obtain ⟨part, hpart, -, hnames⟩ := points_of_mem_findingsAt hs hf
  have hplaced : f.issue.isPipelineWide = false :=
    r.isPipelineWide_of_mem_placedFindings
      (List.mem_append_left _ (List.mem_flatMap.mpr ⟨s, hs, hf⟩))
  have hne : part.byteLength ≠ 0 := mt Text.byteLength_eq_zero_iff.mp (hnames.part_ne_nil r hplaced)
  have := hpart.add_byteLength_le
  omega

/-! ### One stage -/

/-- How the errors on a stage are ordered: those in its tokens from left to right, and behind them
the one on the stage as a whole, if there is one. -/
def ErrorsInOrder (s : Stage) (errors : List Entry) : Prop :=
  ∃ located whole, errors = located ++ whole ∧
    (∀ e ∈ located, e.message ≠ Issue.missingPattern.message ∧
      ∃ k ∈ s.text.tokens, e.span = k.span.shift s.offset) ∧
    located.Pairwise (·.span.start < ·.span.start) ∧
    (whole = [] ∨ whole = [Finding.entry ⟨.missingPattern, s.span⟩])

/-- The errors on a stage with text: one at each faulty token, and one on the stage as a whole if it
has nothing to search for. -/
theorem exists_entriesAt_error_eq (hblank : ¬ s.text.Blank) :
    ∃ located, r.entriesAt .error s = located ++
        (if s.text.tokens.any (·.isSearchable r.flags) then []
        else [Finding.entry ⟨.missingPattern, s.span⟩]) ∧
      (∀ e ∈ located, e.message ≠ Issue.missingPattern.message) ∧
      located.map Entry.span =
        (s.text.tokens.filter Token.IsFaulty).map (·.span.shift s.offset) := by
  let errors := (tokenFindings ∅ s.text.tokens).filter (·.issue.severity = .error)
  refine ⟨errors.map fun f => (f.shift s.offset).entry, ?_, fun e he => ?_, ?_⟩
  · rw [entriesAt, filter_findingsAt r (·.severity = .error),
      Text.filter_error_stageFindings hblank, List.map_append, List.map_append, List.map_map]
    refine congrArg₂ _ rfl ?_
    split
    · rfl
    · simp [Stage.span, Finding.shift, Span.shift]
  · obtain ⟨f, hf, rfl⟩ := List.mem_map.mp he
    have htoken := isOfToken_of_mem_tokenFindings (List.mem_filter.mp hf).1
    intro hmessage
    have hsame : f.issue.message = Issue.missingPattern.message := hmessage
    obtain hissue : f.issue = .missingPattern := by simpa [Issue.message_eq_iff] using hsame
    rw [hissue] at htoken
    exact absurd htoken (by decide)
  · have hspans := congrArg (List.map (·.shift s.offset))
      (Text.map_span_filter_error_tokenFindings (List.Subset.refl s.text.tokens) ∅)
    rw [List.map_map, List.map_map] at hspans
    rw [List.map_map]
    exact hspans

/-- What stands at the faulty tokens of a stage, one entry at each, stands at places that rise. -/
theorem pairwise_of_map_span_eq {located : List Entry}
    (h : located.map Entry.span =
      (s.text.tokens.filter Token.IsFaulty).map (·.span.shift s.offset)) :
    located.Pairwise (·.span.start < ·.span.start) := by
  have hrising : ((s.text.tokens.filter Token.IsFaulty).map (·.span.shift s.offset)).Pairwise
      (·.start < ·.start) :=
    List.pairwise_map.mpr (((Text.pairwise_start_tokens s.text).filter _).imp fun hlt =>
      Nat.add_lt_add_right hlt s.offset)
  rwa [← h, List.pairwise_map] at hrising

theorem entriesAt_of_blank (hblank : s.text.Blank) (severity : Severity) :
    r.entriesAt severity s = [] := by
  simp [entriesAt, r.findingsAt_of_blank hblank]

theorem errorsInOrder_entriesAt (r : Rules) (s : Stage) :
    ErrorsInOrder s (r.entriesAt .error s) := by
  by_cases hblank : s.text.Blank
  · exact ⟨[], [], by simp [entriesAt_of_blank hblank], by simp, .nil, Or.inl rfl⟩
  obtain ⟨located, heq, hmessage, hspans⟩ := exists_entriesAt_error_eq (r := r) hblank
  refine ⟨located, _, heq, fun e he => ⟨hmessage e he, ?_⟩, pairwise_of_map_span_eq hspans, ?_⟩
  · have hmem : e.span ∈ located.map Entry.span := List.mem_map_of_mem he
    rw [hspans] at hmem
    obtain ⟨k, hk, hspan⟩ := List.mem_map.mp hmem
    exact ⟨k, (List.mem_filter.mp hk).1, hspan.symm⟩
  · split
    · exact Or.inl rfl
    · exact Or.inr rfl

/-- In a stage with nothing to search for the stray characters are the only faulty tokens. -/
theorem isFaulty_iff_of_not_isSearchable {k : Token} (h : k.isSearchable r.flags = false) :
    k.IsFaulty ↔ k.kind = .stray := by
  refine or_iff_left fun hopen => ?_
  simp [Token.isSearchable, Token.isPattern, hopen.1] at h

/-- The errors on a stage are in the order of their places exactly if the stage has something to
search for, or no stray character behind its start. -/
theorem pairwise_entriesAt_error_iff :
    (r.entriesAt .error s).Pairwise (·.span.start ≤ ·.span.start) ↔
      ((∀ k ∈ s.text.tokens, k.isSearchable r.flags = false) →
        ∀ k ∈ s.text.tokens, k.kind = .stray → k.offset = 0) := by
  by_cases hblank : s.text.Blank
  · simp [entriesAt_of_blank hblank, hblank.tokens_eq_nil]
  obtain ⟨located, heq, -, hspans⟩ := exists_entriesAt_error_eq (r := r) hblank
  have hlocated : located.Pairwise (·.span.start ≤ ·.span.start) :=
    (pairwise_of_map_span_eq hspans).imp Nat.le_of_lt
  rw [heq]
  split
  · rename_i hsearch
    obtain ⟨k, hk, hfound⟩ := List.any_eq_true.mp hsearch
    rw [List.append_nil]
    exact iff_of_true hlocated fun hnone => absurd (hnone k hk) (by simp [hfound])
  · rename_i hsearch
    have hnone : ∀ k ∈ s.text.tokens, k.isSearchable r.flags = false := by simpa using hsearch
    -- the error on the whole stage is in place if none of the others starts behind the stage
    have hplace : (∀ e ∈ located, ∀ f ∈ [Finding.entry ⟨.missingPattern, s.span⟩],
        e.span.start ≤ f.span.start) ↔ ∀ p ∈ located.map Entry.span, p.start ≤ s.offset := by
      simp only [List.forall_mem_singleton, List.forall_mem_map]
      rfl
    rw [List.pairwise_append, and_iff_right hlocated, and_iff_right (List.pairwise_singleton _ _),
      hplace, hspans, imp_iff_right hnone]
    simp only [List.forall_mem_map, List.mem_filter, decide_eq_true_eq, and_imp]
    refine forall₂_congr fun k hk => ?_
    rw [isFaulty_iff_of_not_isSearchable (hnone k hk)]
    refine imp_congr_right fun _ => ?_
    change k.offset + s.offset ≤ s.offset ↔ k.offset = 0
    omega

/-! ### Expressions -/

theorem within_of_mem_entriesAt {severity : Severity} {e : Entry}
    (he : e ∈ r.entriesAt severity s) : e.span.Within s.span := by
  obtain ⟨f, hf, rfl⟩ := List.mem_map.mp he
  exact within_of_mem_findingsAt (List.mem_filter.mp hf).1

/-- What is listed stage by stage is in the order of the places if it is for each stage. -/
theorem pairwise_flatMap_entriesAt_iff (r : Rules) (severity : Severity) (t : Text) :
    ((Pipeline.ofText t).stages.flatMap (r.entriesAt severity)).Pairwise
        (·.span.start ≤ ·.span.start) ↔
      ∀ s ∈ (Pipeline.ofText t).stages,
        (r.entriesAt severity s).Pairwise (·.span.start ≤ ·.span.start) := by
  rw [List.pairwise_flatMap, and_iff_left_iff_imp]
  refine fun _ => (Pipeline.pairwise_span_stages t).imp fun {s u} hle e he f hf => ?_
  calc e.span.start ≤ e.span.stop := e.span.start_le_stop
    _ ≤ s.span.stop := (within_of_mem_entriesAt he).stop_le
    _ ≤ u.span.start := hle
    _ ≤ f.span.start := (within_of_mem_entriesAt hf).start_le

theorem errors_report_eq_entriesAt (r : Rules) (t : Text) :
    (r.report t).errors = (Pipeline.ofText t).stages.flatMap (r.entriesAt .error) := by
  rw [errors_report_eq_flatMap, List.map_flatMap]
  rfl

/-- The warnings of a report: those on the stages, the one about a backslash at the end, and those
on the pipeline. -/
theorem warnings_report_eq_entriesAt (r : Rules) (t : Text) :
    (r.report t).warnings =
      (Pipeline.ofText t).stages.flatMap (r.entriesAt .warning) ++
        (r.trailingFindings (Pipeline.ofText t)).map Finding.entry ++
        ((if ((Pipeline.ofText t).stages.map (·.text)).getLast?.any (usesFlag 'v') then
            [Finding.entry ⟨.negatedFinalStage, ⟨0, 0⟩⟩] else []) ++
          if 1 < ((Pipeline.ofText t).stages.map (·.text)).countP (usesFlag 'i') then
            [Finding.entry ⟨.repeatedIgnoreCase, ⟨0, 0⟩⟩] else []) := by
  have htrailing : (r.trailingFindings (Pipeline.ofText t)).filter (·.issue.severity = .warning) =
      r.trailingFindings (Pipeline.ofText t) := by
    refine List.filter_eq_self.mpr fun f hf => ?_
    obtain ⟨-, rfl⟩ := r.mem_trailingFindings hf
    rfl
  have hpipeline : (pipelineFindings ((Pipeline.ofText t).stages.map (·.text))).filter
      (·.issue.severity = .warning) =
        pipelineFindings ((Pipeline.ofText t).stages.map (·.text)) :=
    List.filter_eq_self.mpr fun f hf => by simp [(severity_of_mem_pipelineFindings hf).1]
  rw [report, Report.warnings_ofFindings, findings_eq, placedFindings, List.filter_append,
    List.filter_append, htrailing, hpipeline, List.filter_flatMap, List.map_append,
    List.map_append, List.map_flatMap, pipelineFindings, List.map_append, apply_ite (List.map _),
    apply_ite (List.map _)]
  rfl

theorem kind_of_mem_entriesAt {e : Entry} (he : e ∈ r.entriesAt .warning s) :
    e.message ≠ Issue.trailingEscape.message ∧ e.isPipelineWide = false := by
  obtain ⟨f, hf, rfl⟩ := List.mem_map.mp he
  obtain ⟨hf, hwarning⟩ := List.mem_filter.mp hf
  have htoken := isOfToken_of_mem_findingsAt hf (of_decide_eq_true hwarning)
  rw [Finding.isPipelineWide_entry]
  refine ⟨fun hmessage => ?_, Issue.isPipelineWide_of_isOfToken htoken⟩
  have hsame : f.issue.message = Issue.trailingEscape.message := hmessage
  obtain hissue : f.issue = .trailingEscape := by simpa [Issue.message_eq_iff] using hsame
  rw [hissue] at htoken
  exact absurd htoken (by decide)

theorem pairwise_placed_warnings (r : Rules) (t : Text) :
    ((Pipeline.ofText t).stages.flatMap (r.entriesAt .warning) ++
        (r.trailingFindings (Pipeline.ofText t)).map Finding.entry).Pairwise
      (·.span.start ≤ ·.span.start) := by
  rw [trailingFindings_ofText, List.pairwise_append, pairwise_flatMap_entriesAt_iff]
  refine ⟨fun s _ => ?_, ?_, fun e he f hf => ?_⟩
  · rw [entriesAt, filter_findingsAt r (·.severity = .warning), List.pairwise_map,
      List.pairwise_map]
    exact (Text.pairwise_filter_warning_stageFindings r.flags s.text).imp fun hle =>
      Nat.add_le_add_right hle s.offset
  · split
    · exact List.pairwise_singleton _ _
    · exact .nil
  · -- a warning on a stage starts at the last byte at the latest
    obtain ⟨s, hs, he⟩ := List.mem_flatMap.mp he
    obtain ⟨g, hg, rfl⟩ := List.mem_map.mp he
    have hlt := start_lt_byteLength_of_mem_findingsAt hs (List.mem_filter.mp hg).1
    split at hf
    · obtain rfl := List.mem_singleton.mp hf
      exact Nat.le_sub_one_of_lt hlt
    · simp at hf

/-- How a report on an expression is ordered. -/
structure InOrder (r : Rules) (t : Text) (report : Report) : Prop where
  /-- The stages follow one another in the expression. -/
  stages : (Pipeline.ofText t).stages.Pairwise (·.span.stop ≤ ·.span.start)
  /-- What is listed for a stage lies in the stage. -/
  within : ∀ s ∈ (Pipeline.ofText t).stages, ∀ severity, ∀ e ∈ r.entriesAt severity s,
    e.span.Within s.span
  /-- The errors are those on the stages, from the first stage to the last. -/
  errors : report.errors = (Pipeline.ofText t).stages.flatMap (r.entriesAt .error)
  /-- The errors on one stage are in order. -/
  errorsInOrder : ∀ s ∈ (Pipeline.ofText t).stages, ErrorsInOrder s (r.entriesAt .error s)
  /-- The warnings on the stages come first and are none of the later kinds. Then a backslash at the
  end may be warned about, at a place no earlier than those before; and then, in this order, a last
  stage that inverts its match, and stages that both ignore case. -/
  warnings : ∃ trailing negated repeated,
    report.warnings = (Pipeline.ofText t).stages.flatMap (r.entriesAt .warning) ++ trailing ++
      (negated ++ repeated) ∧
    (∀ s ∈ (Pipeline.ofText t).stages, ∀ e ∈ r.entriesAt .warning s,
      e.message ≠ Issue.trailingEscape.message ∧ e.isPipelineWide = false) ∧
    ((Pipeline.ofText t).stages.flatMap (r.entriesAt .warning) ++ trailing).Pairwise
      (·.span.start ≤ ·.span.start) ∧
    (trailing = [] ∨ trailing = [Finding.entry ⟨.trailingEscape, ⟨t.byteLength - 1, 1⟩⟩]) ∧
    (negated = [] ∨ negated = [Finding.entry ⟨.negatedFinalStage, ⟨0, 0⟩⟩]) ∧
    (repeated = [] ∨ repeated = [Finding.entry ⟨.repeatedIgnoreCase, ⟨0, 0⟩⟩])

/-- **Reports are in order.** Whatever the rules and the expression, errors and warnings are listed
stage by stage, each in its stage; and the warnings that belong to no stage come last. -/
theorem inOrder_report (r : Rules) (t : Text) : InOrder r t (r.report t) where
  stages := Pipeline.pairwise_span_stages t
  within s _ severity e he := within_of_mem_entriesAt he
  errors := errors_report_eq_entriesAt r t
  errorsInOrder s _ := errorsInOrder_entriesAt r s
  warnings := by
    refine ⟨_, _, _, warnings_report_eq_entriesAt r t, fun s _ e he => kind_of_mem_entriesAt he,
      pairwise_placed_warnings r t, ?_, ?_, ?_⟩
    · rw [trailingFindings_ofText]
      split
      · exact Or.inr rfl
      · exact Or.inl rfl
    · split
      · exact Or.inr rfl
      · exact Or.inl rfl
    · split
      · exact Or.inr rfl
      · exact Or.inl rfl

/-- **Errors in the order of their places.** The errors of a report are in the order of their places
exactly if no stage that has nothing to search for has a stray character behind its start: the error
about the stage as a whole comes behind the one about the character. -/
theorem pairwise_errors_report_iff (r : Rules) (t : Text) :
    (r.report t).errors.Pairwise (·.span.start ≤ ·.span.start) ↔
      ∀ s ∈ (Pipeline.ofText t).stages, (∀ k ∈ s.text.tokens, k.isSearchable r.flags = false) →
        ∀ k ∈ s.text.tokens, k.kind = .stray → k.offset = 0 := by
  rw [errors_report_eq_entriesAt, pairwise_flatMap_entriesAt_iff]
  exact forall₂_congr fun s _ => pairwise_entriesAt_error_iff

/-- A stray character behind flags is reported before the stage that has nothing but the flags to
search for. -/
theorem pairwise_errors_report_stray_behind_flags :
    (({} : Rules).report "-i \x01".toList).errors =
        [⟨"unrecognized token".toList, ⟨3, 1⟩, .error⟩,
          ⟨"missing search pattern".toList, ⟨0, 4⟩, .error⟩] ∧
      ¬ (({} : Rules).report "-i \x01".toList).errors.Pairwise (·.span.start ≤ ·.span.start) := by
  refine ⟨by decide +kernel, fun h => ?_⟩
  have hplace := (pairwise_errors_report_iff {} _).mp h ⟨"-i \x01".toList, 0⟩ (by decide +kernel)
    (by decide +kernel) ⟨.stray, ['\x01'], 3⟩ (by decide +kernel) rfl
  exact absurd hplace (by decide)

end Rules

end PipeLint
