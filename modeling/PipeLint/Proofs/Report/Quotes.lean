import PipeLint.Proofs.Check.Error
import PipeLint.Proofs.Pipeline.Join

/-!
# Open quotes in reports

Two readers look for open quotes: the quoting, which decides where the stages of an expression end,
and the reader of tokens, which decides what is reported. They agree on every expression in which no
word holds a quote. A report then has one fault of an open string if the expression ends inside
quotes, and none otherwise; the fault is the last token of the last stage.

## Main definitions

* `PipeLint.Report.quoteFaults`: the errors of a report that are worded like those of open strings.

## Main results

* `PipeLint.Text.filter_stageFindings_of_isOpen`: what a stage with an open string is reported for.
* `PipeLint.Rules.quoteFaults_report`: what an expression is reported for.
-/

namespace PipeLint

/-! ### Entries on open strings -/

theorem Issue.isQuoteFault_congr {i j : Issue} (h : i.message = j.message) :
    i.isQuoteFault = j.isQuoteFault := by
  rcases message_eq_iff.mp h with rfl | ⟨p, q, rfl, rfl, -⟩ <;> rfl

/-- Whether an entry is about a string that is not closed, judging by its wording. -/
def Entry.isQuoteFault (e : Entry) : Bool :=
  e.message = Issue.malformedString.message || e.message = (Issue.openQuote '"').message ||
    e.message = (Issue.openQuote '\'').message

theorem Entry.isQuoteFault_eq_true_iff {e : Entry} :
    e.isQuoteFault = true ↔ (e.message = Issue.malformedString.message ∨
      e.message = (Issue.openQuote '"').message) ∨ e.message = (Issue.openQuote '\'').message := by
  simp only [isQuoteFault, Bool.or_eq_true, decide_eq_true_eq]

@[simp]
theorem Finding.isQuoteFault_entry (f : Finding) :
    f.entry.isQuoteFault = f.issue.isQuoteFault := by
  obtain ⟨issue, span⟩ := f
  rw [Bool.eq_iff_iff, Entry.isQuoteFault_eq_true_iff]
  constructor
  · rintro ((h | h) | h) <;> exact Issue.isQuoteFault_congr h
  · intro h
    cases issue with
    | malformedString => exact Or.inl (Or.inl rfl)
    | openQuote quote =>
      by_cases hquote : quote = '\''
      · subst hquote
        exact Or.inr rfl
      · exact Or.inl (Or.inr (Issue.message_openQuote_inj.mpr (iff_of_false hquote (by decide))))
    | _ => simp [Issue.isQuoteFault] at h

/-- The errors of a report that are worded like those of strings that are not closed. -/
def Report.quoteFaults (r : Report) : List Entry :=
  r.errors.filter (·.isQuoteFault)

theorem Report.quoteFaults_ofFindings (l : List Finding) :
    (ofFindings l).quoteFaults = (l.filter (·.issue.isQuoteFault)).map Finding.entry := by
  have herror (f : Finding) :
      (f.issue.isQuoteFault && decide (f.issue.severity = .error)) = f.issue.isQuoteFault := by
    cases h : f.issue.isQuoteFault with
    | false => rfl
    | true => simp [Issue.severity_of_isQuoteFault h]
  rw [quoteFaults, errors_ofFindings, List.filter_map, List.filter_filter]
  simp only [Function.comp_apply, Finding.isQuoteFault_entry, herror]

/-! ### Stages -/

/-- The findings on a list of tokens, those on the last token apart. -/
theorem exists_tokenFindings_concat_eq (flags : FlagSet) (init : List Token) (k : Token) :
    ∃ front, tokenFindings flags (init ++ [k]) = front ++ k.findings flags none ∧
      ∀ f ∈ front, ∃ m ∈ init, ∃ next?, f ∈ m.findings flags next? := by
  induction init with
  | nil => exact ⟨[], by simp [tokenFindings], by simp⟩
  | cons m init ih =>
    obtain ⟨front, heq, hfront⟩ := ih
    refine ⟨m.findings flags (init ++ [k]).head? ++ front, ?_, fun f hf => ?_⟩
    · rw [List.cons_append, tokenFindings, heq, List.append_assoc]
    · rcases List.mem_append.mp hf with hf | hf
      · exact ⟨m, List.mem_cons_self, _, hf⟩
      · obtain ⟨n, hn, hfound⟩ := hfront f hf
        exact ⟨n, List.mem_cons_of_mem m hn, hfound⟩

namespace Text

variable {t : Text} {k : Token}

theorem isQuoteFault_of_not_isOpen (hk : k ∈ t.tokens) (hopen : ¬ k.IsOpen) {flags : FlagSet}
    {next? : Option Token} {f : Finding} (hf : f ∈ k.findings flags next?) :
    f.issue.isQuoteFault = false := by
  rcases cases_findings_of_mem_tokens hk flags next? with
    ⟨hopen', -⟩ | ⟨-, -, heq⟩ | ⟨-, -, hall⟩
  · exact absurd hopen' hopen
  · rw [heq] at hf
    obtain rfl := List.mem_singleton.mp hf
    rfl
  · exact Issue.isQuoteFault_of_severity (hall f hf)

theorem filter_stageFindings_eq_nil (h : ∀ k ∈ t.tokens, ¬ k.IsOpen) (flags : FlagSet) :
    (stageFindings flags t t.tokens).filter (·.issue.isQuoteFault) = [] := by
  refine List.filter_eq_nil_iff.mpr fun f hf => ?_
  rw [Bool.not_eq_true]
  obtain ⟨-, hf | ⟨-, rfl⟩⟩ := mem_stageFindings_iff.mp hf
  · obtain ⟨front, k, back, htokens, hf⟩ := mem_tokenFindings_iff.mp hf
    have hk : k ∈ t.tokens := by simp [htokens]
    exact isQuoteFault_of_not_isOpen hk (h k hk) hf
  · rfl

/-- A stage with an open string is reported for this string once. -/
theorem filter_stageFindings_of_isOpen (hblank : ¬ t.Blank) {init : List Token}
    (htokens : t.tokens = init ++ [k]) (hopen : k.IsOpen) (hinit : ∀ m ∈ init, ¬ m.IsOpen)
    (flags : FlagSet) :
    ∃ i, (stageFindings flags t t.tokens).filter (·.issue.isQuoteFault) = [⟨i, k.span⟩] := by
  have hstage : (stageFindings flags t t.tokens).filter (·.issue.isQuoteFault) =
      (tokenFindings flags t.tokens).filter (·.issue.isQuoteFault) := by
    rw [stageFindings, if_neg hblank]
    split
    · rfl
    · rw [List.filter_append]
      exact List.append_nil _
  have hk : k ∈ t.tokens := by simp [htokens]
  obtain ⟨i, hi, hfindings⟩ := exists_findings_eq_of_isOpen hk hopen flags none
  obtain ⟨front, heq, hfront⟩ := exists_tokenFindings_concat_eq flags init k
  have hnone : front.filter (·.issue.isQuoteFault) = [] := by
    refine List.filter_eq_nil_iff.mpr fun f hf => ?_
    obtain ⟨m, hm, next?, hfound⟩ := hfront f hf
    have hmem : m ∈ t.tokens := by simp [htokens, hm]
    simp [isQuoteFault_of_not_isOpen hmem (hinit m hm) hfound]
  refine ⟨i, ?_⟩
  rw [hstage, htokens, heq, List.filter_append, hnone, hfindings]
  simp [hi]

end Text

/-! ### Expressions -/

namespace Rules

variable (r : Rules) {t : Text}

theorem filter_isQuoteFault_findings (t : Text) :
    (r.findings t).filter (·.issue.isQuoteFault) =
      (Pipeline.ofText t).stages.flatMap fun s =>
        (r.findingsAt s).filter (·.issue.isQuoteFault) := by
  refine r.filter_findings rfl (fun i hi => ?_) t
  cases i <;> first | rfl | simp [Issue.isPipelineWide] at hi

variable (hwords : ∀ s ∈ (Pipeline.ofText t).stages, ∀ k ∈ s.text.tokens, k.kind = .word →
  '"' ∉ k.text ∧ '\'' ∉ k.text)

include hwords

theorem endsQuoted_stage_iff {s : Stage} (hs : s ∈ (Pipeline.ofText t).stages) :
    s.text.EndsQuoted ↔ ∃ k ∈ s.text.tokens, k.IsOpen :=
  Text.endsQuoted_iff_exists_isOpen fun k hk hkind =>
    Text.not_endsQuoted_of_notMem (hwords s hs k hk hkind).1 (hwords s hs k hk hkind).2

theorem filter_findingsAt_eq_nil {s : Stage} (hs : s ∈ (Pipeline.ofText t).stages)
    (hclosed : ¬ s.text.EndsQuoted) : (r.findingsAt s).filter (·.issue.isQuoteFault) = [] := by
  have hnone : ∀ k ∈ s.text.tokens, ¬ k.IsOpen := fun k hk hopen =>
    hclosed ((endsQuoted_stage_iff hwords hs).mpr ⟨k, hk, hopen⟩)
  rw [filter_findingsAt r (·.isQuoteFault), Text.filter_stageFindings_eq_nil hnone r.flags,
    List.map_nil]

theorem filter_findings_eq_nil (hclosed : ¬ t.EndsQuoted) :
    (r.findings t).filter (·.issue.isQuoteFault) = [] := by
  rw [filter_isQuoteFault_findings, List.flatMap_eq_nil_iff]
  intro s hs
  exact r.filter_findingsAt_eq_nil hwords hs (Pipeline.not_endsQuoted_of_mem_stages hclosed s hs)

/-- An expression that ends inside quotes is reported for one open string, the last token of its
last stage. -/
theorem exists_filter_findings_eq (hends : t.EndsQuoted) :
    ∃ s k i, (Pipeline.ofText t).stages.getLast? = some s ∧ s.text.tokens.getLast? = some k ∧
      k.kind = .quoted ∧ ⟨i, k.span.shift s.offset⟩ ∈ r.findingsAt s ∧
      (r.findings t).filter (·.issue.isQuoteFault) = [⟨i, k.span.shift s.offset⟩] := by
  obtain ⟨init, s, hstages, hlast, hinit⟩ := Pipeline.exists_stages_eq_of_endsQuoted hends
  have hs : s ∈ (Pipeline.ofText t).stages := by simp [hstages]
  obtain ⟨k, hk, hopen⟩ := (endsQuoted_stage_iff hwords hs).mp hlast
  obtain ⟨tokens, htokens, hothers⟩ := Text.exists_tokens_eq_of_isOpen hk hopen
  have hblank : ¬ s.text.Blank := fun hblank => hlast (by rw [hblank.scan_neutral])
  obtain ⟨i, heq⟩ :=
    Text.filter_stageFindings_of_isOpen hblank htokens hopen hothers r.flags
  have hfront : init.flatMap (fun s => (r.findingsAt s).filter (·.issue.isQuoteFault)) = [] := by
    refine List.flatMap_eq_nil_iff.mpr fun u hu => ?_
    exact r.filter_findingsAt_eq_nil hwords (by simp [hstages, hu]) (hinit u hu)
  have hfound : (r.findingsAt s).filter (·.issue.isQuoteFault) =
      [⟨i, k.span.shift s.offset⟩] := by
    rw [filter_findingsAt r (·.isQuoteFault), heq]
    rfl
  refine ⟨s, k, i, by simp [hstages], by simp [htokens], hopen.1, ?_, ?_⟩
  · exact (List.mem_filter.mp (hfound ▸ List.mem_singleton_self _)).1
  · rw [filter_isQuoteFault_findings, hstages, List.flatMap_append, hfront,
      List.flatMap_singleton, hfound]
    rfl

/-- **Open quotes in reports.** If no word of an expression holds a quote, the report has at most
one fault of an open string, and it has one exactly if the expression ends inside quotes; the fault
is then the last token of the last stage. -/
theorem quoteFaults_report :
    (r.report t).quoteFaults.length ≤ 1 ∧
      ((r.report t).quoteFaults ≠ [] ↔ t.EndsQuoted) ∧
      ∀ e ∈ (r.report t).quoteFaults, ∃ s k, (Pipeline.ofText t).stages.getLast? = some s ∧
        s.text.tokens.getLast? = some k ∧ k.kind = .quoted ∧
        e ∈ (r.findingsAt s).map Finding.entry ∧ e.span = k.span.shift s.offset := by
  rw [report, Report.quoteFaults_ofFindings]
  by_cases hends : t.EndsQuoted
  · obtain ⟨s, k, i, hs, hk, hkind, hfound, heq⟩ := r.exists_filter_findings_eq hwords hends
    rw [heq]
    refine ⟨by simp, iff_of_true (by simp) hends, fun e he => ?_⟩
    obtain rfl := List.mem_singleton.mp he
    exact ⟨s, k, hs, hk, hkind, List.mem_map_of_mem hfound, rfl⟩
  · rw [r.filter_findings_eq_nil hwords hends]
    exact ⟨by simp, iff_of_false (by simp) hends, by simp⟩

omit hwords in
/-- The quote that is left open takes the pipe with it. -/
theorem quoteFaults_report_open_pipe :
    (∀ s ∈ (Pipeline.ofText "grep -i a | \"b|c".toList).stages, ∀ k ∈ s.text.tokens,
        k.kind = .word → '"' ∉ k.text ∧ '\'' ∉ k.text) ∧
      (({} : Rules).report "grep -i a | \"b|c".toList).quoteFaults ≠ [] :=
  ⟨by decide +kernel, (quoteFaults_report {} (by decide +kernel)).2.1.mpr (by decide)⟩

end Rules

end PipeLint
