import PipeLint.Proofs.Check.Repeated
import PipeLint.Proofs.Report.Order

/-!
# Entries that are listed twice

A report lists what is found in the stages, at the end of the expression and in the pipeline as a
whole. None of these finds what another one finds, and different findings make different entries. So
an entry is listed twice only if a stage has a finding twice, which it has for the second of two
words `LIKE` in a row if no pattern is behind it: the first `LIKE` finds fault with its pattern and
the second one with the lack of a pattern.

## Main results

* `PipeLint.Rules.eq_of_entry_eq`: different findings on an expression make different entries.
* `PipeLint.Rules.atMostTwice_findings`: the findings on an expression that are made twice.
* `PipeLint.Rules.count_entries_report`: the entries that a report lists twice.
-/

namespace PipeLint

theorem Finding.shift_injective (n : Nat) : Function.Injective (Finding.shift · n) := by
  rintro ⟨i, ⟨start, length⟩⟩ ⟨j, ⟨start', length'⟩⟩ h
  simpa [Finding.shift, Span.shift] using h

namespace Rules

variable {r : Rules} {t : Text} {s : Stage} {f g : Finding}

/-! ### Entries -/

/-- Different findings on an expression make different entries. -/
theorem eq_of_entry_eq (hf : f ∈ r.findings t) (hg : g ∈ r.findings t)
    (h : f.entry = g.entry) : f = g := by
  obtain ⟨hmessage, hspan, -⟩ := Entry.mk.inj h
  refine Finding.ext ?_ hspan
  rcases Issue.message_eq_iff.mp hmessage with hissue | ⟨p, q, hp, hq, -⟩
  · exact hissue
  · -- both are about the quote at the start of the same part
    obtain ⟨part, hpart, hlength, hnames⟩ := points_of_mem_findings hf
    obtain ⟨part', hpart', hlength', hnames'⟩ := points_of_mem_findings hg
    rw [Text.hasPartAt_iff_slice?, hlength, hspan] at hpart
    rw [Text.hasPartAt_iff_slice?, hlength'] at hpart'
    obtain rfl := Option.some.inj (hpart.symm.trans hpart')
    rw [hp] at hnames
    rw [hq] at hnames'
    rw [hp, hq, Option.some.inj (hnames.2.1.symm.trans hnames'.2.1)]

/-! ### Findings -/

theorem notMem_findingsAt_of_stop_le {u : Stage} (hpos : f.span.start < f.span.stop)
    (hle : s.span.stop ≤ u.span.start) (hf : f ∈ r.findingsAt s) : f ∉ r.findingsAt u := fun hf' =>
  Span.not_within_of_stop_le hpos (hle.trans (within_of_mem_findingsAt hf').start_le)
    (within_of_mem_findingsAt hf)

theorem atMostTwice_findingsAt (r : Rules) (s : Stage) (hpos : f.span.start < f.span.stop) :
    AtMostTwice (r.findingsAt s) f (∃ n, IsSecondLike s.text.tokens n ∧
      f = ⟨.likeWithoutWildcard, n.span.shift s.offset⟩) := by
  by_cases hshift : ∃ g : Finding, g.shift s.offset = f
  · obtain ⟨g, rfl⟩ := hshift
    have hpos' : g.span.start < g.span.stop := by simpa using hpos
    refine ((Text.atMostTwice_stageFindings hpos' r.flags s.text).map
      fun b _ h => Finding.shift_injective s.offset h).congr
        (exists_congr fun n => and_congr_right fun _ => ?_)
    exact (Finding.shift_injective s.offset).eq_iff.symm
  · refine .of_notMem (fun hf => ?_) ?_
    · obtain ⟨g, -, hg⟩ := List.mem_map.mp hf
      exact hshift ⟨g, hg⟩
    · rintro ⟨n, -, rfl⟩
      exact hshift ⟨⟨.likeWithoutWildcard, n.span⟩, rfl⟩

theorem atMostTwice_flatMap_findingsAt (r : Rules) {stages : List Stage}
    (hstages : stages.Pairwise (·.span.stop ≤ ·.span.start)) (hpos : f.span.start < f.span.stop) :
    AtMostTwice (stages.flatMap r.findingsAt) f
      (∃ s ∈ stages, ∃ n, IsSecondLike s.text.tokens n ∧
        f = ⟨.likeWithoutWildcard, n.span.shift s.offset⟩) := by
  induction stages with
  | nil => exact .of_notMem List.not_mem_nil fun ⟨_, hs, _⟩ => List.not_mem_nil hs
  | cons s stages ih =>
    obtain ⟨hs, hstages⟩ := List.pairwise_cons.mp hstages
    rw [List.flatMap_cons]
    refine ((r.atMostTwice_findingsAt s hpos).append (ih hstages) fun hf hlater => ?_).congr
      (by simp only [List.mem_cons, exists_eq_or_imp])
    obtain ⟨u, hu, hfu⟩ := List.mem_flatMap.mp hlater
    exact notMem_findingsAt_of_stop_le hpos (hs u hu) hf hfu

theorem start_lt_stop_of_mem_placedFindings (hf : f ∈ r.placedFindings t) :
    f.span.start < f.span.stop := by
  obtain ⟨part, -, hlength, hnames⟩ :=
    points_of_mem_findings (r := r) (List.mem_append_left _ hf)
  have hne := hnames.part_ne_nil r (r.isPipelineWide_of_mem_placedFindings hf)
  rw [Span.stop, ← hlength]
  exact Nat.lt_add_of_pos_right (Nat.pos_of_ne_zero (mt Text.byteLength_eq_zero_iff.mp hne))

theorem atMostTwice_placedFindings (r : Rules) (t : Text) (f : Finding) :
    AtMostTwice (r.placedFindings t) f
      (∃ s ∈ (Pipeline.ofText t).stages, ∃ n, IsSecondLike s.text.tokens n ∧
        f = ⟨.likeWithoutWildcard, n.span.shift s.offset⟩) := by
  by_cases hpos : f.span.start < f.span.stop
  · have htrailing : (r.trailingFindings (Pipeline.ofText t)).count f ≤ 1 := by
      rw [trailingFindings_ofText]
      split
      · exact List.count_le_length
      · exact Nat.zero_le _
    refine ((r.atMostTwice_flatMap_findingsAt (Pipeline.pairwise_span_stages t) hpos).append
      (.of_count_le_one htrailing) fun hf hend => ?_).congr (iff_of_eq (or_false _))
    obtain ⟨s, -, hf⟩ := List.mem_flatMap.mp hf
    obtain ⟨-, rfl⟩ := r.mem_trailingFindings hend
    exact r.ne_trailingEscape_of_mem_findingsAt hf rfl
  · refine .of_notMem (fun hf => hpos (start_lt_stop_of_mem_placedFindings hf)) ?_
    rintro ⟨s, -, n, hn, rfl⟩
    exact hpos (by simpa using Text.start_lt_stop_of_mem_tokens hn.mem)

theorem nodup_pipelineFindings (stages : List Text) : (pipelineFindings stages).Nodup := by
  rw [pipelineFindings]
  split <;> split <;> decide

/-- The warning about the second of two words `LIKE` in a row is made twice if no pattern is behind
it, and any other finding on an expression is made once at most. -/
theorem atMostTwice_findings (r : Rules) (t : Text) (f : Finding) :
    AtMostTwice (r.findings t) f
      (∃ s ∈ (Pipeline.ofText t).stages, ∃ n, IsSecondLike s.text.tokens n ∧
        f = ⟨.likeWithoutWildcard, n.span.shift s.offset⟩) := by
  have hone := List.nodup_iff_count.mp
    (nodup_pipelineFindings ((Pipeline.ofText t).stages.map (·.text))) f
  rw [findings_eq]
  refine ((r.atMostTwice_placedFindings t f).append (.of_count_le_one hone)
    fun hf hwide => ?_).congr (iff_of_eq (or_false _))
  have hplaced := r.isPipelineWide_of_mem_placedFindings hf
  rw [(severity_of_mem_pipelineFindings hwide).2] at hplaced
  contradiction

/-! ### Reports -/

theorem atMostTwice_entries_report (r : Rules) (t : Text) (e : Entry) :
    AtMostTwice (r.report t).entries e
      (∃ s ∈ (Pipeline.ofText t).stages, ∃ n, IsSecondLike s.text.tokens n ∧
        e = Finding.entry ⟨.likeWithoutWildcard, n.span.shift s.offset⟩) := by
  have hmem : ∀ s ∈ (Pipeline.ofText t).stages, ∀ n, IsSecondLike s.text.tokens n →
      ⟨.likeWithoutWildcard, n.span.shift s.offset⟩ ∈ r.findings t := fun s hs n hn =>
    (r.atMostTwice_findings t _).mem ⟨s, hs, n, hn, rfl⟩
  have hlisted : AtMostTwice ((r.findings t).map Finding.entry) e
      (∃ s ∈ (Pipeline.ofText t).stages, ∃ n, IsSecondLike s.text.tokens n ∧
        e = Finding.entry ⟨.likeWithoutWildcard, n.span.shift s.offset⟩) := by
    by_cases he : ∃ f ∈ r.findings t, f.entry = e
    · obtain ⟨f, hf, rfl⟩ := he
      refine ((r.atMostTwice_findings t f).map fun g hg h => eq_of_entry_eq hg hf h).congr ?_
      refine exists_congr fun s => and_congr_right fun hs => exists_congr fun n =>
        and_congr_right fun hn => ⟨congrArg _, fun h => ?_⟩
      exact eq_of_entry_eq hf (hmem s hs n hn) h
    · refine .of_notMem (fun hmap => he (List.mem_map.mp hmap)) ?_
      rintro ⟨s, hs, n, hn, rfl⟩
      exact he ⟨_, hmem s hs n hn, rfl⟩
  rwa [AtMostTwice, ← (Report.entries_ofFindings_perm (r.findings t)).count_eq] at hlisted

/-- **Only one warning is listed twice.** A report lists no entry more than twice. It lists an entry
twice exactly if this is the warning about a word `LIKE` that directly follows another one in its
stage and has no pattern, which is a word or a quoted string, directly behind it. So the entries of
a report are all different exactly if the expression has no such word. -/
theorem count_entries_report (r : Rules) (t : Text) :
    (∀ e, (r.report t).entries.count e ≤ 2 ∧ ((r.report t).entries.count e = 2 ↔
      ∃ s ∈ (Pipeline.ofText t).stages, ∃ n, IsSecondLike s.text.tokens n ∧
        e = Finding.entry ⟨.likeWithoutWildcard, n.span.shift s.offset⟩)) ∧
      ((r.report t).entries.Nodup ↔
        ∀ s ∈ (Pipeline.ofText t).stages, ∀ n, ¬ IsSecondLike s.text.tokens n) := by
  refine ⟨r.atMostTwice_entries_report t, fun hnodup s hs n hn => ?_, fun hnone => ?_⟩
  · have htwo := (r.atMostTwice_entries_report t _).2.mpr ⟨s, hs, n, hn, rfl⟩
    have hle := List.nodup_iff_count.mp hnodup
      (Finding.entry ⟨.likeWithoutWildcard, n.span.shift s.offset⟩)
    omega
  · refine List.nodup_iff_count.mpr fun e => ?_
    obtain ⟨hle, htwo⟩ := r.atMostTwice_entries_report t e
    have hne : (r.report t).entries.count e ≠ 2 := fun hcount => by
      obtain ⟨s, hs, n, hn, -⟩ := htwo.mp hcount
      exact hnone s hs n hn
    omega

/-- The second of two words `LIKE` is warned about twice: it is a pattern without a `%`, and it has
no pattern itself. -/
theorem not_nodup_entries_report_like :
    (({} : Rules).report "like like".toList).warnings =
        [⟨"LIKE pattern has no '%' wildcard".toList, ⟨5, 4⟩, .warning⟩,
          ⟨"LIKE pattern has no '%' wildcard".toList, ⟨5, 4⟩, .warning⟩] ∧
      ¬ (({} : Rules).report "like like".toList).entries.Nodup := by
  decide +kernel

end Rules

end PipeLint
