import PipeLint.Proofs.Check.Supported
import PipeLint.Proofs.Report.Grammar

/-!
# What reports tell about the rules

Two sets of rules give the same reports exactly if they agree on what a report can show: the choice
about a backslash at the end, and the ASCII letters and digits among the supported letters. Another
character never stands in a group of flags, so nobody can tell whether it is supported. These are
the characters that `PipeLint.Rules.withFlags?` refuses; rules that it makes are equal if their
reports are.

## Main results

* `PipeLint.Rules.report_congr`: rules that agree on letters and digits give the same reports.
* `PipeLint.Rules.isValid_report_group_iff` and `PipeLint.Rules.exists_trailingEscape_iff`: the
  reports that tell rules apart.
* `PipeLint.Rules.report_eq_iff_agree`: which rules give the same reports.
-/

namespace PipeLint.Rules

variable {r u w : Rules}

/-! ### Rules that agree -/

/-- Rules that agree on ASCII letters and digits, and on a backslash at the end, give the same
reports. -/
theorem report_congr (htrailing : u.trailingEscape = w.trailingEscape)
    (hflags : ∀ c, isFlagLetter c = true → (c ∈ u.flags ↔ c ∈ w.flags)) (t : Text) :
    u.report t = w.report t := by
  have hstage : u.findingsAt = w.findingsAt := by
    funext s
    rw [findingsAt, findingsAt, Text.stageFindings_congr hflags]
  have hend (p : Pipeline) : u.trailingFindings p = w.trailingFindings p := by
    simp only [trailingFindings, htrailing]
  rw [report, report, findings_eq, findings_eq, placedFindings, placedFindings, hstage, hend]

/-! ### Telling rules apart -/

section Group

variable {c : Char} (hc : isFlagLetter c = true)

include hc

theorem tokens_group : Text.tokens ['-', c] = [⟨.flags, ['-', c], 0⟩] := by
  have hfits : (Item.flags [c]).Fits [] := ⟨by simp, by simpa using hc, by simp⟩
  have htokens := hfits.tokensFrom_append 0
  rwa [Text.tokensFrom_nil, List.append_nil] at htokens

theorem stages_group : (Pipeline.ofText ['-', c]).stages = [⟨['-', c], 0⟩] := by
  have hblank := (isWordCharacter_iff.mp (isWordCharacter_of_isFlagLetter hc)).1
  have hpipe : '|' ∉ ['-', c] := by
    simp only [List.mem_cons, List.not_mem_nil, or_false, not_or]
    exact ⟨by decide, fun h => absurd (h ▸ hc) (by decide)⟩
  refine Pipeline.stages_of_trimmed (List.cons_ne_nil _ _) ⟨fun d hd => ?_, fun d hd => ?_⟩
    (Text.unsplit_of_notMem hpipe)
  · obtain rfl := Option.some.inj hd
    decide
  · obtain rfl := Option.some.inj hd
    exact hblank

/-- A group with one flag is a valid expression exactly if the flag is not supported. -/
theorem isValid_report_group_iff : (r.report ['-', c]).isValid = true ↔ c ∉ r.flags := by
  have hblank : ¬ Text.Blank ['-', c] := fun h => absurd (h '-' (by simp)) (by decide)
  have hopen : ¬ Token.IsOpen ⟨.flags, ['-', c], 0⟩ := fun h => by simpa using h.1
  rw [isValid_report_iff, stages_group hc]
  simp [Accepts, tokens_group hc, hblank, hopen, Token.isSearchable, Token.isPattern,
    Token.flagLetters]

end Group

/-- A backslash at the end is in the report exactly if it escapes nothing and the rules ask for
it. -/
theorem exists_trailingEscape_iff {t : Text} :
    (∃ e ∈ (r.report t).warnings, e.message = Issue.trailingEscape.message) ↔
      r.trailingEscape = true ∧ (Quoting.neutral.scan t).escaped = true := by
  have hentry : (∃ e ∈ (r.report t).warnings, e.message = Issue.trailingEscape.message) ↔
      ∃ f, f ∈ (r.findings t).filter (·.issue = .trailingEscape) := by
    have hmessage (f : Finding) : f.entry.message = Issue.trailingEscape.message ↔
        f.issue = .trailingEscape := by
      simp [Finding.entry, Issue.message_eq_iff]
    simp only [report, Report.warnings_ofFindings, List.mem_map, List.mem_filter,
      decide_eq_true_eq]
    constructor
    · rintro ⟨_, ⟨f, ⟨hf, -⟩, rfl⟩, he⟩
      exact ⟨f, hf, (hmessage f).mp he⟩
    · rintro ⟨f, hf, hissue⟩
      exact ⟨f.entry, ⟨f, ⟨hf, by rw [hissue]; rfl⟩, rfl⟩, (hmessage f).mpr hissue⟩
  rw [hentry, filter_trailingEscape_findings, trailingFindings_ofText]
  split
  · exact iff_of_true (by simp) (by assumption)
  · exact iff_of_false (by simp) (by assumption)

/-! ### Letters that are refused -/

theorem exists_withFlags?_eq_error_iff {c : Char} :
    (∃ letters, r.withFlags? letters = .error c) ↔ isFlagLetter c = false := by
  simp only [withFlags?, FlagSet.ofLetters?]
  constructor
  · rintro ⟨letters, h⟩
    split at h
    · rename_i d hd
      obtain rfl : d = c := by simpa [Except.map] using h
      simpa using List.find?_some hd
    · simp [Except.map] at h
  · intro hc
    exact ⟨[c], by simp [hc, Except.map]⟩

theorem withFlags?_eq_ok_iff {letters : Text} :
    r.withFlags? letters = .ok u ↔
      (∀ c ∈ letters, isFlagLetter c = true) ∧ u = r.withFlags letters := by
  simp only [withFlags?, FlagSet.ofLetters?]
  split
  · rename_i d hd
    have hnot := List.find?_some hd
    simp only [Except.map, reduceCtorEq, false_iff, not_and]
    intro hall
    simp [hall d (List.mem_of_find?_eq_some hd)] at hnot
  · rename_i hnone
    have hall : ∀ c ∈ letters, isFlagLetter c = true := by simpa using hnone
    rw [and_iff_right hall, eq_comm, Except.map, Except.ok.injEq]
    rfl

/-! ### Equal reports -/

/-- Rules with the same reports agree on what reports can show. -/
theorem agree_of_report_eq (h : ∀ t, u.report t = w.report t) :
    u.trailingEscape = w.trailingEscape ∧
      ∀ c, isFlagLetter c = true → (c ∈ u.flags ↔ c ∈ w.flags) := by
  constructor
  · have hback : (Quoting.neutral.scan ['\\']).escaped = true := rfl
    have hu := exists_trailingEscape_iff (r := u) (t := ['\\'])
    have hw := exists_trailingEscape_iff (r := w) (t := ['\\'])
    rw [h, hw, and_iff_left hback, and_iff_left hback] at hu
    exact (Bool.eq_iff_iff.mpr hu).symm
  · intro c hc
    have hu := isValid_report_group_iff (r := u) hc
    rw [h, isValid_report_group_iff hc] at hu
    exact (not_iff_not.mp hu).symm

/-- **What reports tell about the rules.** Rules give the same reports exactly if they agree on a
backslash at the end and on ASCII letters and digits. The other characters are those that are
refused, and supporting one of them makes no difference; supporting a letter or digit makes one,
unless it was supported before. Rules that are made without a refusal are equal if their reports
are. -/
theorem report_eq_iff_agree :
    (∀ u w : Rules, (∀ t, u.report t = w.report t) ↔
      u.trailingEscape = w.trailingEscape ∧
        ∀ c, isFlagLetter c = true → (c ∈ u.flags ↔ c ∈ w.flags)) ∧
    (∀ (r : Rules) (c : Char),
      ((∃ letters, r.withFlags? letters = .error c) ↔ isFlagLetter c = false) ∧
      ((∀ t, (r.allowFlag c).report t = r.report t) ↔ c ∈ r.flags ∨ isFlagLetter c = false)) ∧
    ∀ (r s u w : Rules) (k l : Text), r.withFlags? k = .ok u → s.withFlags? l = .ok w →
      (u = w ↔ ∀ t, u.report t = w.report t) := by
  have hagree (u w : Rules) : (∀ t, u.report t = w.report t) ↔
      u.trailingEscape = w.trailingEscape ∧
        ∀ c, isFlagLetter c = true → (c ∈ u.flags ↔ c ∈ w.flags) :=
    ⟨agree_of_report_eq, fun h => report_congr h.1 h.2⟩
  refine ⟨hagree, fun r c => ⟨exists_withFlags?_eq_error_iff, ?_⟩,
    fun r s u w k l hu hw => ⟨by rintro rfl t; rfl, fun h => ?_⟩⟩
  · rw [hagree]
    constructor
    · rintro ⟨-, h⟩
      cases hc : isFlagLetter c with
      | true => exact Or.inl ((h c hc).mp (FlagSet.mem_insert.mpr (Or.inl rfl)))
      | false => exact Or.inr rfl
    · refine fun h => ⟨rfl, fun d hd => FlagSet.mem_insert.trans (or_iff_right_of_imp ?_)⟩
      rintro rfl
      exact h.resolve_right (by simp [hd])
  · obtain ⟨hk, rfl⟩ := withFlags?_eq_ok_iff.mp hu
    obtain ⟨hl, rfl⟩ := withFlags?_eq_ok_iff.mp hw
    obtain ⟨htrailing, hflags⟩ := (hagree _ _).mp h
    have hsets : FlagSet.ofList k = FlagSet.ofList l := by
      ext c
      cases hc : isFlagLetter c with
      | true => exact hflags c hc
      | false =>
        -- a letter that is refused is in neither set
        have hnot {m : Text} (hm : ∀ d ∈ m, isFlagLetter d = true) : c ∉ FlagSet.ofList m :=
          fun hmem => by simp [hm c (FlagSet.mem_ofList.mp hmem)] at hc
        exact iff_of_false (hnot hk) (hnot hl)
    have hends : r.trailingEscape = s.trailingEscape := htrailing
    rw [withFlags, withFlags, hsets, hends]

/-- A letter with an accent is refused, and nobody can tell whether it is supported; and the order
in which letters are given makes no difference. -/
theorem report_eq_iff_agree_accent :
    (∃ letters, withFlags? {} letters = .error 'é') ∧
      (∀ t, (allowFlag {} 'é').report t = report {} t) ∧
      withFlags? {} "iv".toList = .ok (withFlags {} "iv".toList) ∧
      withFlags? {} "vi".toList = .ok (withFlags {} "vi".toList) ∧
      ∀ t, (withFlags {} "iv".toList).report t = (withFlags {} "vi".toList).report t := by
  obtain ⟨-, hallow, hmade⟩ := report_eq_iff_agree
  have hrefused : isFlagLetter 'é' = false := by decide
  have hiv : withFlags? {} "iv".toList = .ok (withFlags {} "iv".toList) := rfl
  have hvi : withFlags? {} "vi".toList = .ok (withFlags {} "vi".toList) := rfl
  exact ⟨(hallow {} 'é').1.mpr hrefused, (hallow {} 'é').2.mpr (Or.inr hrefused), hiv, hvi,
    (hmade {} {} _ _ _ _ hiv hvi).mp (by decide)⟩

end PipeLint.Rules
