import PipeLint.Proofs.Pipeline.Join
import PipeLint.Proofs.Token.Quoted

/-!
# Where findings point

The span of every finding covers a part of the expression, and the part is what the wording of the
fault speaks of: a letter, an escape, a token, a stage. Only the findings on the pipeline as a whole
point at nothing. Two faults are never found, since the tokens that a text is cut into cannot have
them: a group of flags without its dash, and one without letters.

## Main definitions

* `PipeLint.Rules.Names`: what a fault says about the part of the expression that it is found at.
* `PipeLint.Rules.Points`: a finding covers a part of the expression that is what it says.

## Main results

* `PipeLint.Rules.points_of_mem_findingsAt`: every finding on a stage points at what it names.
* `PipeLint.Rules.names_of_mem_entries_report`: so does every entry of a report.
-/

namespace PipeLint

/-! ### Escapes and their surroundings -/

theorem isHexDigit_of_isQuote {c : Char} (h : isQuote c = true) : isHexDigit c = false := by
  rcases isQuote_eq_true_iff.mp h with rfl | rfl <;> decide

/-- The quote that closes a string makes no difference to the escapes before it. -/
theorem isEscape_append_quote {quote : Char} (hquote : isQuote quote = true) (c : Char)
    (rest behind : Text) : isEscape c (rest ++ quote :: behind) = isEscape c rest := by
  cases rest with
  | nil => simp [isEscape, isHexDigit_of_isQuote hquote]
  | cons d rest => rfl

theorem Text.EndsEscaped.exists_eq_append {t : Text} (h : t.EndsEscaped) :
    ∃ front, t = front ++ ['\\'] := by
  rcases List.eq_nil_or_concat t with rfl | ⟨front, c, rfl⟩
  · simp [EndsEscaped, trailingBackslashes] at h
  · rw [List.concat_eq_append] at h ⊢
    rw [EndsEscaped, Quoting.trailingBackslashes_concat] at h
    split at h
    · rename_i hc
      exact ⟨front, by rw [hc]⟩
    · simp at h

namespace Token

theorem notMem_text_of_isLike {k : Token} (h : k.isLike = true) : '%' ∉ k.text := by
  intro hmem
  have hlower : lowerLetter '%' ∈ k.text.map lowerLetter := List.mem_map_of_mem hmem
  rw [of_decide_eq_true h] at hlower
  exact absurd hlower (by decide)

end Token

namespace Rules

/-! ### What findings name -/

/-- What a fault says about the part of an expression that its span covers. What is said to run to
the end of its stage is given by a stage and what stands before it there. -/
def Names (r : Rules) (t : Text) (span : Span) (part : Text) : Issue → Prop
  | .missingDash | .emptyFlags => False
  | .unsupportedFlag c => part = [c] ∧ isFlagLetter c = true ∧ c ∉ r.flags
  | .malformedString =>
    (∃ quote, part = [quote] ∧ isQuote quote = true) ∧
      ∃ s ∈ (Pipeline.ofText t).stages, ∃ front, s.text = front ++ part ∧
        span.start = s.offset + front.byteLength
  | .openQuote quote =>
    isQuote quote = true ∧ part.head? = some quote ∧
      ∃ s ∈ (Pipeline.ofText t).stages, ∃ front, s.text = front ++ part ∧
        span.start = s.offset + front.byteLength
  | .invalidEscape =>
    ∃ c, part = ['\\', c] ∧ ∃ front back, t = front ++ part ++ back ∧
      front.byteLength = span.start ∧ isEscape c back = false
  | .strayCharacter => ∃ c, part = [c] ∧ isControl c = true ∧ isBlank c = false
  | .missingPattern => part ≠ [] ∧ ⟨part, span.start⟩ ∈ (Pipeline.ofText t).stages
  | .likeWithoutWildcard =>
    '%' ∉ part ∧ ∃ s ∈ (Pipeline.ofText t).stages, ∃ k ∈ s.text.tokens,
      k.isPattern = true ∧ k.text = part ∧ span = k.span.shift s.offset
  | .trailingEscape => part = ['\\'] ∧ span.stop = t.byteLength
  | .negatedFinalStage | .repeatedIgnoreCase => span = ⟨0, 0⟩

/-- A finding points at what it names when its span covers a part of the expression that is what
the fault says. -/
def Points (r : Rules) (t : Text) (f : Finding) : Prop :=
  ∃ part, t.HasPartAt part f.span.start ∧ part.byteLength = f.span.length ∧
    r.Names t f.span part f.issue

/-! ### Findings on a stage -/

section Stage

variable {r : Rules} {t : Text} {s : Stage} (hs : s ∈ (Pipeline.ofText t).stages)

include hs

theorem hasPartAt_stage_part {part : Text} {n : Nat} (h : s.text.HasPartAt part n) :
    t.HasPartAt part (n + s.offset) := by
  rw [Nat.add_comm]
  exact (Pipeline.hasPartAt_of_mem_stages s hs).trans h

variable {k : Token} (hk : k ∈ s.text.tokens)

include hk

theorem hasPartAt_token : t.HasPartAt k.text (k.span.shift s.offset).start :=
  hasPartAt_stage_part hs (Text.hasPartAt_of_mem_tokens hk)

theorem points_of_mem_flagFindings (hkind : k.kind = .flags) {f : Finding}
    (hf : f ∈ k.flagFindings r.flags) : r.Points t (f.shift s.offset) := by
  obtain ⟨letters, htext, hne, hletters⟩ := Text.exists_of_kind_eq_flags hk hkind
  have hdash : k.flagFindings r.flags = Token.letterFindings r.flags (k.offset + 1) letters := by
    cases letters with
    | nil => exact absurd rfl hne
    | cons c letters => simp [Token.flagFindings, htext]
  rw [hdash] at hf
  obtain ⟨front, c, back, rfl, hc, rfl⟩ := Token.mem_letterFindings_iff.mp hf
  have hpart : k.text.HasPartAt [c] (1 + Text.byteLength front) :=
    ⟨'-' :: front, back, by simp [htext], by simp [show '-'.utf8Size = 1 from rfl]⟩
  refine ⟨[c], ?_, by simp, rfl, hletters c (by simp), hc⟩
  have hplace := hasPartAt_stage_part hs ((Text.hasPartAt_of_mem_tokens hk).trans hpart)
  simpa [Nat.add_assoc] using hplace

theorem points_of_mem_quotedFindings (hkind : k.kind = .quoted) {f : Finding}
    (hf : f ∈ k.quotedFindings) : r.Points t (f.shift s.offset) := by
  obtain ⟨front, quote, hquote, hoffset,
    ⟨inner, back, hstage, htext, -, hinner⟩ | ⟨body, hstage, htext, -, hnone⟩⟩ :=
    Text.cases_of_kind_eq_quoted hk hkind
  · -- a closed string can only have a backslash in its interior
    rw [Token.quotedFindings_of_closed htext hinner] at hf
    obtain ⟨front', c, rest, rfl, hc, rfl⟩ := Text.exists_of_mem_invalidEscapes hf
    obtain ⟨before, after, ht, hbefore⟩ := Pipeline.hasPartAt_of_mem_stages s hs
    have hcut : t = before ++ front ++ quote :: front' ++ ['\\', c] ++
        (rest ++ quote :: (back ++ after)) := by
      rw [ht, hstage, htext]
      simp
    have hstart : Text.byteLength (before ++ front ++ quote :: front') =
        k.offset + 1 + Text.byteLength front' + s.offset := by
      simp only [Text.byteLength_append, Text.byteLength_cons, hbefore, hoffset,
        utf8Size_of_isQuote hquote]
      omega
    refine ⟨['\\', c], ⟨_, _, hcut, hstart⟩, ?_, c, rfl, _, _, hcut, hstart, ?_⟩
    · simp [show '\\'.utf8Size = 1 from rfl]
    · rw [isEscape_append_quote hquote, hc]
  · -- an open string is reported as a whole
    rw [Token.quotedFindings_of_open hquote htext hnone] at hf
    obtain rfl := List.mem_singleton.mp hf
    have hend : ∃ s' ∈ (Pipeline.ofText t).stages, ∃ front, s'.text = front ++ k.text ∧
        (k.span.shift s.offset).start = s'.offset + Text.byteLength front := by
      refine ⟨s, hs, front, hstage, ?_⟩
      rw [Span.start_shift, Nat.add_comm, hoffset]
      rfl
    refine ⟨k.text, hasPartAt_token hs hk, rfl, ?_⟩
    simp only [Finding.issue_shift, Finding.span_shift]
    split
    · rename_i hbody
      exact ⟨⟨quote, by rw [htext, hbody], hquote⟩, hend⟩
    · exact ⟨hquote, by rw [htext]; rfl, hend⟩

theorem points_of_mem_wordFindings (hkind : k.kind = .word) {next? : Option Token}
    (hnext : ∀ n, next? = some n → n ∈ s.text.tokens) {f : Finding}
    (hf : f ∈ k.wordFindings next?) : r.Points t (f.shift s.offset) := by
  have hpoints {n : Token} (hn : n ∈ s.text.tokens) (hpattern : n.isPattern = true)
      (hwild : '%' ∉ n.text) :
      r.Points t (⟨.likeWithoutWildcard, n.span.shift s.offset⟩ : Finding) :=
    ⟨n.text, hasPartAt_token hs hn, rfl, hwild, s, hs, n, hn, hpattern, rfl, rfl⟩
  rw [Token.wordFindings] at hf
  split at hf
  · rename_i hlike
    split at hf
    · obtain rfl := List.mem_singleton.mp hf
      exact hpoints hk (by simp [Token.isPattern, hkind]) (Token.notMem_text_of_isLike hlike)
    · rename_i n hn
      obtain ⟨hn, hpattern⟩ := Option.filter_eq_some_iff.mp hn
      split at hf
      · simp at hf
      · rename_i hwild
        obtain rfl := List.mem_singleton.mp hf
        exact hpoints (hnext n hn) hpattern hwild
  · simp at hf

theorem points_of_mem_token_findings {next? : Option Token}
    (hnext : ∀ n, next? = some n → n ∈ s.text.tokens) {f : Finding}
    (hf : f ∈ k.findings r.flags next?) : r.Points t (f.shift s.offset) := by
  cases hkind : k.kind with
  | command => simp [Token.findings, hkind] at hf
  | flags =>
    exact points_of_mem_flagFindings hs hk hkind (by simpa [Token.findings, hkind] using hf)
  | quoted =>
    exact points_of_mem_quotedFindings hs hk hkind (by simpa [Token.findings, hkind] using hf)
  | word =>
    exact points_of_mem_wordFindings hs hk hkind hnext (by simpa [Token.findings, hkind] using hf)
  | stray =>
    obtain rfl : f = ⟨.strayCharacter, k.span⟩ := by simpa [Token.findings, hkind] using hf
    obtain ⟨c, htext, hc⟩ := Text.exists_of_kind_eq_stray hk hkind
    exact ⟨k.text, hasPartAt_token hs hk, rfl, c, htext, by simpa [isStray] using hc⟩

omit hk

/-- Every finding on a stage points at what it names. -/
theorem points_of_mem_findingsAt {f : Finding} (hf : f ∈ r.findingsAt s) : r.Points t f := by
  obtain ⟨g, hg, rfl⟩ := List.mem_map.mp hf
  obtain ⟨hblank, hg | ⟨-, rfl⟩⟩ := mem_stageFindings_iff.mp hg
  · obtain ⟨front, k, back, htokens, hg⟩ := mem_tokenFindings_iff.mp hg
    have hk : k ∈ s.text.tokens := by simp [htokens]
    refine points_of_mem_token_findings hs hk (fun n hn => ?_) hg
    obtain ⟨back, rfl⟩ := List.head?_eq_some_iff.mp hn
    simp [htokens]
  · -- a stage with nothing to search for is reported as a whole
    have hplace := Pipeline.hasPartAt_of_mem_stages s hs
    refine ⟨s.text, by simpa using hplace, rfl, ?_, by simpa using hs⟩
    rintro hnil
    exact hblank (by simp [hnil])

end Stage

/-! ### Findings on an expression -/

theorem points_of_mem_trailingFindings {r : Rules} {t : Text} {f : Finding}
    (hf : f ∈ r.trailingFindings (Pipeline.ofText t)) : r.Points t f := by
  obtain ⟨hescaped, rfl⟩ := r.mem_trailingFindings hf
  obtain ⟨front, rfl⟩ := ((Quoting.escaped_scan_iff rfl t).mp hescaped).exists_eq_append
  have hlength : Text.byteLength (front ++ ['\\']) = front.byteLength + 1 :=
    Text.byteLength_append front ['\\']
  refine ⟨['\\'], ⟨front, [], by simp, ?_⟩, rfl, rfl, ?_⟩
  · simp only [hlength, Nat.add_sub_cancel]
  · simp only [Span.stop, hlength, Nat.add_sub_cancel]

theorem points_of_mem_pipelineFindings {r : Rules} {t : Text} {stages : List Text} {f : Finding}
    (hf : f ∈ pipelineFindings stages) : r.Points t f := by
  have hnothing : t.HasPartAt [] 0 := ⟨[], t, rfl, rfl⟩
  rcases List.mem_append.mp hf with hf | hf
  all_goals
    split at hf
    · obtain rfl := List.mem_singleton.mp hf
      exact ⟨[], hnothing, rfl, rfl⟩
    · simp at hf

theorem points_of_mem_findings {r : Rules} {t : Text} {f : Finding} (hf : f ∈ r.findings t) :
    r.Points t f := by
  rw [findings_eq] at hf
  rcases List.mem_append.mp hf with hf | hf
  · rcases List.mem_append.mp hf with hf | hf
    · obtain ⟨s, hs, hf⟩ := List.mem_flatMap.mp hf
      exact points_of_mem_findingsAt hs hf
    · exact points_of_mem_trailingFindings hf
  · exact points_of_mem_pipelineFindings hf

/-- **Entries point at what they name.** The span of an entry of a report stays within the
expression and covers a part of it; and the part is what the fault says that the entry is worded
for. -/
theorem names_of_mem_entries_report (r : Rules) (t : Text) :
    ∀ e ∈ (r.report t).entries, e.span.stop ≤ t.byteLength ∧
      ∃ part issue, t.slice? e.span.start e.span.stop = some part ∧
        e.message = issue.message ∧ e.severity = issue.severity ∧
        r.Names t e.span part issue := by
  intro e he
  obtain ⟨f, hf, rfl⟩ : ∃ f ∈ r.findings t, f.entry = e := by
    simp only [report, Report.entries, Report.ofFindings, Report.ofEntries, List.mem_append,
      List.mem_filter, List.mem_map] at he
    rcases he with ⟨hf, -⟩ | ⟨hf, -⟩ <;> exact hf
  obtain ⟨part, hpart, hlength, hnames⟩ := points_of_mem_findings hf
  have hstop : f.entry.span.stop = f.span.start + part.byteLength := by
    rw [hlength]
    rfl
  rw [hstop]
  exact ⟨hpart.add_byteLength_le, part, f.issue, Text.hasPartAt_iff_slice?.mp hpart, rfl, rfl,
    hnames⟩

/-- The string that is left open behind a letter of two bytes is pointed at in bytes. -/
theorem names_of_mem_entries_report_open_string :
    (⟨"unterminated single quote".toList, ⟨5, 2⟩, .error⟩ : Entry) ∈
        (({} : Rules).report "é | 'b".toList).entries ∧
      ∃ part issue, Text.slice? "é | 'b".toList 5 7 = some part ∧
        "unterminated single quote".toList = issue.message ∧
        Names {} "é | 'b".toList ⟨5, 2⟩ part issue := by
  refine ⟨by decide +kernel, ?_⟩
  obtain ⟨-, part, issue, hpart, hmessage, -, hnames⟩ :=
    names_of_mem_entries_report {} "é | 'b".toList
      ⟨"unterminated single quote".toList, ⟨5, 2⟩, .error⟩ (by decide +kernel)
  exact ⟨part, issue, hpart, hmessage, hnames⟩

end Rules

end PipeLint
