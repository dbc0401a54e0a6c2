import PipeLint.Proofs.Grammar.Written
import PipeLint.Proofs.Pipeline.Join

/-!
# Well-formed expressions are valid

An expression that is written stage by stage, each stage with a pattern and nothing that could be
misread, is cut into the stages that were written, and it is valid. What it can be warned about are
letters that are not supported, a `LIKE` pattern without `%`, and flags that are questionable only
because of where they stand among the stages.

## Main definitions

* `PipeLint.WrittenStage.joined`: written stages with a pipe between neighbours.

## Main results

* `PipeLint.WrittenStage.cases_of_mem_stageFindings`: what a written stage is warned about.
* `PipeLint.Rules.report_joined`: the stages and the report of a well-formed expression.
-/

namespace PipeLint

open Quoting

/-! ### Findings on a written stage -/

namespace WrittenStage

variable (s : WrittenStage) {flags : FlagSet} {f : Finding}

theorem cases_of_mem_items {i : Item} (h : i ∈ s.items) : i.LeadsUp ∨ i.IsPlainPattern := by
  rcases List.mem_append.mp h with h | h
  · obtain ⟨heading, -, rfl⟩ := List.mem_map.mp h
    exact Or.inl heading.leadsUp
  · rw [List.mem_singleton.mp h]
    exact Or.inr s.isPlainPattern

/-- The tokens of a stage have warnings about letters that are not supported, and about `LIKE`. -/
theorem cases_of_mem_token_findings {k : Token} (hk : k ∈ s.text.tokens) {next? : Option Token}
    (hf : f ∈ k.findings flags next?) :
    (∃ c, f.issue = .unsupportedFlag c) ∨ f.issue = .likeWithoutWildcard := by
  obtain ⟨i, hi, hkind, htext⟩ := s.readsAs.exists_item_of_mem_tokens hk
  have hitem := s.cases_of_mem_items hi
  obtain ⟨kind, text, offset⟩ := k
  obtain rfl : i.kind = kind := hkind
  obtain rfl : i.text = text := htext
  cases i with
  | command name => exact absurd hf List.not_mem_nil
  | flags letters =>
    obtain ⟨hne, -⟩ := hitem.resolve_right id
    obtain ⟨c, letters, rfl⟩ := List.exists_cons_of_ne_nil hne
    obtain ⟨_, d, _, _, _, rfl⟩ := Token.mem_letterFindings_iff.mp hf
    exact Or.inl ⟨d, rfl⟩
  | quoted quote body =>
    obtain ⟨hquote, hbody, hback⟩ := hitem.resolve_left id
    rw [Token.findings] at hf
    exact absurd (Text.quotedFindings_eq_nil hquote hbody hback offset ▸ hf) List.not_mem_nil
  | word text => exact Or.inr (Token.issue_of_mem_wordFindings hf)

/-- A stage has something to search for, so its tokens are all that it can be warned about. -/
theorem cases_of_mem_stageFindings (hf : f ∈ stageFindings flags s.text s.text.tokens) :
    (∃ c, f.issue = .unsupportedFlag c) ∨ f.issue = .likeWithoutWildcard := by
  obtain ⟨-, hf | ⟨hnone, -⟩⟩ := mem_stageFindings_iff.mp hf
  · obtain ⟨front, k, back, htokens, hf⟩ := mem_tokenFindings_iff.mp hf
    exact s.cases_of_mem_token_findings (by simp [htokens]) hf
  · have hpattern : s.pattern ∈ s.items := List.mem_append_right _ (List.mem_singleton_self _)
    obtain ⟨k, hk, hkind, htext⟩ := s.readsAs.exists_token_of_mem hpattern
    have hsearch := (Item.isSearchable_iff hkind htext flags).mpr
      (s.isPlainPattern.isSearchable flags)
    simp [hnone k hk] at hsearch

/-! ### Joined stages -/

/-- Stages written one after the other, with a pipe between neighbours. -/
def joined (stages : List WrittenStage) : Text :=
  ['|'].intercalate (stages.map spelled)

theorem joined_eq (stages : List WrittenStage) :
    joined stages = PaddedStage.joined (stages.map toPadded) := by
  rw [joined, PaddedStage.joined, List.map_map]
  rfl

theorem scan_joined (stages : List WrittenStage) : neutral.scan (joined stages) = neutral := by
  rw [joined_eq]
  refine PaddedStage.scan_joined (List.forall_mem_map.mpr fun s _ => ?_)
  exact s.scan_text

theorem stages_joined_eq {stages : List WrittenStage} (hne : stages ≠ []) :
    (Pipeline.ofText (joined stages)).stages = PaddedStage.placed (stages.map toPadded) := by
  obtain ⟨init, last, rfl⟩ := (List.eq_nil_or_concat stages).resolve_left hne
  rw [joined_eq, List.concat_eq_append, List.map_append, List.map_singleton]
  exact PaddedStage.stages_joined_eq (List.forall_mem_map.mpr fun s _ => s.scan_text)
    last.text_ne_nil

end WrittenStage

/-! ### Reports -/

namespace Rules

open WrittenStage

variable (r : Rules) {stages : List WrittenStage} (hne : stages ≠ [])

include hne

theorem cases_of_mem_findings_joined {f : Finding} (hf : f ∈ r.findings (joined stages)) :
    (∃ c, f.issue = .unsupportedFlag c) ∨ f.issue = .likeWithoutWildcard ∨
      f.issue.isPipelineWide = true := by
  rw [findings_eq, placedFindings, List.mem_append, List.mem_append] at hf
  rcases hf with (hf | hf) | hf
  · obtain ⟨u, hu, hf⟩ := List.mem_flatMap.mp hf
    obtain ⟨g, hg, rfl⟩ := List.mem_map.mp hf
    have htext : u.text ∈ stages.map WrittenStage.text := by
      have hmem := List.mem_map_of_mem (f := Stage.text) hu
      rwa [stages_joined_eq hne, PaddedStage.map_text_placed, List.map_map] at hmem
    obtain ⟨s, -, hs⟩ := List.mem_map.mp htext
    rw [← hs] at hg
    exact (s.cases_of_mem_stageFindings hg).imp_right Or.inl
  · obtain ⟨hescaped, -⟩ := r.mem_trailingFindings hf
    rw [scan_joined] at hescaped
    exact absurd hescaped (by decide)
  · exact Or.inr (Or.inr (severity_of_mem_pipelineFindings hf).2)

/-- **Well-formed expressions are valid.** An expression that is joined from written stages has
exactly these stages, each at the place of its text, and no backslash at the end. No errors are
reported, so it is valid, and each warning is about a letter that is not supported, about a `LIKE`
pattern, or about the pipeline as a whole. -/
theorem report_joined :
    ((Pipeline.ofText (joined stages)).stages.map Stage.text = stages.map WrittenStage.text ∧
      ∀ front s back, stages = front ++ s :: back →
        (Pipeline.ofText (joined stages)).stages[front.length]? =
          some ⟨s.text, Text.byteLength (front.flatMap (·.spelled ++ ['|']) ++ s.left)⟩) ∧
      (Pipeline.ofText (joined stages)).trailingEscape? = none ∧
      (r.report (joined stages)).errors = [] ∧ (r.report (joined stages)).isValid = true ∧
      ∀ e ∈ (r.report (joined stages)).warnings,
        (∃ c, e.message = (Issue.unsupportedFlag c).message) ∨
          e.message = Issue.likeWithoutWildcard.message ∨ e.isPipelineWide = true := by
  have hwarning : ∀ f ∈ r.findings (joined stages), f.issue.severity = .warning := by
    intro f hf
    rcases r.cases_of_mem_findings_joined hne hf with ⟨c, h⟩ | h | h
    · rw [h]
      rfl
    · rw [h]
      rfl
    · exact Issue.severity_of_isPipelineWide h
  have herrors : (r.report (joined stages)).errors = [] := by
    rw [report, Report.errors_ofFindings, List.map_eq_nil_iff, List.filter_eq_nil_iff]
    intro f hf
    simp [hwarning f hf]
  have hend : (Pipeline.ofText (joined stages)).trailingEscape? = none := by
    rw [Pipeline.ofText, scan_joined]
    rfl
  refine ⟨⟨?_, fun front s back heq => ?_⟩, hend, herrors,
    (Report.isValid_ofFindings_iff _).mpr herrors, fun e he => ?_⟩
  · rw [stages_joined_eq hne, PaddedStage.map_text_placed, List.map_map]
    rfl
  · have hplaced := PaddedStage.getElem?_placed (front.map toPadded) s.toPadded (back.map toPadded)
    have hlead : s.toPadded.lead = s.left := if_neg s.text_ne_nil
    rw [List.length_map, hlead, PaddedStage.leading, List.flatMap_map] at hplaced
    rw [stages_joined_eq hne, heq, List.map_append, List.map_cons]
    exact hplaced
  · rw [report, Report.warnings_ofFindings] at he
    obtain ⟨f, hf, rfl⟩ := List.mem_map.mp he
    rcases r.cases_of_mem_findings_joined hne (List.mem_filter.mp hf).1 with ⟨c, h⟩ | h | h
    · exact Or.inl ⟨c, by rw [Finding.entry, h]⟩
    · exact Or.inr (Or.inl (by rw [Finding.entry, h]))
    · exact Or.inr (Or.inr (f.isPipelineWide_entry.trans h))

omit hne in
/-- A command with flags and a quoted pipe, and a word that is an operator without its pattern. -/
theorem report_joined_like :
    ∃ stages : List WrittenStage, stages ≠ [] ∧
      joined stages = " grep -iv\t'a|\"b' |like\u00A0".toList ∧
      (Pipeline.ofText " grep -iv\t'a|\"b' |like\u00A0".toList).stages.map Stage.text =
        ["grep -iv\t'a|\"b'".toList, "like".toList] ∧
      (({} : Rules).report " grep -iv\t'a|\"b' |like\u00A0".toList).isValid = true := by
  let command : Heading :=
    ⟨.command "grep".toList, " ".toList, (by decide : "grep".toList ∈ commandNames), by decide,
      by decide⟩
  let group : Heading :=
    ⟨.flags "iv".toList, "\t".toList, ⟨by decide, List.all_eq_true.mp (by decide)⟩, by decide,
      by decide⟩
  let first : WrittenStage :=
    ⟨" ".toList, command, [group], .quoted '\'' "a|\"b".toList, " ".toList, by decide, by decide,
      fun _ h => Option.some.inj h ▸ rfl, List.forall_mem_singleton.mpr rfl,
      ⟨by decide, by decide, by decide⟩⟩
  have hword : ∀ c ∈ "like".toList, isBlank c = false ∧ isControl c = false ∧ isQuote c = false ∧
      c ≠ '\\' ∧ c ≠ '|' := by
    intro c hc
    have hletter : c = 'l' ∨ c = 'i' ∨ c = 'k' ∨ c = 'e' := by simpa using hc
    rcases hletter with rfl | rfl | rfl | rfl <;> decide
  let last : WrittenStage :=
    ⟨[], none, [], .word "like".toList, "\u00A0".toList, by decide, by decide, nofun, nofun,
      ⟨⟨by decide, hword⟩, by decide, by decide⟩⟩
  have hne : [first, last] ≠ [] := List.cons_ne_nil first [last]
  obtain ⟨⟨hstages, -⟩, -, -, hvalid, -⟩ := report_joined {} hne
  exact ⟨[first, last], hne, rfl, hstages, hvalid⟩

end Rules

end PipeLint
