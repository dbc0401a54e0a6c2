import PipeLint.Proofs.Pipeline.Join
import PipeLint.Proofs.Pipeline.Literal

/-!
# What stands between quotes

What stands between the quotes of a string is no business of a report. If the string starts where a
token can start, another text of the same length can be put between the quotes, and the report stays
the same: pipes in it separate nothing, dashes start no flags, and control characters are allowed.
The new text must not end the string or add escapes, and it must hold a `%` if the old one did,
since the pattern behind `LIKE` is searched for one.

## Main results

* `PipeLint.Rules.report_eq_of_alike`: expressions whose stages are alike have one report.
* `PipeLint.Rules.report_append_quoted_congr`: the text between the quotes of a string.
-/

namespace PipeLint.Rules

open Quoting

variable (r : Rules)

/-- Expressions whose stages are alike have one report, if they end in a backslash alike. -/
theorem report_eq_of_alike {s t : Text}
    (hstages : List.Forall₂ Stage.Alike (Pipeline.ofText s).stages (Pipeline.ofText t).stages)
    (hend : (Pipeline.ofText s).trailingEscape? = (Pipeline.ofText t).trailingEscape?) :
    r.report s = r.report t := by
  have hplaced : (Pipeline.ofText s).stages.flatMap r.findingsAt =
      (Pipeline.ofText t).stages.flatMap r.findingsAt := by
    rw [List.flatMap_def, List.flatMap_def, map_eq_of_forall₂ hstages fun u v huv => ?_]
    rw [findingsAt, findingsAt, huv.text.stageFindings_eq, huv.offset_eq]
  have hwide : pipelineFindings ((Pipeline.ofText s).stages.map (·.text)) =
      pipelineFindings ((Pipeline.ofText t).stages.map (·.text)) := by
    refine Text.pipelineFindings_eq_of_alike ?_
    rw [List.forall₂_map_left_iff, List.forall₂_map_right_iff]
    exact hstages.imp fun _ _ huv => huv.text
  have htrailing : r.trailingFindings (Pipeline.ofText s) =
      r.trailingFindings (Pipeline.ofText t) := by
    simp only [trailingFindings, hend]
  rw [report, report, findings_eq, findings_eq, placedFindings, placedFindings, hplaced, hwide,
    htrailing]

/-- **What stands between quotes is opaque.** If an expression goes on behind its last piece with a
string, the report does not depend on the text between the quotes. Nothing is open before the
string, and the last piece is blank, or it ends with white space and has no string that is not
closed. -/
theorem report_append_quoted_congr {front piece : Text} {quote : Char} {x y : Text}
    (hpiece : Pipeline.IsPiece front piece [])
    (hscan : neutral.scan (front ++ piece) = neutral)
    (hends : piece.Blank ∨ (∃ c, piece.getLast? = some c ∧ isBlank c = true) ∧
      ∀ k ∈ piece.tokens, ¬ k.IsOpen)
    (h : Text.Interchangeable quote x y) (back : Text) :
    r.report (front ++ piece ++ [quote] ++ x ++ [quote] ++ back) =
      r.report (front ++ piece ++ [quote] ++ y ++ [quote] ++ back) := by
  have hbetween : piece.EndsBetweenTokens := by
    rcases hends with hblank | ⟨⟨d, hd, hblank⟩, hclosed⟩
    · exact ⟨by simp [hblank.tokens_eq_nil], fun c hc => hblank c (List.mem_of_getLast? hc)⟩
    · exact ⟨hclosed, fun c hc => Option.some.inj (hd.symm.trans hc) ▸ hblank⟩
  have hassoc (z : Text) : front ++ piece ++ [quote] ++ z ++ [quote] ++ back =
      front ++ (piece ++ quote :: (z ++ [quote]) ++ back) := by
    simp
  have hopen {u v : Text} (h : Text.Interchangeable quote u v) :
      neutral.scan (front ++ (piece ++ quote :: (u ++ [quote]) ++ back)) = neutral.scan back := by
    rw [← List.append_assoc, ← List.append_assoc, scan_append, scan_append, hscan,
      Text.scan_quoted h.isQuote_quote h.quote_notMem.1 h.backslash_notMem.1]
  have hlength : Text.byteLength (front ++ (piece ++ quote :: (x ++ [quote]) ++ back)) =
      Text.byteLength (front ++ (piece ++ quote :: (y ++ [quote]) ++ back)) := by
    simp [h.byteLength_eq]
  rw [hassoc, hassoc]
  refine r.report_eq_of_alike (Pipeline.forall₂_alike_stages h hpiece hscan hbetween back) ?_
  rw [Pipeline.ofText, Pipeline.ofText, hopen h, hopen h.symm, hlength]

/-- A pipe, the other quote and a tabulator between quotes are as good as a dash and a letter. -/
theorem report_append_quoted_congr_pipe :
    Pipeline.IsPiece "é|".toList " grep -i ".toList [] ∧
      Text.Interchangeable '"' "|'\t%".toList "% -v".toList ∧
      ({} : Rules).report "é| grep -i \"|'\t%\" | c -i".toList =
        ({} : Rules).report "é| grep -i \"% -v\" | c -i".toList := by
  have hpipe : '|' ∉ " grep -i ".toList := by decide
  have hpiece : Pipeline.IsPiece "é|".toList " grep -i ".toList [] :=
    ⟨Or.inr ⟨"é".toList, rfl, by decide⟩, fun a b h => absurd (by simp [h]) hpipe, Or.inl rfl⟩
  have hsame : Text.Interchangeable '"' "|'\t%".toList "% -v".toList :=
    ⟨by decide, by decide, by decide, by decide, by decide⟩
  exact ⟨hpiece, hsame, report_append_quoted_congr {} hpiece (by decide)
    (Or.inr ⟨⟨' ', by decide, by decide⟩, by decide +kernel⟩) hsame " | c -i".toList⟩

end PipeLint.Rules
