import Mathlib.Algebra.Group.Nat.Defs
import PipeLint.Report.Render
import PipeLint.Proofs.Bytes.Quoted
import PipeLint.Proofs.Bytes.Stages
import PipeLint.Proofs.Bytes.Tokens
import PipeLint.Proofs.List.MapM
import PipeLint.Proofs.Pipeline.Join
import PipeLint.Proofs.Pipeline.Pieces

/-!
# Reports made and shown without a failure

An expression is cut into stages, each stage into tokens, each token is checked, and the report is
shown with carets under the expression. Here all of this is done with operations that can fail, and
a failure of any of them leaves the whole without a value. The tokens of a stage are given, and need
not be its tokens; nor need the spans of a report fit the expression that it is shown with. There is
always a value, and it is the report that the rules give, and the text that the report is shown as.

Showing a report counts bytes, by 64-bit numbers, and makes rows of spaces and carets, of less than
`2 ^ 63` of them; so what it needs is that each span ends before that.

## Main definitions

* `PipeLint.stageFindings?`: what is wrong with a stage.
* `PipeLint.Rules.report?`: the report on an expression.
* `PipeLint.Report.render?`: the report for people.

## Main results

* `PipeLint.stageFindings?_eq`: a check on a stage does not fail, whatever its tokens are.
* `PipeLint.Rules.report?_eq`: a check on an expression does not fail.
* `PipeLint.Report.render?_eq`: nor does showing a report.
* `PipeLint.no_operation_fails`: all of these, with the cuts into stages and tokens.
-/

namespace PipeLint

/-! ### Checks on a stage -/

/-- What is wrong with a token, given the token after it. -/
def Token.findings? (flags : FlagSet) (k : Token) (next? : Option Token) :
    Option (List Finding) :=
  if k.kind = .quoted then k.quotedFindings? else some (k.findings flags next?)

/-- What is wrong with the tokens of a stage, one after the other. -/
def tokenFindings? (flags : FlagSet) : List Token → Option (List Finding)
  | [] => some []
  | k :: tokens => do
    let found ← k.findings? flags tokens.head?
    return found ++ (← tokenFindings? flags tokens)

/-- What is wrong with a stage, at offsets relative to its text. -/
def stageFindings? (flags : FlagSet) (stage : Text) (tokens : List Token) :
    Option (List Finding) :=
  if stage.Blank then
    some []
  else do
    let found ← tokenFindings? flags tokens
    if tokens.any (·.isSearchable flags) then
      return found
    else
      return found ++ [⟨.missingPattern, ⟨0, stage.byteLength⟩⟩]

theorem Token.findings?_eq (flags : FlagSet) (k : Token) (next? : Option Token) :
    k.findings? flags next? = some (k.findings flags next?) := by
  rw [findings?]
  split
  · rename_i hkind
    rw [k.quotedFindings?_eq, findings, hkind]
  · rfl

theorem tokenFindings?_eq (flags : FlagSet) (tokens : List Token) :
    tokenFindings? flags tokens = some (tokenFindings flags tokens) := by
  induction tokens with
  | nil => rfl
  | cons k tokens ih =>
    rw [tokenFindings?, k.findings?_eq, ih]
    rfl

/-- **A check on a stage does not fail**, whatever its tokens are. -/
theorem stageFindings?_eq (flags : FlagSet) (stage : Text) (tokens : List Token) :
    stageFindings? flags stage tokens = some (stageFindings flags stage tokens) := by
  rw [stageFindings?, stageFindings, tokenFindings?_eq]
  split
  · rfl
  split <;> rfl

/-! ### Checks on an expression -/

/-- Whether a stage has a group of flags with a letter in it. -/
def usesFlag? (letter : Char) (stage : Text) : Option Bool := do
  return (← stage.tokens?).any (letter ∈ ·.flagLetters)

/-- What is wrong with a row of stages, given by their texts. -/
def pipelineFindings? (stages : List Text) : Option (List Finding) := do
  let negated ← match stages.getLast? with
    | some last => usesFlag? 'v' last
    | none => some false
  let ignoring ← stages.mapM (usesFlag? 'i')
  return (if negated then [⟨.negatedFinalStage, ⟨0, 0⟩⟩] else []) ++
    (if 1 < ignoring.count true then [⟨.repeatedIgnoreCase, ⟨0, 0⟩⟩] else [])

namespace Rules

/-- The faults of one stage of an expression, at their places in the expression. -/
def findingsAt? (r : Rules) (stage : Stage) : Option (List Finding) := do
  let found ← stageFindings? r.flags stage.text (← stage.text.tokens?)
  return found.map (·.shift stage.offset)

/-- The report on an expression. A blank one is not looked into. -/
def report? (r : Rules) (t : Text) : Option Report :=
  if t.Blank then
    some .clean
  else do
    let p ← Pipeline.ofText? t
    let placed ← p.stages.mapM r.findingsAt?
    let wide ← pipelineFindings? (p.stages.map (·.text))
    return .ofFindings (placed.flatten ++ r.trailingFindings p ++ wide)

end Rules

theorem usesFlag?_eq (letter : Char) (stage : Text) :
    usesFlag? letter stage = some (usesFlag letter stage) := by
  rw [usesFlag?, stage.tokens?_eq]
  rfl

theorem pipelineFindings?_eq (stages : List Text) :
    pipelineFindings? stages = some (pipelineFindings stages) := by
  have hignoring := mapM_eq_some_map (l := stages) fun s _ => usesFlag?_eq 'i' s
  have hcount : (stages.map (usesFlag 'i')).count true = stages.countP (usesFlag 'i') := by
    simp [List.count, List.countP_map, Function.comp_def]
  rw [pipelineFindings?, pipelineFindings, hignoring]
  cases stages.getLast? <;> simp [usesFlag?_eq, hcount]

namespace Rules

theorem findingsAt?_eq (r : Rules) (stage : Stage) :
    r.findingsAt? stage = some (r.findingsAt stage) := by
  rw [findingsAt?, stage.text.tokens?_eq]
  simp [stageFindings?_eq, findingsAt]

theorem findings_of_blank (r : Rules) {t : Text} (h : t.Blank) : r.findings t = [] := by
  have hpipe : '|' ∉ t := fun hmem => absurd (h _ hmem) (by decide)
  have hstages : (Pipeline.ofText t).stages = [] := by
    rw [Pipeline.stages_of_segments_eq (Text.unsplit_iff.mp (Text.unsplit_of_notMem hpipe)),
      if_pos h]
  have htrailing : r.trailingFindings (Pipeline.ofText t) = [] :=
    r.trailingFindings_of_not_escaped (by rw [h.scan_neutral])
  rw [findings, hstages, htrailing]
  rfl

/-- **A check on an expression does not fail.** -/
theorem report?_eq (r : Rules) (t : Text) : r.report? t = some (r.report t) := by
  rw [report?]
  by_cases hblank : t.Blank
  · rw [if_pos hblank, report, r.findings_of_blank hblank]
    rfl
  · rw [if_neg hblank, Pipeline.ofText?_eq]
    have hplaced := mapM_eq_some_map (l := (Pipeline.ofText t).stages) fun s _ =>
      r.findingsAt?_eq s
    simp [hplaced, pipelineFindings?_eq, report, findings, List.flatMap]

end Rules

/-! ### Reports for people -/

/-- The sum of two offsets, unless it is too large for a 64-bit number. -/
def sum? (m n : Nat) : Option Nat :=
  if m + n < 2 ^ 64 then some (m + n) else none

/-- A character repeated a number of times, unless this makes more bytes than a text can have. -/
def repeated? (c : Char) (n : Nat) : Option Text :=
  if n * c.utf8Size < 2 ^ 63 then some (List.replicate n c) else none

/-- The number of characters between two byte offsets of a text, or of bytes if the offsets are not
both places in it. The number of bytes is found in either case. -/
def Text.width? (t : Text) (start stop : Nat) : Option Nat := do
  let bytes ← difference? stop start
  return ((t.slice? start stop).map List.length).getD bytes

/-- The entry with the part of the expression it is about underlined. -/
def Entry.render? (input : Text) (e : Entry) : Option Text := do
  let indent ← input.width? 0 e.span.start
  let stop ← sum? e.span.start e.span.length
  let carets ← input.width? e.span.start stop
  return e.severity.name ++ ": ".toList ++ e.message ++ ['\n'] ++
    "  ".toList ++ input ++ ['\n'] ++
    "  ".toList ++ (← repeated? ' ' indent) ++ (← repeated? '^' (max carets 1)) ++ ['\n']

/-- The report on an expression for people to read. -/
def Report.render? (input : Text) (r : Report) : Option Text := do
  let shown := (← r.entries.mapM (·.render? input)).flatten
  return if shown = [] then "ok\n".toList else shown

theorem sum?_of_lt {m n : Nat} (h : m + n < 2 ^ 64) : sum? m n = some (m + n) :=
  if_pos h

theorem repeated?_of_lt {c : Char} {n : Nat} (hc : c.utf8Size = 1) (h : n < 2 ^ 63) :
    repeated? c n = some (List.replicate n c) :=
  if_pos (by rwa [hc, Nat.mul_one])

namespace Text

theorem length_le_byteLength (t : Text) : t.length ≤ t.byteLength := by
  induction t with
  | nil => rfl
  | cons c t ih =>
    have hpos := c.utf8Size_pos
    rw [List.length_cons, byteLength_cons]
    omega

theorem width_le (t : Text) {start stop : Nat} : t.width start stop ≤ stop - start := by
  rw [width]
  split
  · rename_i slice hslice
    obtain ⟨front, back, -, hfront, hstop⟩ := slice?_eq_some_iff.mp hslice
    have hlength := length_le_byteLength slice
    rw [byteLength_append] at hstop
    omega
  · exact le_rfl

theorem width?_eq (t : Text) {start stop : Nat} (h : start ≤ stop) :
    t.width? start stop = some (t.width start stop) := by
  rw [width?, difference?_of_le h, width]
  cases t.slice? start stop <;> rfl

end Text

theorem Entry.render?_eq (input : Text) {e : Entry} (h : e.span.stop < 2 ^ 63) :
    e.render? input = some (e.render input) := by
  have hstart : e.span.start ≤ e.span.stop := Nat.le_add_right _ _
  have hstop : sum? e.span.start e.span.length = some e.span.stop :=
    sum?_of_lt (h.trans (by decide))
  have hindent : input.width 0 e.span.start < 2 ^ 63 := by
    have hle : input.width 0 e.span.start ≤ e.span.start - 0 := input.width_le
    omega
  have hcarets : max (input.width e.span.start e.span.stop) 1 < 2 ^ 63 := by
    have hle : input.width e.span.start e.span.stop ≤ e.span.stop - e.span.start := input.width_le
    omega
  have hspaces := @repeated?_of_lt ' ' _ rfl hindent
  have hrow := @repeated?_of_lt '^' _ rfl hcarets
  rw [render?, input.width?_eq (Nat.zero_le _), hstop]
  simp [input.width?_eq hstart, hspaces, hrow, render]

theorem Entry.render_ne_nil (input : Text) (e : Entry) : e.render input ≠ [] := by
  simp [render]

/-- **Showing a report does not fail**, if each of its spans ends before `2 ^ 63`. -/
theorem Report.render?_eq (input : Text) {r : Report} (h : ∀ e ∈ r.entries, e.span.stop < 2 ^ 63) :
    r.render? input = some (r.render input) := by
  have hshown := mapM_eq_some_map fun e he => Entry.render?_eq input (h e he)
  rw [render?, render, hshown]
  cases r.entries with
  | nil => rfl
  | cons e entries => simp [e.render_ne_nil input, List.flatMap]

/-! ### Everything together -/

/-- **No operation fails**: an expression is cut into stages and a text into tokens, the rules give
their report, a stage is checked with any tokens, and a report is shown with any expression if its
spans end before `2 ^ 63`. -/
theorem no_operation_fails :
    (∀ t : Text, Pipeline.ofText? t = some (.ofText t)) ∧
      (∀ t : Text, t.tokens? = some t.tokens) ∧
      (∀ (r : Rules) (t : Text), r.report? t = some (r.report t)) ∧
      (∀ (flags : FlagSet) (stage : Text) (tokens : List Token),
        stageFindings? flags stage tokens = some (stageFindings flags stage tokens)) ∧
      ∀ (input : Text) (r : Report), (∀ e ∈ r.entries, e.span.stop < 2 ^ 63) →
        r.render? input = some (r.render input) :=
  ⟨Pipeline.ofText?_eq, Text.tokens?_eq, Rules.report?_eq, stageFindings?_eq,
    fun input _ h => Report.render?_eq input h⟩

/-- A token that no text has is checked with its first character as its quote, and a span that
starts inside a character is shown by its bytes. -/
theorem no_operation_fails_inside_character :
    let found : Finding := ⟨.invalidEscape, ⟨9, 2⟩⟩
    let r : Report := ⟨true, [], [⟨"odd".toList, ⟨1, 2⟩, .warning⟩]⟩
    stageFindings? .standard ['a'] [⟨.quoted, ['é', 'x', '\\', 'q', 'é'], 7⟩] = some [found] ∧
      (∀ e ∈ r.entries, e.span.stop < 2 ^ 63) ∧
      r.render? ['é'] = some "warning: odd\n  é\n   ^^\n".toList :=
  ⟨(no_operation_fails.2.2.2.1 _ _ _).trans (by decide), by decide,
    (no_operation_fails.2.2.2.2 _ _ (by decide)).trans (by decide)⟩

end PipeLint
