import PipeLint.Proofs.Command.Sources
import PipeLint.Proofs.Report.Json

/-!
# What a run prints

A run that can check its inputs prints one report for each of them, in their order, and its exit
code is the verdict on all of them. The format decides only how the reports are written, and whether
warnings are denied decides only the exit code. As JSON, the reports are lines that can be read
back.

## Main definitions

* `PipeLint.Options.Passes`: what the reports on inputs have to be for a run to succeed.
* `PipeLint.Outcome.Tells`: what an outcome says about inputs.

## Main results

* `PipeLint.Options.exitCode_check`: the exit code of a run that checks its inputs.
* `PipeLint.Options.output_check_json`: the lines that reports make up as JSON.
* `PipeLint.tells_runCommand`: what a run says about its inputs.
-/

namespace PipeLint

namespace Options

variable (o : Options) (rules : Rules) (inputs : List Text)

/-! ### Verdicts -/

/-- A run on inputs is to succeed: all of them are valid, and if warnings are denied, then there are
none. -/
def Passes : Prop :=
  ∀ input ∈ inputs, (rules.report input).isValid = true ∧
    (o.denyWarnings = true → (rules.report input).warnings = [])

theorem accepts_iff (r : Report) :
    o.accepts r = true ↔ r.isValid = true ∧ (o.denyWarnings = true → r.warnings = []) := by
  cases hdeny : o.denyWarnings <;> simp [accepts, Report.hasWarnings, hdeny]

/-- No input ends the check early: the exit code takes all of them into account. -/
theorem exitCode_check : (o.check rules inputs).exitCode = 0 ∧ o.Passes rules inputs ∨
    (o.check rules inputs).exitCode = 1 ∧ ¬ o.Passes rules inputs := by
  have hpasses : (inputs.all fun input => o.accepts (rules.report input)) = true ↔
      o.Passes rules inputs := by
    simp only [List.all_eq_true, accepts_iff, Passes]
  by_cases h : o.Passes rules inputs
  · exact .inl ⟨if_pos (hpasses.mpr h), h⟩
  · exact .inr ⟨if_neg (mt hpasses.mp h), h⟩

/-! ### Output -/

/-- As text, each report is rendered with its input, and an input that is not the only one stands
before its report. -/
theorem output_check_text (h : o.format = .text) : (o.check rules inputs).output =
    inputs.flatMap fun input =>
      (if 1 < inputs.length then input ++ ['\n'] else []) ++
        (rules.report input).render input := by
  simp [check, reportOutput, h]

/-- As JSON, each report is a line. -/
theorem output_check_json (h : o.format = .json) : (o.check rules inputs).output =
    Text.ofLines (inputs.map fun input => (rules.report input).json) := by
  simp [check, reportOutput, h, Text.ofLines, List.flatMap_map]

end Options

/-! ### Runs -/

/-- A line is the JSON text of the report on an input: there is no line feed in it, it is read as
the JSON value of the report, and it is read as the report itself if the number of bytes of the
input fits a 64-bit word, as it does for every text in memory. -/
structure Rules.IsReportLine (rules : Rules) (line input : Text) : Prop where
  /-- There is no line feed in the line. -/
  notMem : '\n' ∉ line
  /-- The line is read as the JSON value of the report. -/
  json : Json.parse? line = some (rules.report input).toJson
  /-- The line is read as the report. -/
  report : input.byteLength < Json.wordLimit → Report.parse? line = some (rules.report input)

theorem Rules.isReportLine_json (rules : Rules) (input : Text) :
    rules.IsReportLine (rules.report input).json input where
  notMem := (rules.report input).lineFeed_notMem_json
  json := (rules.report input).parse?_compact_toJson
  report h := Report.parse?_json fun _ => rules.fitsWords_of_mem_entries_report h

/-- What an outcome says about inputs that are checked against rules. -/
structure Outcome.Tells (o : Options) (rules : Rules) (inputs : List Text) (a : Outcome) :
    Prop where
  /-- As JSON, the output is one line for each input, in the order of the inputs, and each line is
  the report on its input. -/
  json : o.format = .json → ∃ lines, a.output = Text.ofLines lines ∧
    List.Forall₂ rules.IsReportLine lines inputs
  /-- As text, the output is the rendered report on each input, and an input that is not the only
  one stands before its report on a line of its own. -/
  text : o.format = .text → a.output = inputs.flatMap fun input =>
    (if 1 < inputs.length then input ++ ['\n'] else []) ++ (rules.report input).render input
  /-- The exit code is 0 if the run is to succeed and 1 if it is not. -/
  exitCode : a.exitCode = 0 ∧ o.Passes rules inputs ∨ a.exitCode = 1 ∧ ¬ o.Passes rules inputs
  /-- There is nothing to complain about. -/
  complaint : a.complaint = []

theorem Options.tells_check (o : Options) (rules : Rules) (inputs : List Text) :
    (o.check rules inputs).Tells o rules inputs where
  json h := ⟨_, o.output_check_json rules inputs h, List.forall₂_map_left_iff.mpr
    (List.forall₂_same.mpr fun input _ => rules.isReportLine_json input)⟩
  text h := o.output_check_text rules inputs h
  exitCode := o.exitCode_check rules inputs
  complaint := rfl

/-- **Runs tell what was found.** A run with flag letters that are accepted and with inputs that can
be read, from wherever they are, tells what the reports on these inputs say. Its exit code does not
depend on the format and its output not on whether warnings are denied. -/
theorem tells_runCommand {arguments : List Text} {env : Environment} {o : Options} {rules : Rules}
    {inputs : List Text} {sources : Sources Id}
    (hrequest : Request.ofArguments arguments env = .ok (.check o))
    (hrules : o.rules? = .ok rules) (hinputs : o.inputs? sources = .ok inputs) :
    Outcome.Tells o rules inputs (runCommand arguments env sources) ∧
    (∀ (arguments' : List Text) (env' : Environment) (format? : Option Format),
      Request.ofArguments arguments' env' = .ok (.check { o with format? := format? }) →
        Outcome.exitCode (runCommand arguments' env' sources) =
          Outcome.exitCode (runCommand arguments env sources)) ∧
    ∀ (arguments' : List Text) (env' : Environment) (denyWarnings : Bool),
      Request.ofArguments arguments' env' = .ok (.check { o with denyWarnings := denyWarnings }) →
        Outcome.output (runCommand arguments' env' sources) =
          Outcome.output (runCommand arguments env sources) := by
  have hcheck : ∀ {arguments' : List Text} {env' : Environment} {o' : Options},
      Request.ofArguments arguments' env' = .ok (.check o') → o'.rules? = o.rules? →
      o'.inputs? sources = o.inputs? sources →
        runCommand arguments' env' sources = o'.check rules inputs :=
    fun {arguments' env' o'} hrequest' hrules' hinputs' => by
      rw [runCommand_eq_conclude hrequest', hinputs', hinputs,
        Options.conclude_ok (hrules'.trans hrules)]
  rw [hcheck hrequest rfl rfl]
  refine ⟨o.tells_check rules inputs, fun arguments' env' format? h => ?_,
    fun arguments' env' denyWarnings h => ?_⟩
  · rw [hcheck h rfl rfl]
    rfl
  · rw [hcheck h rfl rfl]
    rfl

/-- Two expressions, the second with a line feed in it, are reported on two lines, and the second
line is read as the report on the second expression. -/
theorem tells_runCommand_line_feed :
    let arguments := ["--format=json".toList, "a | -i b".toList, "a\n\u0001".toList]
    let sources : Sources Id := ⟨fun _ => .error .noSuchFile, .ok []⟩
    ∃ first second : Text,
      Outcome.output (runCommand arguments {} sources) = Text.ofLines [first, second] ∧
        '\n' ∉ second ∧ Report.parse? second = some (({} : Rules).report "a\n\u0001".toList) := by
  intro arguments sources
  let inputs := ["a | -i b".toList, "a\n\u0001".toList]
  let o : Options := { expressions := inputs, format? := some .json }
  have hrequest : Request.ofArguments arguments {} = .ok (.check o) := rfl
  have hinputs : o.inputs? sources = .ok inputs := rfl
  obtain ⟨htells, -⟩ := tells_runCommand hrequest (rfl : o.rules? = .ok {}) hinputs
  obtain ⟨lines, houtput, hlines⟩ := htells.json rfl
  obtain ⟨first, others, -, hothers, rfl⟩ := List.forall₂_cons_right_iff.mp hlines
  obtain ⟨second, others, hsecond, hnone, rfl⟩ := List.forall₂_cons_right_iff.mp hothers
  obtain rfl := List.forall₂_nil_right_iff.mp hnone
  exact ⟨first, second, houtput, hsecond.notMem, hsecond.report (by decide)⟩

end PipeLint
