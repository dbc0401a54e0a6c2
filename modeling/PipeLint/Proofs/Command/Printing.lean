import PipeLint.Proofs.Command.Output
import PipeLint.Proofs.List.MapM
import PipeLint.Proofs.Report.Observable

/-!
# Runs that print as they go

The outcome of a run is given as a whole. A process has no such thing: it prints one report after
the other, and what it has printed stays printed if it has to stop then. It may have to stop because
of a letter that is none, because an input cannot be read, or because a report cannot be written as
JSON. A process that does these things in the order of the command leaves the outcome of the run:
the letters come first, then all of the reading, and no report fails to be written. So a run that
fails prints nothing, and a run that does not fail prints a report on every input.

## Main definitions

* `PipeLint.Json.write?`: the text of a value, if it has one.
* `PipeLint.Printing`: programs that print as they go.
* `PipeLint.Request.print`: the program that does what a request asks for.
* `PipeLint.Options.Reads`: the inputs that the source chosen by options holds.

## Main results

* `PipeLint.Report.write?_toJson`: every report can be written.
* `PipeLint.Options.run_printReports`: what is left by reports printed one after the other.
* `PipeLint.Request.run_eq_ofEnd`: a run has the outcome that the program leaves.
* `PipeLint.printed_runCommand`: a run prints a report on each of its inputs, or it fails and prints
  nothing.
-/

namespace PipeLint

/-! ### Writing -/

namespace Json

/-- The text of a token. A number has to be spelled as a number, and a string has to be a text. -/
def Token.write? : Token → Option Text
  | number literal => if Json.isNumber literal then some literal else none
  | string text? => text?.map quote
  | token => some token.text

/-- The text of a value, without white space, if all of its tokens have one. -/
def write? (v : Json) : Option Text :=
  (v.tokens.mapM Token.write?).map List.flatten

/-- A value can be written if all of its tokens are written as they are. -/
def Writable (v : Json) : Prop :=
  ∀ token ∈ v.tokens, token.write? = some token.text

theorem Writable.write?_eq {v : Json} (h : v.Writable) : v.write? = some v.compact := by
  rw [write?, mapM_eq_some_map h]
  rfl

theorem writable_bool (b : Bool) : (bool b).Writable :=
  List.forall_mem_singleton.mpr rfl

theorem writable_string (t : Text) : (string (some t)).Writable :=
  List.forall_mem_singleton.mpr rfl

theorem writable_decimal (n : Nat) : (number (Text.decimal n)).Writable :=
  List.forall_mem_singleton.mpr (if_pos (isNumber_decimal n))

theorem writable_array {items : List Json} (h : ∀ v ∈ items, v.Writable) :
    (array items).Writable := by
  refine (forall_mem_tokens_array_iff ?_ ?_ ?_ items).mpr h <;> rfl

theorem writable_record {names : List Text} {values : List Json} (h : ∀ v ∈ values, v.Writable) :
    (object (List.zip (names.map some) values)).Writable := by
  have hmembers : ∀ m ∈ List.zip (names.map some) values,
      (Token.string m.1).write? = some (Token.string m.1).text ∧ m.2.Writable := fun m hm => by
    obtain ⟨hname, hvalue⟩ := List.of_mem_zip hm
    obtain ⟨name, -, hname⟩ := List.mem_map.mp hname
    exact ⟨hname ▸ rfl, h _ hvalue⟩
  refine (forall_mem_tokens_object_iff ?_ ?_ ?_ ?_ _).mpr hmembers <;> rfl

end Json

theorem Entry.writable_toJson (e : Entry) : e.toJson.Writable := by
  refine Json.writable_record ?_
  simp [Severity.toJson, Json.writable_string, Json.writable_decimal]

/-- Every report can be written. -/
theorem Report.write?_toJson (r : Report) : r.toJson.write? = some r.json := by
  have hentries (entries : List Entry) : (Json.array (entries.map Entry.toJson)).Writable :=
    Json.writable_array (List.forall_mem_map.mpr fun e _ => e.writable_toJson)
  refine Json.Writable.write?_eq (Json.writable_record ?_)
  simp [Json.writable_bool, hentries]

/-! ### Printing -/

/-- What can stop a program that prints as it goes. -/
inductive Halt where
  /-- A fault of the run. -/
  | fault (f : Fault)
  /-- A value that is to be printed as JSON has no text. -/
  | unwritable (v : Json)

/-- A program that prints as it goes. Its state is what it has printed so far, which nothing takes
back, not even what stops the program. -/
abbrev Printing (m : Type → Type) :=
  ExceptT Halt (StateT Text m)

section

variable {m : Type → Type} [Monad m]

/-- Prints a text behind what is printed already. -/
def print (t : Text) : Printing m Unit :=
  modify (· ++ t)

namespace Options

/-- Prints what is to be printed about one of several inputs. -/
def printReport (o : Options) (count : Nat) (input : Text) (r : Report) : Printing m Unit :=
  match o.format with
  | .text => do
    if 1 < count then
      print (input ++ ['\n'])
    print (r.render input)
  | .json =>
    match r.toJson.write? with
    | none => throw (.unwritable r.toJson)
    | some line => print (line ++ ['\n'])

/-- Checks inputs one after the other and prints the report on each before it checks the next one.
Whether all of them are accepted is known at the end. -/
def printReports (o : Options) (rules : Rules) (count : Nat) :
    List Text → Bool → Printing m Bool
  | [], passed => return passed
  | input :: inputs, passed => do
    let report := rules.report input
    o.printReport count input report
    o.printReports rules count inputs (passed && o.accepts report)

/-- Makes sure of the letters, then reads the inputs, then prints the reports on them. -/
def print (o : Options) (sources : Sources m) : Printing m Bool :=
  match o.rules? with
  | .error letter => throw (.fault (.invalidFlagLetter letter))
  | .ok rules => do
    match ← (o.inputs? sources : m _) with
    | .error fault => throw (.fault fault)
    | .ok inputs => o.printReports rules inputs.length inputs true

end Options

/-- Does what a request asks for, and prints as it goes. -/
def Request.print (r : Request) (sources : Sources m) : Printing m Bool :=
  match r with
  | .check o => o.print sources
  | .version => do
    PipeLint.print versionText
    return true
  | .help => do
    PipeLint.print helpText
    return true

end

/-- The outcome that a program leaves: its exit code and complaint depend on how it ends, and its
output is what it has printed by then. -/
def Outcome.ofEnd : Except Halt Bool × Text → Outcome
  | (.ok passed, printed) => { exitCode := if passed then 0 else 1, output := printed }
  | (.error (.fault f), printed) => { ofFault f with output := printed }
  | (.error (.unwritable _), printed) =>
    { exitCode := 2, output := printed, complaint := "Error: a value is no JSON\n".toList }

/-! ### What is left -/

section

variable {m : Type → Type} [Monad m] [LawfulMonad m]

theorem run_print (t printed : Text) :
    (print t : Printing m Unit).run.run printed = pure (.ok (), printed ++ t) := by
  have hrun : (print t : Printing m Unit).run =
      Except.ok <$> (modify (· ++ t) : StateT Text m Unit) := rfl
  simp [hrun]

/-- A program goes on from what its first part has printed, if nothing stops that part. -/
theorem run_bind_of_ok {α β : Type} {x : Printing m α} {a : α} {printed printed' : Text}
    (h : x.run.run printed = pure (.ok a, printed')) (f : α → Printing m β) :
    (x >>= f).run.run printed = (f a).run.run printed' := by
  simp [ExceptT.run_bind, h]

theorem run_liftM_bind {α β : Type} (x : m α) (f : α → Printing m β) (printed : Text) :
    ((liftM x : Printing m α) >>= f).run.run printed =
      x >>= fun a => (f a).run.run printed := by
  have hrun : (liftM x : Printing m α).run =
      Except.ok <$> (StateT.lift x : StateT Text m α) := rfl
  simp [ExceptT.run_bind, hrun]

namespace Options

theorem run_printReport (o : Options) (count : Nat) (input : Text) (r : Report) (printed : Text) :
    (o.printReport count input r : Printing m Unit).run.run printed =
      pure (.ok (), printed ++ o.reportOutput count input r) := by
  rw [printReport, reportOutput]
  cases o.format with
  | text =>
    by_cases hcount : 1 < count
    · simp only [if_pos hcount]
      rw [run_bind_of_ok (run_print _ _), run_print, List.append_assoc]
    · simp only [if_neg hcount]
      exact run_print _ _
  | json =>
    rw [r.write?_toJson]
    exact run_print _ _

/-- Reports that are printed one after the other are those of all inputs. -/
theorem run_printReports (o : Options) (rules : Rules) (count : Nat) (inputs : List Text)
    (passed : Bool) (printed : Text) :
    (o.printReports rules count inputs passed : Printing m Bool).run.run printed =
      pure (.ok (passed && inputs.all fun input => o.accepts (rules.report input)),
        printed ++ inputs.flatMap fun input =>
          o.reportOutput count input (rules.report input)) := by
  induction inputs generalizing passed printed with
  | nil => simp [printReports]
  | cons input inputs ih =>
    rw [printReports, run_bind_of_ok (o.run_printReport count input _ printed), ih,
      List.all_cons, List.flatMap_cons, Bool.and_assoc, List.append_assoc]

/-- A run has the outcome that is left by the program which prints as it goes. -/
theorem run_eq_ofEnd (o : Options) (sources : Sources m) :
    o.run sources = Outcome.ofEnd <$> (o.print sources).run.run [] := by
  rw [run, print]
  cases o.rules? with
  | error letter => simp [Outcome.ofEnd, Outcome.ofFault]
  | ok rules =>
    simp only [run_liftM_bind, map_bind]
    refine bind_congr fun inputs? => ?_
    cases inputs? with
    | error fault => simp [Outcome.ofEnd, Outcome.ofFault]
    | ok inputs => simp [run_printReports, Outcome.ofEnd, check]

end Options

/-- What a request leads to is what the program leaves that does the same and prints as it goes. -/
theorem Request.run_eq_ofEnd (r : Request) (sources : Sources m) :
    r.run sources = Outcome.ofEnd <$> (r.print sources).run.run [] := by
  cases r with
  | check o => exact o.run_eq_ofEnd sources
  | version | help =>
    rw [print, run_bind_of_ok (run_print _ _)]
    simp [run, Outcome.ofEnd]

end

/-! ### Flag letters -/

/-- Letters are refused for the first one among them that can never stand in a group of flags. -/
theorem Rules.withFlags?_of_first {front back : Text} {c : Char}
    (hfront : ∀ d ∈ front, isFlagLetter d = true) (hc : isFlagLetter c = false) (r : Rules) :
    r.withFlags? (front ++ c :: back) = .error c := by
  have hfind : (front ++ c :: back).find? (!isFlagLetter ·) = some c :=
    List.find?_eq_some_iff_append.mpr ⟨by simp [hc], front, back, rfl, by simpa using hfront⟩
  rw [withFlags?, FlagSet.ofLetters?, hfind]
  rfl

namespace Options

theorem rules?_of_forall {o : Options}
    (h : ∀ letters, o.flags? = some letters → ∀ c ∈ letters, isFlagLetter c = true) :
    o.rules? = .ok (o.flags?.elim {} (Rules.withFlags {})) := by
  rw [rules?]
  cases hflags : o.flags? with
  | none => rfl
  | some letters => exact Rules.withFlags?_eq_ok_iff.mpr ⟨h letters hflags, rfl⟩

/-! ### Inputs -/

/-- The source that options choose holds inputs: the expressions among the arguments, or else the
lines of a text whose bytes are in the file, or if there is no file, in standard input. -/
inductive Reads (o : Options) (sources : Sources Id) : List Text → Prop where
  | expressions (h : o.expressions ≠ []) : Reads o sources o.expressions
  | file {path t : Text} (h : o.expressions = []) (hfile : o.file? = some path)
    (hbytes : sources.file path = .ok t.bytes) : Reads o sources t.lines
  | standardInput {t : Text} (h : o.expressions = []) (hfile : o.file? = none)
    (hbytes : sources.standardInput = .ok t.bytes) : Reads o sources t.lines

end Options

theorem fileLines?_eq_ok_iff {path : Text} {content : Except ReadFailure (List UInt8)}
    {lines : List Text} :
    fileLines? path content = .ok lines ↔ ∃ t : Text, content = .ok t.bytes ∧ t.lines = lines := by
  constructor
  · intro h
    cases content with
    | error failure => contradiction
    | ok bytes =>
      cases hdecode : decodeUtf8? bytes with
      | none => simp [fileLines?, hdecode] at h
      | some t =>
        rw [decodeUtf8?_eq_some_iff] at hdecode
        rw [hdecode, fileLines?_bytes] at h
        exact ⟨t, by rw [hdecode], Except.ok.inj h⟩
  · rintro ⟨t, rfl, rfl⟩
    exact fileLines?_bytes path t

theorem Options.inputs?_eq_ok_iff {o : Options} {sources : Sources Id} {inputs : List Text} :
    o.inputs? sources = .ok inputs ↔ o.Reads sources inputs := by
  constructor
  · intro h
    by_cases hexpressions : o.expressions = []
    · cases hfile : o.file? with
      | none =>
        rw [inputs?_of_standardInput hexpressions hfile] at h
        obtain ⟨t, hbytes, rfl⟩ := fileLines?_eq_ok_iff.mp h
        exact .standardInput hexpressions hfile hbytes
      | some path =>
        rw [inputs?_of_file hexpressions hfile] at h
        obtain ⟨t, hbytes, rfl⟩ := fileLines?_eq_ok_iff.mp h
        exact .file hexpressions hfile hbytes
    · rw [inputs?_of_expressions_ne_nil hexpressions] at h
      exact Except.ok.inj h ▸ .expressions hexpressions
  · intro h
    cases h with
    | expressions h => exact inputs?_of_expressions_ne_nil h sources
    | file h hfile hbytes =>
      rw [inputs?_of_file h hfile, hbytes]
      exact fileLines?_bytes _ _
    | standardInput h hfile hbytes =>
      rw [inputs?_of_standardInput h hfile, hbytes]
      exact fileLines?_bytes _ _

/-! ### Runs -/

/-- A run that fails is one that a fault stops before anything is printed. -/
theorem Options.exists_conclude_eq_ofFault {o : Options} {inputs? : Except Fault (List Text)}
    (h : (o.conclude inputs?).exitCode = 2) : ∃ fault, o.conclude inputs? = .ofFault fault := by
  cases hrules : o.rules? with
  | error letter => exact ⟨_, by rw [conclude, hrules]⟩
  | ok rules =>
    cases inputs? with
    | error fault => exact ⟨fault, conclude_error hrules fault⟩
    | ok inputs =>
      rw [conclude_ok hrules] at h
      exact absurd h (Nat.ne_of_lt (o.exitCode_check_lt rules inputs))

theorem Options.run_of_expressions_ne_nil {m : Type → Type} [Monad m] [LawfulMonad m]
    {o : Options} (h : o.expressions ≠ []) (sources : Sources m) :
    o.run sources = pure (o.conclude (.ok o.expressions)) := by
  rw [run, conclude]
  cases o.rules? with
  | error letter => rfl
  | ok rules => simp only [inputs?_of_expressions_ne_nil h, pure_bind]

theorem Request.exists_run_eq_ofFault {r : Request} {sources : Sources Id}
    (h : Outcome.exitCode (r.run sources) = 2) :
    ∃ fault : Fault, r.run sources = .ofFault fault := by
  cases r with
  | check o =>
    rw [run, o.run_eq_conclude] at h ⊢
    exact Options.exists_conclude_eq_ofFault h
  | version | help =>
    have hexit : 0 = 2 := h
    contradiction

/-- **A run prints a report on each of its inputs, or it fails and prints nothing.** Let arguments
be understood as a request. The run that they lead to has the outcome that is left by the program
which prints as it goes. If it fails, whatever the files and standard input hold, then nothing is
printed but the complaint about a fault. When expressions are to be checked, a letter that can never
stand in a group of flags is complained about before anything is read, and so is only the first one.
If all letters can stand there, then the run tells the reports on all inputs that its source holds,
and it fails if the source holds none; and nothing at all is read if there are expressions among the
arguments. -/
theorem printed_runCommand {arguments : List Text} {env : Environment} {request : Request}
    (h : Request.ofArguments arguments env = .ok request) :
    (∀ {m : Type → Type} [Monad m] [LawfulMonad m] (sources : Sources m),
      runCommand arguments env sources = Outcome.ofEnd <$> (request.print sources).run.run []) ∧
    (∀ sources : Sources Id, Outcome.exitCode (runCommand arguments env sources) = 2 →
      Outcome.output (runCommand arguments env sources) = [] ∧
        ∃ fault : Fault, runCommand arguments env sources = .ofFault fault) ∧
    ∀ o, request = .check o →
      (∀ front c back, o.flags? = some (front ++ c :: back) →
        (∀ d ∈ front, isFlagLetter d = true) → isFlagLetter c = false →
          ∀ {m : Type → Type} [Monad m] (sources : Sources m),
            runCommand arguments env sources = pure (.ofFault (.invalidFlagLetter c))) ∧
      ((∀ letters, o.flags? = some letters → ∀ c ∈ letters, isFlagLetter c = true) →
        ∀ sources : Sources Id,
          (∀ inputs, o.Reads sources inputs →
            Outcome.Tells o (o.flags?.elim {} (Rules.withFlags {})) inputs
              (runCommand arguments env sources)) ∧
          ((∀ inputs, ¬ o.Reads sources inputs) →
            Outcome.exitCode (runCommand arguments env sources) = 2)) ∧
      (o.expressions ≠ [] → ∃ outcome : Outcome,
        ∀ {m : Type → Type} [Monad m] [LawfulMonad m] (sources : Sources m),
          runCommand arguments env sources = pure outcome) := by
  have hrun : ∀ {m : Type → Type} [Monad m] (sources : Sources m),
      runCommand arguments env sources = request.run sources := fun sources => by
    rw [runCommand, h]
  refine ⟨fun sources => (hrun sources).trans (request.run_eq_ofEnd sources),
    fun sources hexit => ?_, ?_⟩
  · rw [hrun] at hexit ⊢
    obtain ⟨fault, hfault⟩ := Request.exists_run_eq_ofFault hexit
    exact ⟨by rw [hfault]; rfl, fault, hfault⟩
  · rintro o rfl
    refine ⟨fun front c back hflags hfront hc m _ sources => ?_, fun hletters sources => ?_,
      fun hexpressions => ?_⟩
    · have hrules : o.rules? = .error c := by
        rw [Options.rules?, hflags]
        exact Rules.withFlags?_of_first hfront hc {}
      rw [hrun, Request.run, Options.run, hrules]
    · have hrules := Options.rules?_of_forall hletters
      rw [runCommand_eq_conclude h]
      refine ⟨fun inputs hreads => ?_, fun hnone => ?_⟩
      · rw [Options.inputs?_eq_ok_iff.mpr hreads, Options.conclude_ok hrules]
        exact o.tells_check _ inputs
      · cases hinputs : o.inputs? sources with
        | error fault =>
          rw [Options.conclude_error hrules]
          rfl
        | ok inputs => exact absurd (Options.inputs?_eq_ok_iff.mp hinputs) (hnone inputs)
    · exact ⟨_, fun sources => (hrun sources).trans
        (Options.run_of_expressions_ne_nil hexpressions sources)⟩

/-- The first two lines of standard input could be checked, but the third is a byte that is no
character: nothing is printed. A letter that is none is complained about all the same, and if there
is an expression among the arguments, then it is checked. -/
theorem printed_runCommand_late_line :
    let broken : Sources Id :=
      ⟨fun _ => .error .noSuchFile, .ok (Text.bytes "a\n-i b\n".toList ++ [255])⟩
    Outcome.exitCode (runCommand ["--flags=iv".toList] {} broken) = 2 ∧
      Outcome.output (runCommand ["--flags=iv".toList] {} broken) = [] ∧
      runCommand ["--flags=i-é".toList] {} broken = .ofFault (.invalidFlagLetter '-') ∧
      Outcome.Tells { expressions := ["-i".toList] } {} ["-i".toList]
        (runCommand ["--".toList, "-i".toList] {} broken) := by
  intro broken
  obtain ⟨-, hfails, -⟩ := printed_runCommand
    (rfl : Request.ofArguments ["--flags=iv".toList] {} =
      .ok (.check { flags? := some "iv".toList }))
  obtain ⟨-, -, hletter⟩ := printed_runCommand
    (rfl : Request.ofArguments ["--flags=i-é".toList] {} =
      .ok (.check { flags? := some "i-é".toList }))
  obtain ⟨-, -, hchecks⟩ := printed_runCommand
    (rfl : Request.ofArguments ["--".toList, "-i".toList] {} =
      .ok (.check { expressions := ["-i".toList] }))
  have hexit : Outcome.exitCode (runCommand ["--flags=iv".toList] {} broken) = 2 := by
    decide +kernel
  obtain ⟨-, hreads, -⟩ := hchecks _ rfl
  exact ⟨hexit, (hfails broken hexit).1,
    (hletter _ rfl).1 ['i'] '-' ['é'] rfl (List.forall_mem_singleton.mpr rfl) rfl broken,
    (hreads (fun _ hnone => nomatch hnone) broken).1 _ (.expressions (List.cons_ne_nil _ _))⟩

end PipeLint
