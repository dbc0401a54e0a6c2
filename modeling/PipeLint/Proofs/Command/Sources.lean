import PipeLint.Command.Run
import PipeLint.Proofs.Text.Lines

/-!
# Where expressions come from

Expressions are given as arguments, as the lines of a file or as the lines of standard input. A file
is decoded as a whole and standard input line by line, but the lines are the same, and so are the
bytes that cannot be decoded. What a run does with its inputs does not depend on where they come
from, except for the name in the complaint about an input that cannot be read.

## Main definitions

* `PipeLint.Options.arguments`: arguments that spell options.
* `PipeLint.Options.conclude`: the outcome of a run that has read its inputs.
* `PipeLint.Outcome.AlikeUpTo`: outcomes that differ at most in the name of an unreadable input.

## Main results

* `PipeLint.Options.read_arguments`: the arguments that spell options are read as these options.
* `PipeLint.standardInputLines?_eq_fileLines?`: both readers find the same lines.
* `PipeLint.runCommand_sources_agree`: runs on the same expressions from different sources.
-/

namespace PipeLint

/-! ### Spelling options -/

/-- The name of a format. -/
def Format.name : Format → Text
  | text => "text".toList
  | json => "json".toList

@[simp]
theorem Format.ofName?_name (f : Format) : Format.ofName? f.name = some f := by
  cases f <;> rfl

namespace Options

/-- Arguments that spell options. Each option that is given is one argument, and the expressions
stand behind the mark that ends the options, where no expression is taken for an option. -/
def arguments (o : Options) : List Text :=
  (o.file?.map ("--file=".toList ++ ·)).toList ++
    (o.format?.map ("--format=".toList ++ ·.name)).toList ++
    (o.flags?.map ("--flags=".toList ++ ·)).toList ++
    (if o.denyWarnings then ["--deny-warnings".toList] else []) ++ "--".toList :: o.expressions

theorem read_setting {argument value : Text} {s : Setting}
    (h : Argument.ofText argument = .setting s (some value)) (o : Options)
    (arguments : List Text) :
    o.read (argument :: arguments) = (o.set s value).bind fun o => o.read arguments := by
  rw [read, h]

/-- An option that takes a value is read as it is spelled, whether it is given or not: `value` is
what its argument spells, and `given` are the options with what is given. -/
theorem read_toList_map {α : Type} {s : Setting} {o : Options} {spell : α → Text}
    (value : α → Text) (given : Option α → Options)
    (hargument : ∀ a, Argument.ofText (spell a) = .setting s (some (value a)))
    (hnone : given none = o) {a? : Option α}
    (hset : ∀ a ∈ a?, o.set s (value a) = .ok (given (some a))) (arguments : List Text) :
    o.read ((a?.map spell).toList ++ arguments) = (given a?).read arguments := by
  cases a? with
  | none =>
    rw [hnone]
    rfl
  | some a =>
    rw [Option.map_some, Option.toList_some, List.singleton_append, read_setting (hargument a),
      hset a rfl]
    rfl

theorem read_file {o : Options} (hnone : o.file? = none) {file? : Option Text}
    (hfile : file? ≠ some []) (arguments : List Text) :
    o.read ((file?.map ("--file=".toList ++ ·)).toList ++ arguments) =
      { o with file? := file? }.read arguments := by
  refine read_toList_map id (fun path? => { o with file? := path? }) (fun _ => rfl)
    (by rw [← hnone]) (fun path hpath => ?_) arguments
  have hne : path ≠ [] := fun hempty => hfile (hempty ▸ hpath)
  simp [set, hnone, hne]

theorem read_format {o : Options} (hnone : o.format? = none) (format? : Option Format)
    (arguments : List Text) :
    o.read ((format?.map ("--format=".toList ++ ·.name)).toList ++ arguments) =
      { o with format? := format? }.read arguments :=
  read_toList_map Format.name (fun format? => { o with format? := format? }) (fun _ => rfl)
    (by rw [← hnone]) (fun format _ => by simp [set, setFormat, hnone]) arguments

theorem read_flags {o : Options} (hnone : o.flags? = none) (flags? : Option Text)
    (arguments : List Text) :
    o.read ((flags?.map ("--flags=".toList ++ ·)).toList ++ arguments) =
      { o with flags? := flags? }.read arguments :=
  read_toList_map id (fun letters? => { o with flags? := letters? }) (fun _ => rfl)
    (by rw [← hnone]) (fun letters _ => by simp [set, hnone]) arguments

theorem read_denyWarnings {o : Options} (hnone : o.denyWarnings = false) (denyWarnings : Bool)
    (arguments : List Text) :
    o.read ((if denyWarnings then ["--deny-warnings".toList] else []) ++ arguments) =
      { o with denyWarnings := denyWarnings }.read arguments := by
  cases denyWarnings with
  | false =>
    have hsame : { o with denyWarnings := false } = o := by rw [← hnone]
    rw [hsame]
    rfl
  | true =>
    have hargument : Argument.ofText "--deny-warnings".toList = .denyWarnings := rfl
    rw [if_pos rfl, List.singleton_append, read, hargument]
    exact if_neg (by simp [hnone])

theorem read_endOfOptions (o : Options) (arguments : List Text) :
    o.read ("--".toList :: arguments) =
      .ok (.check { o with expressions := o.expressions ++ arguments }) :=
  rfl

/-- **Options are read as they are spelled.** So every choice of options can be made, and any texts
can be given as expressions. -/
theorem read_arguments {o : Options} (h : o.file? ≠ some []) :
    Options.read {} o.arguments = .ok (.check o) := by
  simp only [arguments, List.append_assoc]
  rw [read_file (o := {}) rfl h, read_format (o := { file? := o.file? }) rfl,
    read_flags (o := { file? := o.file?, format? := o.format? }) rfl,
    read_denyWarnings (o := { file? := o.file?, format? := o.format?, flags? := o.flags? }) rfl,
    read_endOfOptions]
  rfl

end Options

/-- The request that spelled options make is to check, with what the environment adds to them. -/
theorem Request.ofArguments_arguments {o : Options} (h : o.file? ≠ some []) (env : Environment) :
    Request.ofArguments o.arguments env = (o.complete env).map .check := by
  rw [Request.ofArguments, Options.read_arguments h]
  rfl

/-! ### Reading inputs -/

/-- Standard input has the lines that a file of its name with the same bytes would have. -/
theorem standardInputLines?_eq_fileLines? (content : Except ReadFailure (List UInt8)) :
    standardInputLines? content = fileLines? standardInputName content := by
  cases content with
  | error failure => rfl
  | ok bytes =>
    simp only [standardInputLines?, fileLines?, decodeLines?_eq_map_lines]
    cases decodeUtf8? bytes <;> rfl

theorem fileLines?_bytes (path t : Text) : fileLines? path (.ok t.bytes) = .ok t.lines := by
  simp [fileLines?, decodeUtf8?_eq_some_iff.mpr rfl]

theorem fileLines?_of_forall_ne_bytes {bytes : List UInt8} (h : ∀ t : Text, bytes ≠ t.bytes)
    (path : Text) : fileLines? path (.ok bytes) = .error (.unreadable path .notUtf8) := by
  have hnone : decodeUtf8? bytes = none :=
    Option.eq_none_iff_forall_ne_some.mpr fun t ht => h t (decodeUtf8?_eq_some_iff.mp ht)
  simp [fileLines?, hnone]

namespace Options

variable {o : Options}

theorem inputs?_of_expressions_ne_nil {m : Type → Type} [Monad m] (h : o.expressions ≠ [])
    (sources : Sources m) : o.inputs? sources = pure (.ok o.expressions) := by
  rw [inputs?]
  split
  · contradiction
  · contradiction
  · rfl

theorem inputs?_of_file {path : Text} (hexpressions : o.expressions = [])
    (hfile : o.file? = some path) (sources : Sources Id) :
    o.inputs? sources = fileLines? path (sources.file path) := by
  rw [inputs?, hexpressions, hfile]
  rfl

theorem inputs?_of_standardInput (hexpressions : o.expressions = []) (hfile : o.file? = none)
    (sources : Sources Id) :
    o.inputs? sources = fileLines? standardInputName sources.standardInput := by
  rw [inputs?, hexpressions, hfile, ← standardInputLines?_eq_fileLines?]
  rfl

/-! ### Runs on inputs -/

/-- The outcome of a run that has read its inputs. -/
def conclude (o : Options) (inputs? : Except Fault (List Text)) : Outcome :=
  match o.rules? with
  | .error letter => .ofFault (.invalidFlagLetter letter)
  | .ok rules =>
    match inputs? with
    | .error fault => .ofFault fault
    | .ok inputs => o.check rules inputs

theorem conclude_error {o : Options} {rules : Rules} (hrules : o.rules? = .ok rules)
    (fault : Fault) : o.conclude (.error fault) = .ofFault fault := by
  rw [conclude, hrules]

theorem conclude_ok {o : Options} {rules : Rules} (hrules : o.rules? = .ok rules)
    (inputs : List Text) : o.conclude (.ok inputs) = o.check rules inputs := by
  rw [conclude, hrules]

theorem run_eq_conclude (o : Options) (sources : Sources Id) :
    o.run sources = o.conclude (o.inputs? sources) := by
  rw [run, conclude]
  cases o.rules? with
  | error letter => rfl
  | ok rules =>
    change (match o.inputs? sources with
      | .error fault => Outcome.ofFault fault
      | .ok inputs => o.check rules inputs) = _
    cases o.inputs? sources <;> rfl

theorem exitCode_check_lt (o : Options) (rules : Rules) (inputs : List Text) :
    (o.check rules inputs).exitCode < 2 := by
  simp only [check]
  split <;> decide

end Options

/-- The command does what the options say with the inputs that they name. -/
theorem runCommand_eq_conclude {arguments : List Text} {env : Environment} {o : Options}
    (h : Request.ofArguments arguments env = .ok (.check o)) (sources : Sources Id) :
    runCommand arguments env sources = o.conclude (o.inputs? sources) := by
  rw [runCommand, h]
  exact o.run_eq_conclude sources

/-! ### The same expressions from different sources -/

/-- Two outcomes are alike up to names: they are the same, except that the complaint about an input
that cannot be read has one name in the first and the other name in the second. -/
structure Outcome.AlikeUpTo (name other : Text) (a b : Outcome) : Prop where
  /-- The exit codes are the same. -/
  exitCode : a.exitCode = b.exitCode
  /-- The output is the same. -/
  output : a.output = b.output
  /-- The complaints are the same, up to the name. -/
  complaint : a.complaint = b.complaint ∨ ∃ failure : ReadFailure,
    a.complaint = (Outcome.ofFault (.unreadable name failure)).complaint ∧
      b.complaint = (Outcome.ofFault (.unreadable other failure)).complaint

theorem Options.alikeUpTo_conclude (o : Options) (name other : Text)
    (content : Except ReadFailure (List UInt8)) :
    (o.conclude (fileLines? name content)).AlikeUpTo name other
      (o.conclude (fileLines? other content)) := by
  have hfailed : ∀ failure, (o.conclude (.error (.unreadable name failure))).AlikeUpTo name other
      (o.conclude (.error (.unreadable other failure))) := fun failure => by
    unfold conclude
    cases o.rules? with
    | error letter => exact ⟨rfl, rfl, .inl rfl⟩
    | ok rules => exact ⟨rfl, rfl, .inr ⟨failure, rfl, rfl⟩⟩
  cases content with
  | error failure => exact hfailed failure
  | ok bytes =>
    simp only [fileLines?]
    cases decodeUtf8? bytes with
    | none => exact hfailed .notUtf8
    | some t => exact ⟨rfl, rfl, .inl rfl⟩

/-- With flag letters that are accepted, a run fails exactly on the bytes that encode no text. -/
theorem Options.exitCode_conclude_eq_two_iff {o : Options} {rules : Rules}
    (hrules : o.rules? = .ok rules) (name : Text) (bytes : List UInt8) :
    (o.conclude (fileLines? name (.ok bytes))).exitCode = 2 ↔ ∀ t : Text, bytes ≠ t.bytes := by
  constructor
  · rintro hexit t rfl
    rw [fileLines?_bytes, conclude_ok hrules] at hexit
    exact absurd hexit (Nat.ne_of_lt (o.exitCode_check_lt rules t.lines))
  · intro h
    rw [fileLines?_of_forall_ne_bytes h, conclude_error hrules]
    rfl

/-- **Sources agree.** Let two runs have the same options, except that the first names a file and
the second reads standard input. If texts that can be lines are the lines of both, then both runs
have the outcome of every run with the same options that has these texts as its arguments. If both
hold the same bytes, whatever they are, then the outcomes are alike up to the name of the file; and
if the flag letters are accepted, both runs fail exactly if the bytes encode no text, and complain
about nothing but that. -/
theorem runCommand_sources_agree {o : Options} {env : Environment} {filed piped : List Text}
    {path : Text}
    (hfiled : Request.ofArguments filed env =
      .ok (.check { o with expressions := [], file? := some path }))
    (hpiped : Request.ofArguments piped env =
      .ok (.check { o with expressions := [], file? := none })) :
    (∀ (expressions direct : List Text) (file? : Option Text) (disk pipe sources : Sources Id),
      expressions ≠ [] → (∀ t ∈ expressions, t.IsLine) →
      Request.ofArguments direct env =
        .ok (.check { o with expressions := expressions, file? := file? }) →
      disk.file path = .ok (Text.ofLines expressions).bytes →
      pipe.standardInput = .ok (Text.ofLines expressions).bytes →
        runCommand filed env disk = runCommand direct env sources ∧
          runCommand piped env pipe = runCommand direct env sources) ∧
    ∀ (bytes : List UInt8) (disk pipe : Sources Id),
      disk.file path = .ok bytes → pipe.standardInput = .ok bytes →
        Outcome.AlikeUpTo path standardInputName (runCommand filed env disk)
          (runCommand piped env pipe) ∧
        ((∃ rules, o.rules? = .ok rules) →
          (Outcome.exitCode (runCommand filed env disk) = 2 ↔ ∀ t : Text, bytes ≠ t.bytes) ∧
          (Outcome.exitCode (runCommand piped env pipe) = 2 ↔ ∀ t : Text, bytes ≠ t.bytes) ∧
          ((∀ t : Text, bytes ≠ t.bytes) →
            runCommand filed env disk = .ofFault (.unreadable path .notUtf8) ∧
            runCommand piped env pipe = .ofFault (.unreadable standardInputName .notUtf8))) := by
  have hfile : ∀ disk : Sources Id,
      runCommand filed env disk = o.conclude (fileLines? path (disk.file path)) := fun disk => by
    rw [runCommand_eq_conclude hfiled, Options.inputs?_of_file rfl rfl]
    rfl
  have hpipe : ∀ pipe : Sources Id, runCommand piped env pipe =
      o.conclude (fileLines? standardInputName pipe.standardInput) := fun pipe => by
    rw [runCommand_eq_conclude hpiped, Options.inputs?_of_standardInput rfl rfl]
    rfl
  constructor
  · intro expressions direct file? disk pipe sources hne hlines hdirect hdisk hstandard
    have hexpressions : runCommand direct env sources = o.conclude (.ok expressions) := by
      rw [runCommand_eq_conclude hdirect, Options.inputs?_of_expressions_ne_nil hne]
      rfl
    rw [hexpressions, hfile, hdisk, fileLines?_bytes, hpipe, hstandard, fileLines?_bytes,
      Text.lines_ofLines hlines]
    exact ⟨rfl, rfl⟩
  · intro bytes disk pipe hdisk hstandard
    rw [hfile, hdisk, hpipe, hstandard]
    refine ⟨o.alikeUpTo_conclude path standardInputName (.ok bytes), ?_⟩
    rintro ⟨rules, hrules⟩
    refine ⟨Options.exitCode_conclude_eq_two_iff hrules path bytes,
      Options.exitCode_conclude_eq_two_iff hrules standardInputName bytes, fun h => ?_⟩
    rw [fileLines?_of_forall_ne_bytes h, fileLines?_of_forall_ne_bytes h]
    exact ⟨Options.conclude_error hrules _, Options.conclude_error hrules _⟩

/-- A file and standard input with the expressions `a` and `-i b` on lines of their own are checked
as these two arguments are, and with a byte that is no character both runs fail. -/
theorem runCommand_sources_agree_two_lines :
    let settings :=
      ["--flags=iv".toList, "--deny-warnings".toList, "--format".toList, "json".toList]
    let filed := "-flist".toList :: settings
    let direct := settings ++ ["a".toList, "--".toList, "-i b".toList]
    let lines : Sources Id := ⟨fun _ => .ok (Text.bytes "a\n-i b\n".toList),
      .ok (Text.bytes "a\n-i b\n".toList)⟩
    let broken : Sources Id := ⟨fun _ => .ok [97, 255], .ok [97, 255]⟩
    runCommand filed {} lines = runCommand direct {} lines ∧
      runCommand settings {} lines = runCommand direct {} lines ∧
      Outcome.exitCode (runCommand filed {} broken) = 2 ∧
      Outcome.exitCode (runCommand settings {} broken) = 2 := by
  intro settings filed direct lines broken
  let o : Options := { format? := some .json, flags? := some "iv".toList, denyWarnings := true }
  have hrules : ∃ rules, o.rules? = .ok rules := ⟨_, rfl⟩
  have hnone : ∀ t : Text, [97, 255] ≠ t.bytes := fun t ht => by
    have hdecode : decodeUtf8? [97, 255] = none := by decide
    rw [decodeUtf8?_eq_some_iff.mpr ht] at hdecode
    contradiction
  have hfiled : Request.ofArguments filed {} =
      .ok (.check { o with expressions := [], file? := some "list".toList }) := rfl
  have hpiped : Request.ofArguments settings {} =
      .ok (.check { o with expressions := [], file? := none }) := rfl
  obtain ⟨hlines, hbytes⟩ := runCommand_sources_agree hfiled hpiped
  have hisLine : ∀ t ∈ ["a".toList, "-i b".toList], Text.IsLine t :=
    List.forall_mem_cons.mpr
      ⟨⟨by decide, by decide⟩, List.forall_mem_singleton.mpr ⟨by decide, by decide⟩⟩
  obtain ⟨hfile, hpipe⟩ := hlines ["a".toList, "-i b".toList] direct none lines lines lines
    (by decide) hisLine rfl rfl rfl
  obtain ⟨-, hfail⟩ := hbytes [97, 255] broken broken rfl rfl
  obtain ⟨hfileFails, hpipeFails, -⟩ := hfail hrules
  exact ⟨hfile, hpipe, hfileFails.mpr hnone, hpipeFails.mpr hnone⟩

end PipeLint
