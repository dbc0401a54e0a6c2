import PipeLint.Command.Fault
import PipeLint.Command.Options
import PipeLint.Report.Json
import PipeLint.Report.Render
import PipeLint.Rules
import PipeLint.Text.Lines

/-!
# Runs of the command

A run checks the flag letters first, then reads all of its inputs, and only then prints: a run that
fails prints no reports. The inputs are the expressions among the arguments; without any, the lines
of the file; without a file, the lines of standard input. Reading is left to the caller, which may
read in any monad.

## Main definitions

* `PipeLint.Sources`: where a run reads from.
* `PipeLint.Outcome`: what a run prints, and its exit code.
* `PipeLint.Options.run`, `PipeLint.Request.run`: the run that options and a request lead to.
* `PipeLint.runCommand`: the run that arguments lead to.
-/

namespace PipeLint

/-- Where a run reads from. -/
structure Sources (m : Type → Type) where
  /-- Reads the bytes of a file. -/
  file (path : Text) : m (Except ReadFailure (List UInt8))
  /-- Reads the bytes of standard input. -/
  standardInput : m (Except ReadFailure (List UInt8))

/-- What a run prints, and its exit code. -/
structure Outcome where
  /-- The exit code: 0 if all is well, 1 if an expression failed, 2 if there was no checking. -/
  exitCode : Nat
  /-- What is printed on standard output. -/
  output : Text := []
  /-- What is printed on standard error. -/
  complaint : Text := []
deriving DecidableEq, Repr

namespace Outcome

/-- The outcome of a run that a fault stops. -/
def ofFault (f : Fault) : Outcome where
  exitCode := 2
  complaint := "Error: ".toList ++ f.message ++ ['\n']

end Outcome

/-! ### Inputs -/

/-- The name under which standard input appears in faults. -/
def standardInputName : Text :=
  "<stdin>".toList

/-- The lines of a file. A file is decoded as a whole. -/
def fileLines? (path : Text) (content : Except ReadFailure (List UInt8)) :
    Except Fault (List Text) :=
  match content with
  | .error failure => .error (.unreadable path failure)
  | .ok bytes =>
    match decodeUtf8? bytes with
    | none => .error (.unreadable path .notUtf8)
    | some t => .ok t.lines

/-- The lines of standard input, which is decoded line by line. -/
def standardInputLines? (content : Except ReadFailure (List UInt8)) : Except Fault (List Text) :=
  match content with
  | .error failure => .error (.unreadable standardInputName failure)
  | .ok bytes =>
    match decodeLines? bytes with
    | none => .error (.unreadable standardInputName .notUtf8)
    | some lines => .ok lines

namespace Options

variable {m : Type → Type} [Monad m]

/-- The expressions that a run checks. -/
def inputs? (o : Options) (sources : Sources m) : m (Except Fault (List Text)) :=
  match o.expressions, o.file? with
  | [], some path => fileLines? path <$> sources.file path
  | [], none => standardInputLines? <$> sources.standardInput
  | expressions, _ => pure (.ok expressions)

/-! ### Reports -/

/-- The rules that a run checks against, or the first letter that is no flag letter. -/
def rules? (o : Options) : Except Char Rules :=
  match o.flags? with
  | none => .ok {}
  | some letters => Rules.withFlags? {} letters

/-- Whether a report counts as a success. -/
def accepts (o : Options) (r : Report) : Bool :=
  r.isValid && !(o.denyWarnings && r.hasWarnings)

/-- What is printed about one of several inputs. In text, an input that is not the only one stands
before its report. -/
def reportOutput (o : Options) (count : Nat) (input : Text) (r : Report) : Text :=
  match o.format with
  | .text => (if 1 < count then input ++ ['\n'] else []) ++ r.render input
  | .json => r.json ++ ['\n']

/-- The outcome of checking inputs. -/
def check (o : Options) (rules : Rules) (inputs : List Text) : Outcome :=
  let count := inputs.length
  { exitCode := if inputs.all fun input => o.accepts (rules.report input) then 0 else 1
    output := inputs.flatMap fun input => o.reportOutput count input (rules.report input) }

/-- The run that options lead to. -/
def run (o : Options) (sources : Sources m) : m Outcome :=
  match o.rules? with
  | .error letter => pure (.ofFault (.invalidFlagLetter letter))
  | .ok rules => do
    match ← o.inputs? sources with
    | .error fault => return .ofFault fault
    | .ok inputs => return o.check rules inputs

end Options

/-! ### The command -/

/-- The text that names the program and its version. -/
def versionText : Text :=
  "grepcheck 0.1.0\n".toList

/-- The text that shows how the command is called. -/
def usageText : Text :=
  "Usage: grepcheck [OPTIONS] [EXPRESSIONS]...\n".toList

/-- The text that shows how the command is used. -/
def helpText : Text :=
  "Validate piped grep-style filter expressions\n\n".toList ++ usageText ++
    "\nOptions:\n".toList ++
    "  -f, --file <FILE>      Validate each line of a file\n".toList ++
    "      --format <FORMAT>  Output format: text or json\n".toList ++
    "      --flags <FLAGS>    Supported flag letters, replacing the default set\n".toList ++
    "      --deny-warnings    Treat warnings as failures\n".toList ++
    "  -h, --help             Print help\n".toList ++
    "  -V, --version          Print version\n".toList

/-- The name of an option that takes a value. -/
def Setting.name : Setting → Text
  | file => "--file".toList
  | format => "--format".toList
  | flags => "--flags".toList

/-- The wording of a misuse. -/
def Misuse.message : Misuse → Text
  | unknownOption argument => "unknown option ".toList ++ argument
  | unexpectedValue argument => "unexpected value in ".toList ++ argument
  | missingValue setting => "missing value for ".toList ++ setting.name
  | invalidValue setting value =>
    "invalid value for ".toList ++ setting.name ++ ": ".toList ++ value
  | repeatedSetting setting => "more than one ".toList ++ setting.name
  | repeatedDenyWarnings => "more than one --deny-warnings".toList

/-- The outcome of a run with arguments that cannot be understood. -/
def Outcome.ofMisuse (m : Misuse) : Outcome where
  exitCode := 2
  complaint := "error: ".toList ++ m.message ++ "\n\n".toList ++ usageText

/-- The run that a request leads to. -/
def Request.run {m : Type → Type} [Monad m] (r : Request) (sources : Sources m) : m Outcome :=
  match r with
  | .check o => o.run sources
  | .version => pure { exitCode := 0, output := versionText }
  | .help => pure { exitCode := 0, output := helpText }

/-- The run that arguments and environment lead to. -/
def runCommand {m : Type → Type} [Monad m] (arguments : List Text) (env : Environment)
    (sources : Sources m) : m Outcome :=
  match Request.ofArguments arguments env with
  | .error misuse => pure (.ofMisuse misuse)
  | .ok request => request.run sources

end PipeLint
