import PipeLint.Text.Basic

/-!
# Command-line options

The arguments of the command are expressions and options in any order. They are taken from left to
right: a request for the version or for help is granted when it is reached, so only what stands to
its left can be wrong. Two options may also be set through the environment, which is looked at only
for options that were not given.

## Main definitions

* `PipeLint.Options`: what the arguments ask for.
* `PipeLint.Argument`: what one argument is, seen by itself.
* `PipeLint.Misuse`: why arguments cannot be understood.
* `PipeLint.Request.ofArguments`: the request that arguments and environment make.
-/

namespace PipeLint

/-- How reports are printed. -/
inductive Format where
  /-- For people to read. -/
  | text
  /-- As JSON, one report on a line. -/
  | json
deriving DecidableEq, Repr

/-- The format with a name. -/
def Format.ofName? (t : Text) : Option Format :=
  if t = "text".toList then some text else if t = "json".toList then some json else none

/-- The options that take a value. -/
inductive Setting where
  /-- The file whose lines are checked. -/
  | file
  /-- The format of the reports. -/
  | format
  /-- The flag letters that are supported. -/
  | flags
deriving DecidableEq, Repr

/-- Why arguments cannot be understood. -/
inductive Misuse where
  /-- An argument looks like an option but is none. -/
  | unknownOption (argument : Text)
  /-- An option that takes no value has one. -/
  | unexpectedValue (argument : Text)
  /-- An option that takes a value has none. -/
  | missingValue (setting : Setting)
  /-- An option has a value that it does not allow. -/
  | invalidValue (setting : Setting) (value : Text)
  /-- An option is given twice. -/
  | repeatedSetting (setting : Setting)
  /-- The option that denies warnings is given twice. -/
  | repeatedDenyWarnings
deriving DecidableEq, Repr

/-! ### One argument -/

/-- What an argument is, seen by itself. -/
inductive Argument where
  /-- An expression to check. -/
  | expression (t : Text)
  /-- The mark behind which all arguments are expressions. -/
  | endOfOptions
  /-- An option that takes a value, with its value if that is part of the argument. -/
  | setting (s : Setting) (value? : Option Text)
  /-- The option that makes warnings count as failures. -/
  | denyWarnings
  /-- A request for the version. -/
  | version
  /-- A request for help. -/
  | help
  /-- An argument that cannot be understood. -/
  | misuse (m : Misuse)
deriving DecidableEq, Repr

namespace Argument

/-- Whether a text looks like an option: a dash and something after it. -/
def looksLikeOption : Text → Bool
  | '-' :: _ :: _ => true
  | _ => false

/-- The part of a text behind its first equals sign, if it has one. -/
def attachedValue? (t : Text) : Option Text :=
  match t.dropWhile (· ≠ '=') with
  | [] => none
  | _ :: value => some value

/-- The option with a long name, given without the two dashes. -/
def ofLongName (t : Text) : Argument :=
  let value? := attachedValue? t
  let whole := "--".toList ++ t
  let plain (a : Argument) := if value?.isNone then a else misuse (.unexpectedValue whole)
  let name := t.takeWhile (· ≠ '=')
  if name = "file".toList then setting .file value?
  else if name = "format".toList then setting .format value?
  else if name = "flags".toList then setting .flags value?
  else if name = "deny-warnings".toList then plain denyWarnings
  else if name = "version".toList then plain version
  else if name = "help".toList then plain help
  else misuse (.unknownOption whole)

/-- The option with a short name, given the letter and what follows it in the argument: a value,
with or without an equals sign before it. Options without a value act at once, whatever follows. -/
def ofShortName (c : Char) (t : Text) : Argument :=
  match c, t with
  | 'f', [] => setting .file none
  | 'f', '=' :: value => setting .file (some value)
  | 'f', value => setting .file (some value)
  | 'V', _ => version
  | 'h', _ => help
  | c, t => misuse (.unknownOption ('-' :: c :: t))

/-- What an argument is. -/
def ofText (t : Text) : Argument :=
  match t with
  | ['-', '-'] => endOfOptions
  | '-' :: '-' :: t => ofLongName t
  | '-' :: c :: t => ofShortName c t
  | t => expression t

end Argument

/-! ### All arguments -/

/-- What the arguments ask for. -/
structure Options where
  /-- The expressions to check, in the order of the arguments. -/
  expressions : List Text := []
  /-- The file whose lines are checked. -/
  file? : Option Text := none
  /-- The format of the reports. -/
  format? : Option Format := none
  /-- The flag letters that are supported. -/
  flags? : Option Text := none
  /-- Whether warnings count as failures. -/
  denyWarnings : Bool := false
deriving DecidableEq, Repr

/-- The values that the environment has for options that are not given. -/
structure Environment where
  /-- The flag letters that are supported. -/
  flags? : Option Text := none
  /-- The name of the format of the reports. -/
  format? : Option Text := none
deriving DecidableEq, Repr

/-- What the command is to do. -/
inductive Request where
  /-- Check expressions. -/
  | check (o : Options)
  /-- Print the version. -/
  | version
  /-- Print how the command is used. -/
  | help
deriving DecidableEq, Repr

namespace Options

/-- The format of the reports; without a choice they are for people to read. -/
def format (o : Options) : Format :=
  o.format?.getD .text

/-- The options with a format of the given name. -/
def setFormat (o : Options) (name : Text) : Except Misuse Options :=
  match Format.ofName? name with
  | some format => .ok { o with format? := some format }
  | none => .error (.invalidValue .format name)

/-- The options with one more option that takes a value. No option may be given twice; the name of
a file may not be empty, while no letters at all are a value for the flags. -/
def set (o : Options) (s : Setting) (value : Text) : Except Misuse Options :=
  match s with
  | .file =>
    if o.file?.isSome then .error (.repeatedSetting .file)
    else if value = [] then .error (.invalidValue .file value)
    else .ok { o with file? := some value }
  | .format => if o.format?.isSome then .error (.repeatedSetting .format) else o.setFormat value
  | .flags =>
    if o.flags?.isSome then .error (.repeatedSetting .flags)
    else .ok { o with flags? := some value }

/-- The request that arguments make after those that the options come from. The value of an option
is part of its argument or the argument after it, unless that looks like an option. -/
def read (o : Options) : List Text → Except Misuse Request
  | [] => .ok (.check o)
  | argument :: arguments =>
    match Argument.ofText argument with
    | .expression t => read { o with expressions := o.expressions ++ [t] } arguments
    | .endOfOptions => .ok (.check { o with expressions := o.expressions ++ arguments })
    | .setting s (some value) => (o.set s value).bind fun o => read o arguments
    | .setting s none =>
      match arguments with
      | [] => .error (.missingValue s)
      | value :: arguments =>
        if Argument.looksLikeOption value then .error (.missingValue s)
        else (o.set s value).bind fun o => read o arguments
    | .denyWarnings =>
      if o.denyWarnings then .error .repeatedDenyWarnings
      else read { o with denyWarnings := true } arguments
    | .version => .ok .version
    | .help => .ok .help
    | .misuse m => .error m

/-- The options with what the environment has for those that are not given. -/
def complete (o : Options) (env : Environment) : Except Misuse Options :=
  let o := { o with flags? := o.flags?.or env.flags? }
  match o.format?, env.format? with
  | none, some name => o.setFormat name
  | _, _ => .ok o

end Options

/-- The request that arguments and environment make. -/
def Request.ofArguments (arguments : List Text) (env : Environment) : Except Misuse Request :=
  (Options.read {} arguments).bind fun request =>
    match request with
    | .check o => (o.complete env).map .check
    | request => .ok request

end PipeLint
