import PipeLint.Text.CharLiteral

/-!
# Faults of a run

What can stop a run before any expression is checked: a flag letter that is none, or an input that
cannot be read. A fault is told apart from the faults of an expression, which are findings.

## Main definitions

* `PipeLint.ReadFailure`: why an input cannot be read.
* `PipeLint.Fault`: why a run stops, with its wording `Fault.message`.
-/

namespace PipeLint

/-- Why an input cannot be read. -/
inductive ReadFailure where
  /-- There is no file of the given name. -/
  | noSuchFile
  /-- The given name is that of a directory. -/
  | isDirectory
  /-- The bytes are not valid UTF-8. -/
  | notUtf8
  /-- Any other reason, in words. -/
  | other (description : Text)
deriving DecidableEq, Repr

/-- The reason in words. -/
def ReadFailure.description : ReadFailure → Text
  | noSuchFile => "No such file or directory (os error 2)".toList
  | isDirectory => "Is a directory (os error 21)".toList
  | notUtf8 => "stream did not contain valid UTF-8".toList
  | other description => description

/-- Why a run stops. -/
inductive Fault where
  /-- A letter that was to be supported can never stand in a group of flags. -/
  | invalidFlagLetter (letter : Char)
  /-- An input cannot be read. -/
  | unreadable (path : Text) (failure : ReadFailure)
deriving DecidableEq, Repr

/-- The wording of a fault. -/
def Fault.message : Fault → Text
  | invalidFlagLetter letter => "invalid flag letter: ".toList ++ Text.charLiteral letter
  | unreadable path failure => path ++ ": ".toList ++ failure.description

end PipeLint
