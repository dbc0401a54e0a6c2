import PipeLint.Command.Run

/-!
# The command

Reads the arguments, the environment and the inputs, and prints what the run says.
-/

namespace PipeLint

/-- The reason that the system gives for a failed read. -/
def ReadFailure.ofError : IO.Error → ReadFailure
  | .noFileOrDirectory .. => .noSuchFile
  | .inappropriateType _ _ _ => .isDirectory
  | e => .other e.toString.toList

/-- Reads bytes, and turns a failure into a value. -/
def readBytes (read : IO ByteArray) : IO (Except ReadFailure (List UInt8)) := do
  try
    return .ok (← read).toList
  catch e =>
    return .error (.ofError e)

/-- The files and the standard input of the process. -/
def processSources : Sources IO where
  file path := readBytes (IO.FS.readBinFile (String.ofList path))
  standardInput := readBytes do (← IO.getStdin).readBinToEnd

/-- The environment of the process. -/
def processEnvironment : IO Environment := do
  return {
    flags? := (← IO.getEnv "GREPCHECK_FLAGS").map String.toList
    format? := (← IO.getEnv "GREPCHECK_FORMAT").map String.toList }

end PipeLint

/-- Checks the expressions that the arguments name. -/
def main (args : List String) : IO UInt32 := do
  let outcome ← PipeLint.runCommand (args.map String.toList) (← PipeLint.processEnvironment)
    PipeLint.processSources
  IO.print (String.ofList outcome.output)
  IO.eprint (String.ofList outcome.complaint)
  return outcome.exitCode.toUInt32
