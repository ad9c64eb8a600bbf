import DiagramView.CommandLine

/-!
# The program

Reads what the arguments name, runs the command line on it, and prints what it leaves. Programs are
never started from here, so an external engine always reports that its program cannot be run.
-/

namespace DiagramView.Program

/-- Why reading a file failed. -/
def fileErrorOf : IO.Error → FileError
  | .noFileOrDirectory .. => .notFound
  | .permissionDenied .. => .permissionDenied
  | .inappropriateType _ code _ => if code = 21 then .isAFolder else .notAFolder
  | .invalidArgument _ code _ => if code = 36 then .nameTooLong else .nullInPath
  | _ => .notFound

/-- Reads a file. -/
def readFileBytes (path : String) : IO (Except FileError (List UInt8)) := do
  try
    return .ok (← IO.FS.readBinFile path).toList
  catch e =>
    return .error (fileErrorOf e)

/-- Reads standard input to its end. -/
def readInputBytes : IO (List UInt8) := do
  return (← (← IO.getStdin).readBinToEnd).toList

/-- The surroundings of a run: the files and settings that the arguments may ask for. -/
def surroundings (args : List String) : IO CommandLine.Environment := do
  let options := (CommandLine.parse args).getD {}
  let sources := [options.payload, options.runResult].filterMap id
  let paths := options.config.toList ++ sources.filter (· ≠ "-")
  let files ← paths.mapM fun path => return (path, ← readFileBytes path)
  let stdin ← if sources.contains "-" then readInputBytes else pure []
  let settings ← ["CODELENS_MMDC", "CODELENS_LOG"].mapM fun name =>
    return (name, ← IO.getEnv name)
  return {
    setting := fun name => (settings.lookup name).join
    fileBytes := fun path => (files.lookup path).getD (.error .notFound)
    stdin
    launch := fun _ => .error .permissionDenied }

end DiagramView.Program

/-- Shows one panel of an analysis result. -/
def main (args : List String) : IO UInt32 := do
  let report := DiagramView.CommandLine.run (← DiagramView.Program.surroundings args) args
  for event in report.log do
    IO.eprintln event.line
  IO.eprint report.stderr
  IO.print report.stdout
  return report.exitCode.toUInt32
