import FormTemplate.Command.Run

/-!
# The program

The command line: `main` runs a command on the files of the system and
shows its report.
-/

namespace FormTemplate

namespace Program

/-- Whether an error code is the given number; the system reports it with
or without a minus sign. -/
def isCode (number code : UInt32) : Bool := code == number || code == 0 - number

/-- A file error of the system. -/
def fileError : IO.Error → FileError
  | .noFileOrDirectory .. => .notFound
  | .inappropriateType path code details =>
    if isCode 20 code then .notADirectory
    else if isCode 21 code then .isADirectory
    else .other (toString (IO.Error.inappropriateType path code details)).toList
  | .invalidArgument path code details =>
    if isCode 36 code then .nameTooLong
    else .other (toString (IO.Error.invalidArgument path code details)).toList
  | e => .other (toString e).toList

/-- The result of a step, its error turned into a file error. -/
def caught {α : Type} (step : IO α) : IO (Except FileError α) := do
  match ← step.toBaseIO with
  | .ok a => return .ok a
  | .error e => return .error (fileError e)

/-- The files of the system. -/
instance : FileStore IO where
  workingDirectory := do
    match ← caught IO.currentDir with
    | .ok directory => return some directory.toString.toList
    | .error _ => return none
  hasPath path := do
    return (← caught (IO.FS.Handle.mk (String.ofList path) .read)).toBool
  read path := caught do
    return (← IO.FS.readBinFile (String.ofList path)).toList
  write path content := caught do
    IO.FS.writeBinFile (String.ofList path) ⟨content.toArray⟩

/-- Shows a report and gives its exit status. -/
def present (report : Command.Report) : IO UInt32 := do
  for line in report.transcript.log do
    (← IO.getStderr).putStrLn (String.ofList line)
  (← IO.getStderr).putStr (String.ofList report.transcript.messages)
  (← IO.getStdout).putStr (String.ofList report.transcript.output)
  return UInt32.ofNat report.status

end Program

end FormTemplate

/-- Runs the program. -/
def main (arguments : List String) : IO UInt32 := do
  let environment := (← IO.getEnv "FW_RUNTIME_PATH").map String.toList
  let arguments := arguments.map String.toList
  FormTemplate.Program.present (← FormTemplate.Command.run environment arguments)
