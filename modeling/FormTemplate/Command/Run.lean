import FormTemplate.Command.Arguments
import FormTemplate.Settings.Load
import FormTemplate.Template.Compile

/-!
# Running a command

`run` does what the arguments ask for and reports what the user is shown.
A command loads the settings, then reads and compiles its template, and at
last shows or writes what came of it; the first step that fails ends it.
-/

namespace FormTemplate

namespace Command

/-- Why a command fails. -/
inductive Failure where
  /-- There are no settings to work with. -/
  | settings (error : SettingsError)
  /-- The template cannot be read. -/
  | unreadable (path : Text) (error : FileError)
  /-- The template does not compile. -/
  | uncompilable (path : Text) (error : Template.CompileError)
  /-- The generated code cannot be written. -/
  | unwritable (error : FileError)
deriving Repr, DecidableEq

/-- The wording of a failure. -/
def Failure.message : Failure → Text
  | .settings e => e.message
  | .unreadable path e => "Cannot read template ".toList ++ path ++ ": ".toList ++ e.message
  | .uncompilable path e => path ++ ": ".toList ++ e.message
  | .unwritable e => e.message

/-- What the user is shown. -/
structure Transcript where
  /-- The output of the program. -/
  output : Text := []
  /-- Messages, each on a line of its own. -/
  messages : Text := []
  /-- What was done, for those who asked to be told. -/
  log : List Text := []
deriving Repr, DecidableEq

/-- Adds output. -/
def Transcript.print (s : Text) (t : Transcript) : Transcript := { t with output := t.output ++ s }

/-- Adds a message. -/
def Transcript.tell (s : Text) (t : Transcript) : Transcript :=
  { t with messages := t.messages ++ s ++ ['\n'] }

/-- Adds to the log, if there is one. -/
def Transcript.note (wanted : Bool) (s : Text) (t : Transcript) : Transcript :=
  if wanted then { t with log := t.log ++ [s] } else t

/-- What came of a run. -/
structure Report where
  /-- The exit status: 0 for success, 1 for a failure, 2 for arguments that
  ask for nothing. -/
  status : Nat := 0
  /-- What the user is shown. -/
  transcript : Transcript := {}
  /-- Whether that is only how the program is called. -/
  isUsage : Bool := false
deriving Repr, DecidableEq

/-- How the program is called. -/
def usage : Text :=
  ("usage: fw compile TEMPLATE [-c FILE] [--runtime-path PATH] [-f NAME] [-o FILE] [-v]\n" ++
    "       fw check TEMPLATE [-c FILE] [-v]\n" ++
    "       fw --version\n").toList

/-- The name and version of the program. -/
def version : Text := "fw 0.1.0\n".toList

/-- A command in the making: what the user is shown so far, and perhaps a
failure. -/
abbrev CommandM (m : Type → Type) := ExceptT Failure (StateT Transcript m)

variable {m : Type → Type} [Monad m] [FileStore m]

/-- Runs a step on files; its failure is the command's. -/
def attempt {ε α : Type} (failure : ε → Failure) (step : m (Except ε α)) : CommandM m α := do
  match ← (monadLift step : CommandM m (Except ε α)) with
  | .ok a => return a
  | .error e => throw (failure e)

/-- Reads and compiles a template. -/
def compileFile (settings : Settings) (path : Text) (verbose : Bool) :
    CommandM m Template.Program := do
  let template ← attempt (.unreadable path) (FileStore.readText path)
  modify (·.note verbose ("Compiling template ".toList ++ path))
  match Template.compile settings.toOptions template with
  | .ok program => return program
  | .error e => throw (.uncompilable path e)

/-- Does what a verb asks for. -/
def act (environment : Option Text) (verb : Verb) (template : Text)
    (values : List (Switch × Text)) : CommandM m Unit := do
  let config := values.lookup .config
  let verbose := (values.lookup .verbose).isSome
  match verb with
  | .compile =>
    let overrides : Settings.Overrides := {
      runtimePath := (values.lookup .runtimePath).or environment
      functionName := values.lookup .function }
    let settings := (← attempt .settings (Settings.load config overrides)).settings
    let program ← compileFile settings template verbose
    let source := program.source settings.functionName settings.runtimePath
    match values.lookup .output with
    | some path =>
      attempt .unwritable (FileStore.writeText path source)
      modify (·.tell ("Wrote ".toList ++ path))
    | none => modify (·.print source)
  | .check =>
    let loaded ← attempt .settings (Settings.load config {})
    if let some path := loaded.path then modify (·.tell ("Config: ".toList ++ path))
    let program ← compileFile loaded.settings template verbose
    modify (·.tell (template ++ ": OK (".toList ++ Text.decimal program.codeCount
      ++ " code segments)".toList))

/-- **Runs the program** with its arguments; `environment` is the path of
the rendering library for those who do not give it. -/
def run (environment : Option Text) (arguments : List Text) : m Report := do
  match Request.ofArguments arguments with
  | .error e =>
    let t : Transcript := {}
    return { status := 2, transcript := (t.tell e.message).tell usage, isUsage := true }
  | .ok .help => return { transcript := { output := usage }, isUsage := true }
  | .ok .version => return { transcript := { output := version } }
  | .ok (.act verb template values) =>
    let (result, transcript) ← ((act environment verb template values).run.run {} : m _)
    match result with
    | .ok () => return { transcript }
    | .error e =>
      return { status := 1, transcript := transcript.tell ("Error: ".toList ++ e.message) }

end Command

end FormTemplate
