import FormTemplate.Settings.Source

/-!
# Loading settings

The settings of a project are in a file: the one that is asked for, or else
the one found in the working directory or the nearest directory above it.
A project without one has the default settings.
-/

namespace FormTemplate

namespace Settings

/-- The name of the settings file. -/
def fileName : Text := "formwire.toml".toList

/-- The paths where the settings file of a working directory may be, the
nearest first. -/
def candidates (directory : Text) : List Text :=
  let names := (Text.pieces (· == '/') directory).filter (!·.isEmpty)
  (List.range (names.length + 1)).reverse.map fun n =>
    (names.take n).flatMap ('/' :: ·) ++ '/' :: fileName

/-- Settings, and the file they come from if there is one. -/
structure Loaded where
  /-- The settings, checked. -/
  settings : Settings
  /-- The path of their file. -/
  path : Option Text := none
deriving Repr, DecidableEq

variable {m : Type → Type} [Monad m] [FileStore m]

/-- The path of the settings file of the working directory. -/
def discover : m (Option Text) := do
  match ← FileStore.workingDirectory with
  | some directory => (candidates directory).findM? FileStore.hasPath
  | none => return none

/-- Loads the settings file at a path. -/
def loadFrom (path : Text) (o : Overrides) : m (Except SettingsError Loaded) := do
  match ← FileStore.readText path with
  | .error e => return .error (.unreadable e)
  | .ok source => return (ofSource o source).map fun settings => { settings, path := some path }

/-- **Loads the settings** from the file that is asked for, or from the one
that is found. -/
def load (path : Option Text) (o : Overrides) : m (Except SettingsError Loaded) := do
  match path with
  | some path =>
    if ← FileStore.hasPath path then loadFrom path o else return .error (.notFound path)
  | none =>
    match ← discover with
    | some path => loadFrom path o
    | none => return (prepare o {}).map fun settings => { settings }

end Settings

end FormTemplate
