import FormTemplate.File.Store
import FormTemplate.Template.Generation

/-!
# Settings

What a project chooses about compiling its templates. Settings are valid
when code can be generated from them: `Settings.validate` gives the first
reason why not.
-/

namespace FormTemplate

/-- The settings of a project. -/
structure Settings extends Template.Options where
  /-- The name of the generated function. -/
  functionName : Text := "render".toList
deriving Repr, DecidableEq

namespace Settings

/-- Why settings are not valid. -/
inductive Flaw where
  /-- The path of the rendering library is empty. -/
  | emptyRuntimePath
  /-- What stands before attribute names is empty. -/
  | emptyAttributePrefix
  /-- What stands before attribute names does not end in a colon. -/
  | attributePrefixWithoutColon
  /-- The name of the generated function is no identifier. -/
  | notAnIdentifier (functionName : Text)
deriving Repr, DecidableEq

/-- The wording of a flaw. -/
def Flaw.message : Flaw → Text
  | .emptyRuntimePath => "compiler.runtime_path cannot be empty".toList
  | .emptyAttributePrefix => "compiler.attribute_prefix cannot be empty".toList
  | .attributePrefixWithoutColon => "compiler.attribute_prefix must end with ':'".toList
  | .notAnIdentifier name =>
    "output.function_name must be a Rust identifier, got '".toList ++ name ++ ['\'']

/-- Whether a character may begin an identifier. -/
def isIdentifierStart (c : Char) : Bool := c == '_' || c.isAlpha

/-- Whether a character may continue an identifier. -/
def isIdentifierPart (c : Char) : Bool := c == '_' || c.isAlphanum

/-- Whether a name is written as an identifier, in ASCII. -/
def isIdentifier : Text → Bool
  | [] => false
  | c :: s => isIdentifierStart c && s.all isIdentifierPart

/-- **Checks the settings.** -/
def validate (s : Settings) : Except Flaw Unit :=
  if s.runtimePath.isEmpty then .error .emptyRuntimePath
  else if s.attributePrefix.isEmpty then .error .emptyAttributePrefix
  else if s.attributePrefix.getLast? ≠ some ':' then .error .attributePrefixWithoutColon
  else if isIdentifier s.functionName then .ok ()
  else .error (.notAnIdentifier s.functionName)

/-- Settings given for one run, which go before those of the project. -/
structure Overrides where
  /-- The path of the rendering library. -/
  runtimePath : Option Text := none
  /-- The name of the generated function. -/
  functionName : Option Text := none
deriving Repr, DecidableEq

/-- The settings with those of one run in their place. -/
def override (o : Overrides) (s : Settings) : Settings :=
  { s with
    runtimePath := o.runtimePath.getD s.runtimePath
    functionName := o.functionName.getD s.functionName }

end Settings

/-- Why there are no settings to work with. -/
inductive SettingsError where
  /-- The settings file that was asked for is not there. -/
  | notFound (path : Text)
  /-- The settings file cannot be read. -/
  | unreadable (error : FileError)
  /-- The settings file is no TOML document, or a setting has the wrong
  type. -/
  | malformed
  /-- The settings are not valid. -/
  | flawed (flaw : Settings.Flaw)
deriving Repr, DecidableEq

/-- The wording of a settings error. -/
def SettingsError.message : SettingsError → Text
  | .notFound path => "Configuration file not found: ".toList ++ path
  | .unreadable e => "I/O error: ".toList ++ e.message
  | .malformed => "TOML parse error: not a valid settings document".toList
  | .flawed flaw => "Configuration error: ".toList ++ flaw.message

end FormTemplate
