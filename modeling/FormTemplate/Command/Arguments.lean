import FormTemplate.Text.Basic

/-!
# Arguments of the command line

`Request.ofArguments` reads what a run of the program is asked for. A
switch may be written short or long, its value attached or as the next
argument; short switches may be joined, and two dashes end the switches. A
request for help or for the version counts as soon as it is met, any other
request only when all arguments are read.
-/

namespace FormTemplate

namespace Command

/-! ## Verbs and switches -/

/-- What the program can be asked to do with a template. -/
inductive Verb where
  /-- Generate its code. -/
  | compile
  /-- Say whether its code can be generated. -/
  | check
deriving Repr, DecidableEq

/-- A switch of a verb. -/
inductive Switch where
  /-- The settings file to work with. -/
  | config
  /-- The path of the rendering library. -/
  | runtimePath
  /-- The name of the generated function. -/
  | function
  /-- The file to write to. -/
  | output
  /-- Tell what is done. -/
  | verbose
deriving Repr, DecidableEq

namespace Switch

/-- The name after two dashes. -/
def long : Switch → Text
  | config => "config".toList
  | runtimePath => "runtime-path".toList
  | function => "function".toList
  | output => "output".toList
  | verbose => "verbose".toList

/-- The letter after one dash. -/
def short? : Switch → Option Char
  | config => some 'c'
  | runtimePath => none
  | function => some 'f'
  | output => some 'o'
  | verbose => some 'v'

/-- Whether the switch has a value. -/
def hasValue (w : Switch) : Bool := w != verbose

/-- Whether the value is a path, which may not be empty. -/
def isPath (w : Switch) : Bool := w == config || w == output

end Switch

namespace Verb

/-- The verb of a name. -/
def ofName? (name : Text) : Option Verb :=
  [("compile".toList, compile), ("check".toList, check)].lookup name

/-- The switches of a verb. -/
def switches : Verb → List Switch
  | compile => [.config, .runtimePath, .function, .output, .verbose]
  | check => [.config, .verbose]

end Verb

/-! ## Requests -/

/-- What a run of the program is asked for. -/
inductive Request where
  /-- How the program is called. -/
  | help
  /-- The version of the program. -/
  | version
  /-- To do something with a template. -/
  | act (verb : Verb) (template : Text) (values : List (Switch × Text))
deriving Repr, DecidableEq

/-- Why arguments ask for nothing. -/
inductive UsageError where
  /-- There is no verb. -/
  | noVerb
  /-- No verb has the name. -/
  | unknownVerb (name : Text)
  /-- The verb has no such switch. -/
  | unknownSwitch (written : Text)
  /-- A switch stands there without its value. -/
  | missingValue (switch : Switch)
  /-- A switch that has no value stands there with one. -/
  | needlessValue (written : Text)
  /-- A path is empty. -/
  | emptyPath
  /-- A switch stands there twice. -/
  | repeated (switch : Switch)
  /-- There is no template. -/
  | noTemplate
  /-- There is more than one template. -/
  | excess (argument : Text)
deriving Repr, DecidableEq

/-- The wording of a usage error. -/
def UsageError.message : UsageError → Text
  | .noVerb => "a command is required".toList
  | .unknownVerb name => "unknown command '".toList ++ name ++ ['\'']
  | .unknownSwitch written => "unknown option '".toList ++ written ++ ['\'']
  | .missingValue switch => "a value is required for --".toList ++ switch.long
  | .needlessValue written => "no value is expected in '".toList ++ written ++ ['\'']
  | .emptyPath => "a path may not be empty".toList
  | .repeated switch => "more than one --".toList ++ switch.long
  | .noTemplate => "a template is required".toList
  | .excess argument => "unexpected argument '".toList ++ argument ++ ['\'']

/-- What ends the reading of arguments early. -/
inductive Interruption where
  /-- A request that counts as soon as it is met. -/
  | request (request : Request)
  /-- An error. -/
  | usage (error : UsageError)
deriving Repr, DecidableEq

/-! ## Reading the arguments of a verb -/

/-- The arguments of a verb read so far. -/
structure Reading where
  /-- The template. -/
  template : Option Text := none
  /-- The switches with their values, which are empty for a switch that has
  none. -/
  values : List (Switch × Text) := []
  /-- The switch whose value has to come next. -/
  awaiting : Option Switch := none
deriving Repr, DecidableEq

/-- A step of reading arguments. -/
abbrev Step := Except Interruption Reading

/-- The step that fails. -/
def wrong {α : Type} (e : UsageError) : Except Interruption α := .error (.usage e)

namespace Reading

/-- A switch with its value. -/
def give (r : Reading) (switch : Switch) (value : Text) : Step :=
  if (r.values.lookup switch).isSome then wrong (.repeated switch)
  else if switch.isPath && value.isEmpty then wrong .emptyPath
  else .ok { r with values := r.values ++ [(switch, value)], awaiting := none }

/-- A switch whose value is the next argument. -/
def await (r : Reading) (switch : Switch) : Step := .ok { r with awaiting := some switch }

/-- The template. -/
def place (r : Reading) (argument : Text) : Step :=
  if r.template.isSome then wrong (.excess argument)
  else if argument.isEmpty then wrong .emptyPath
  else .ok { r with template := some argument }

/-- A long switch, its value perhaps after an equals sign. -/
def long (verb : Verb) (r : Reading) (written : Text) : Step :=
  let (name, value?) := match Text.cut? '=' written with
    | some (name, value) => (name, some value)
    | none => (written, none)
  if name == "help".toList then
    if value?.isSome then wrong (.needlessValue written) else .error (.request .help)
  else
    match verb.switches.find? (·.long == name) with
    | none => wrong (.unknownSwitch written)
    | some switch =>
      match switch.hasValue, value? with
      | true, some value => r.give switch value
      | true, none => r.await switch
      | false, some _ => wrong (.needlessValue written)
      | false, none => r.give switch []

/-- Joined short switches. The value of one that has a value is all that
follows its letter, without an equals sign right after it. -/
def short (verb : Verb) (r : Reading) : Text → Step
  | [] => .ok r
  | c :: rest =>
    if c == 'h' then .error (.request .help)
    else
      match verb.switches.find? (·.short? == some c) with
      | none => wrong (.unknownSwitch [c])
      | some switch =>
        if !switch.hasValue then do (← r.give switch []).short verb rest
        else
          match rest with
          | [] => r.await switch
          | '=' :: value => r.give switch value
          | value => r.give switch value

/-- The step for an argument in front of the two dashes that end the
switches. A single dash is no switch. -/
def argument (verb : Verb) (r : Reading) (a : Text) : Step :=
  match r.awaiting, a with
  | some switch, '-' :: _ :: _ => wrong (.missingValue switch)
  | some switch, value => r.give switch value
  | none, '-' :: '-' :: written => r.long verb written
  | none, '-' :: c :: rest => r.short verb (c :: rest)
  | none, a => r.place a

/-- Reads the arguments of a verb. -/
def all (verb : Verb) (r : Reading) : List Text → Step
  | [] => .ok r
  | a :: as =>
    if a == ['-', '-'] && r.awaiting.isNone then as.foldlM place r
    else do (← r.argument verb a).all verb as

/-- The request that the arguments of a verb make. -/
def finish (verb : Verb) (r : Reading) : Except UsageError Request :=
  match r.awaiting, r.template with
  | some switch, _ => .error (.missingValue switch)
  | none, none => .error .noTemplate
  | none, some template => .ok (.act verb template r.values)

end Reading

namespace Request

/-- The request that a verb and its arguments make. -/
def ofVerb (verb : Verb) (arguments : List Text) : Except UsageError Request :=
  match Reading.all verb {} arguments with
  | .ok r => r.finish verb
  | .error (.request request) => .ok request
  | .error (.usage e) => .error e

/-- A request for help on a command, if it is one. -/
def ofHelp : List Text → Except UsageError Request
  | [] => .ok .help
  | [name] =>
    if (Verb.ofName? name).isSome || name == "help".toList then .ok .help
    else .error (.unknownVerb name)
  | _ :: name :: _ => .error (.unknownVerb name)

/-- The request of a switch in front of a verb. -/
def ofSwitch (written : Text) : Except UsageError Request :=
  if written == "--version".toList || ['-', 'V'].isPrefixOf written then .ok .version
  else if written == "--help".toList || ['-', 'h'].isPrefixOf written then .ok .help
  else .error (.unknownSwitch written)

/-- **What a run with these arguments is asked for.** -/
def ofArguments : List Text → Except UsageError Request
  | [] => .error .noVerb
  | a :: as =>
    match Verb.ofName? a, a with
    | some verb, _ => ofVerb verb as
    | none, '-' :: _ :: _ => ofSwitch a
    | none, _ => if a == "help".toList then ofHelp as else .error (.unknownVerb a)

end Request

end Command

end FormTemplate
