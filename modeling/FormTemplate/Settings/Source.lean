import FormTemplate.Settings.Basic
import FormTemplate.Toml.Document

/-!
# Settings files

A settings file is a TOML document with two sections. What it does not set
keeps its default, and keys it does not know it passes over. A section is
written as a table of its settings; an array of them, in order, does as
well.
-/

namespace FormTemplate

namespace Settings

open Toml

/-- The settings of a section in order: their keys, and how each is set. -/
abbrev Section := List (Text × (Text → Settings → Settings))

/-- The settings of the compiler. -/
def compilerSection : Section :=
  [("runtime_path".toList, fun v s => { s with runtimePath := v }),
    ("attribute_prefix".toList, fun v s => { s with attributePrefix := v })]

/-- The settings of the output. -/
def outputSection : Section :=
  [("function_name".toList, fun v s => { s with functionName := v })]

/-- The sections of a settings file. -/
def sections : List (Text × Section) :=
  [("compiler".toList, compilerSection), ("output".toList, outputSection)]

/-- Passes over a value that sets nothing; it must still be one. -/
def passOver (v : Value) (s : Settings) : Option Settings :=
  if v.isRepresentable then some s else none

/-- Takes over an entry of a section. -/
def applyEntry (fields : Section) (s : Settings) (entry : Text × Value) : Option Settings :=
  match fields.lookup entry.1 with
  | some set => entry.2.string?.map fun v => set v s
  | none => passOver entry.2 s

/-- Takes over the items of a section that is an array. -/
def applyItems (fields : Section) (s : Settings) (items : List Value) : Option Settings :=
  (fields.zip items).foldlM (fun s p => p.2.string?.map fun v => p.1.2 v s) s

/-- Takes over a section. A date sets nothing. -/
def applySection (fields : Section) (s : Settings) : Value → Option Settings
  | .table _ entries => entries.foldlM (applyEntry fields) s
  | .array items => applyItems fields s items
  | .tables earlier last => applyItems fields s (earlier ++ [.table .header last])
  | .dateTime => some s
  | _ => none

/-- Takes over an entry of a settings file. -/
def applyTop (s : Settings) (entry : Text × Value) : Option Settings :=
  match sections.lookup entry.1 with
  | some fields => applySection fields s entry.2
  | none => passOver entry.2 s

/-- The settings that a settings file describes, not yet checked. -/
def ofSource? (source : Text) : Option Settings := do
  (← Entries.ofSource? source).foldlM applyTop {}

/-- The settings with those of one run in their place, checked. -/
def prepare (o : Overrides) (s : Settings) : Except SettingsError Settings :=
  let s := s.override o
  match s.validate with
  | .ok () => .ok s
  | .error flaw => .error (.flawed flaw)

/-- **The settings of a settings file and of one run**, checked. -/
def ofSource (o : Overrides) (source : Text) : Except SettingsError Settings :=
  match ofSource? source with
  | some s => s.prepare o
  | none => .error .malformed

end Settings

end FormTemplate
