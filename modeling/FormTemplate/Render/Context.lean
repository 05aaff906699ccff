import FormTemplate.Form.Basic

/-!
# Rendering contexts

A rendered template works in a context: the form, container, control and
label in effect. Binding one of them gives a new context and leaves the old
one as it was, so the end of a block brings the outer binding back. The
components themselves stay in the registry; a context names them by their
place in it, and all contexts see the same markers.
-/

namespace FormTemplate

namespace Render

open Form Markup

/-- Why a step of a rendered template fails. -/
inductive RenderError where
  /-- No form is in effect. -/
  | noForm
  /-- No container is in effect. -/
  | noContainer
  /-- No control is in effect. -/
  | noInput
  /-- A name was not found. -/
  | lookup (error : LookupError)
deriving Repr, DecidableEq

/-- The wording of an error. -/
def RenderError.message : RenderError → Text
  | .noForm => "no form is bound; use \x7bform\x7d first".toList
  | .noContainer => "no form container is bound".toList
  | .noInput => "no input is bound".toList
  | .lookup e => e.message

/-- A place in a registry: a form, and the names on the way from its root. -/
structure Place where
  /-- The form's name. -/
  form : Text
  /-- The names from the root on. -/
  path : List Text := []
deriving Repr, DecidableEq

namespace Place

/-- The place of a component of the container at a place. -/
def child (p : Place) (name : Text) : Place := { p with path := p.path ++ [name] }

end Place

/-- A step that looks something up. -/
abbrev Found (α : Type) := Except RenderError α

/-- Counts a lookup error among the rendering errors. -/
def ofLookup {α : Type} : Except LookupError α → Found α
  | .ok a => .ok a
  | .error e => .error (.lookup e)

/-! ## Places in a registry -/

/-- The form of a name. -/
def formNamed (r : Registry) (name : Text) : Found Form := ofLookup (r.form name)

/-- The container at a place. -/
def containerAt (r : Registry) (p : Place) : Found Container := do
  ofLookup ((← formNamed r p.form).root.containerAt p.path)

/-- The control at a place. -/
def controlAt (r : Registry) (p : Place) : Found Control := do
  ofLookup ((← formNamed r p.form).root.controlAt p.path)

/-- The registry with the control at a place marked as shown or not. -/
def markAt (p : Place) (shown : Bool) (r : Registry) : Registry :=
  r.modify p.form (Form.modifyRoot (Container.modifyControl p.path (Control.mark shown)))

/-- The form, container, control and label in effect. -/
structure Context where
  /-- The form's name. -/
  form : Option Text := none
  /-- The container's place. -/
  container : Option Place := none
  /-- The control's place. -/
  input : Option Place := none
  /-- The label, if the last control asked for one has it. -/
  label : Option Element := none

/-- What an expression of a template may evaluate to where a component is
wanted: a name to look up, or the component itself, by its place. -/
inductive Target where
  /-- A name, looked up in the registry or in the container in effect. -/
  | named (name : Text)
  /-- A component. -/
  | placed (place : Place)
deriving Repr, DecidableEq

namespace Context

/-! ## What is in effect -/

/-- The name of the form in effect. -/
def currentForm (c : Context) : Found Text :=
  match c.form with
  | some name => .ok name
  | none => .error .noForm

/-- The place of the container in effect. -/
def currentContainer (c : Context) : Found Place :=
  match c.container with
  | some p => .ok p
  | none => .error .noContainer

/-- The place of the control in effect. -/
def currentInput (c : Context) : Found Place :=
  match c.input with
  | some p => .ok p
  | none => .error .noInput

/-! ## Looking up -/

/-- The name of the form that a target stands for. -/
def resolveForm (r : Registry) : Target → Found Text
  | .named name => do return (← formNamed r name).name
  | .placed p => .ok p.form

/-- The place of the container of a name in the container in effect. -/
def containerNamed (r : Registry) (c : Context) (name : Text) : Found Place := do
  let p ← c.currentContainer
  let _ ← ofLookup ((← containerAt r p).container name)
  return p.child name

/-- The place of the control of a name in the container in effect. -/
def controlNamed (r : Registry) (c : Context) (name : Text) : Found Place := do
  let p ← c.currentContainer
  let _ ← ofLookup ((← containerAt r p).control name)
  return p.child name

/-- The place of the container that a target stands for. -/
def resolveContainer (r : Registry) (c : Context) : Target → Found Place
  | .named name => c.containerNamed r name
  | .placed p => .ok p

/-- The place of the control that a target stands for. -/
def resolveControl (r : Registry) (c : Context) : Target → Found Place
  | .named name => c.controlNamed r name
  | .placed p => .ok p

/-! ## Binding -/

/-- Binds a form and its root. -/
def enterForm (name : Text) (c : Context) : Context :=
  { c with form := some name, container := some { form := name } }

/-- Binds a container. -/
def enterContainer (p : Place) (c : Context) : Context := { c with container := some p }

/-- Binds a control. -/
def withInput (p : Place) (c : Context) : Context := { c with input := some p }

/-- Binds a label, or none. -/
def withLabel (label : Option Element) (c : Context) : Context := { c with label }

end Context

end Render

end FormTemplate
