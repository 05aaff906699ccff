import FormTemplate.Form.Container

/-!
# Forms

A form is its root container and the element it is rendered as. Method and
action are attributes of that element, so whoever changes the element
changes them too. The forms of a page are told apart by their names.
-/

namespace FormTemplate

/-- A form. -/
structure Form where
  /-- The root container. -/
  root : Form.Container
  /-- The form element. -/
  element : Markup.Element

namespace Form

open Markup

/-- An empty form that posts to the page it is on. -/
def create (name : Text) : Form where
  root := .root name
  element :=
    (({ name := "form".toList } : Element).setText "action" []).setText "method" "post".toList

/-- The name of the form. -/
def name (f : Form) : Text := f.root.name

/-- Sets the method, in small letters. -/
def setMethod (method : Text) (f : Form) : Form :=
  { f with element := f.element.setText "method" (Text.lower method) }

/-- The method of the form; a form without one posts. -/
def method (f : Form) : Text := (f.element.getText? "method".toList).getD "post".toList

/-- Whether the form submits its values in the query of its action. -/
def isGet (f : Form) : Bool := Text.sameIgnoringCase f.method "get".toList

/-- Sets the action. -/
def setAction (url : Text) (f : Form) : Form :=
  { f with element := f.element.setText "action" url }

/-- The action of the form. -/
def action (f : Form) : Text := (f.element.getText? "action".toList).getD []

/-- The form with its root container changed. -/
def modifyRoot (g : Container → Container) (f : Form) : Form := { f with root := g f.root }

end Form

/-- The forms of a page, each under its own name. -/
abbrev Registry := List Form

namespace Registry

/-- **Adds a form**, in the place of the one of its name if there is one. -/
def add (form : Form) : Registry → Registry
  | [] => [form]
  | f :: fs => if f.name = form.name then form :: fs else f :: add form fs

/-- The form of a name. -/
def form (r : Registry) (name : Text) : Except Form.LookupError Form :=
  match r.find? (·.name == name) with
  | some f => .ok f
  | none => .error (.formNotFound name)

/-- The registry with the form of a name changed. -/
def modify (name : Text) (g : Form → Form) : Registry → Registry
  | [] => []
  | f :: fs => if f.name = name then g f :: fs else f :: modify name g fs

end Registry

end FormTemplate
