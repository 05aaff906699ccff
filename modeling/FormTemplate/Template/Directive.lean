import FormTemplate.Text.Basic

/-!
# Directives

The four directives a template may hold, with the names they are written
by.
-/

namespace FormTemplate

namespace Template

/-- A form directive. -/
inductive Directive where
  /-- Binds a form for what follows and renders its tags. -/
  | form
  /-- Binds a container of the form for its body. -/
  | formContainer
  /-- Renders the label of a control. -/
  | label
  /-- Renders a control. -/
  | input
deriving Repr, DecidableEq

namespace Directive

/-- All directives. -/
def all : List Directive := [.form, .formContainer, .label, .input]

/-- The name a directive is written by. -/
def name : Directive → Text
  | .form => "form".toList
  | .formContainer => "formContainer".toList
  | .label => "label".toList
  | .input => "input".toList

/-- The directive of a name; letter case matters. -/
def ofName? (s : Text) : Option Directive := all.find? fun d => d.name == s

/-- Whether the directive has a closing tag. -/
def isPaired : Directive → Bool
  | .input => false
  | _ => true

/-- Whether the directive can be written as an attribute of an element. -/
def hasAttributeForm : Directive → Bool
  | .input => true
  | _ => false

end Directive

end Template

end FormTemplate
