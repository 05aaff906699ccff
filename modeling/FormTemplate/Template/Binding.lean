import FormTemplate.Template.Error
import FormTemplate.Template.Word

/-!
# Bindings

Which form and container the code generated at a place of the template
refers to. Entering a container saves the binding, leaving it brings the
saved one back, just as the block that the generated code opens and closes
does when the template is rendered.
-/

namespace FormTemplate

namespace Template

/-- The form and container in effect at a place of the template. -/
structure Binding where
  /-- The form, if one is bound. -/
  form : Option Word := none
  /-- The container, or none for the root of the form. -/
  container : Option Word := none
deriving Repr, DecidableEq

/-- The binding in effect and those saved by the containers entered, the
innermost first. -/
structure BindingStack where
  /-- The binding in effect. -/
  current : Binding := {}
  /-- The saved bindings. -/
  saved : List Binding := []
deriving Repr, DecidableEq

namespace BindingStack

/-- The number of containers entered and not left. -/
def depth (s : BindingStack) : Nat := s.saved.length

/-- Binds a form, with its root as the container. -/
def bindForm (form : Word) (s : BindingStack) : BindingStack :=
  { s with current := { form := some form } }

/-- Enters a container and saves the binding in effect. -/
def enter (container : Word) (s : BindingStack) : BindingStack where
  current := { s.current with container := some container }
  saved := s.current :: s.saved

/-- Leaves the innermost container. -/
def leave (s : BindingStack) : Except CompileError BindingStack :=
  match s.saved with
  | [] => .error (.internal .containerUnderflow)
  | binding :: saved => .ok { current := binding, saved }

/-- Fails unless every container entered was left. -/
def finish (s : BindingStack) : Except CompileError Unit :=
  if s.saved.isEmpty then .ok () else .error (.internal (.containersLeft s.depth))

end BindingStack

end Template

end FormTemplate
