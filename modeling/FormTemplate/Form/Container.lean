import FormTemplate.Form.Control
import FormTemplate.Form.Error

/-!
# Containers

A container holds controls and containers under names. Its components keep
the order in which their names arrived: adding under a name that is taken
replaces the component in its place. A container knows how the page names
and identifies what it holds (`Naming`), so every component is addressed
when it is made.
-/

namespace FormTemplate

namespace Form

/-- How the page names and identifies the components of a container. -/
structure Naming where
  /-- The page's name of the container, or none for the root. -/
  container : Option Text
  /-- The page's id of the container. -/
  id : Text
deriving Repr, DecidableEq

namespace Naming

/-- The page's name of a component. -/
def htmlName (n : Naming) (name : Text) : Text :=
  match n.container with
  | some outer => outer ++ '[' :: name ++ [']']
  | none => name

/-- The page's id of a component. -/
def htmlId (n : Naming) (name : Text) : Text := n.id ++ '-' :: name

/-- The naming inside a container of this one. -/
def inside (n : Naming) (name : Text) : Naming := ⟨some (n.htmlName name), n.htmlId name⟩

end Naming

/-- A component of a form. -/
inductive Component where
  /-- A control. -/
  | control (control : Control)
  /-- A container with its components in order. -/
  | container (name : Text) (naming : Naming) (components : List Component)

namespace Component

/-- The name within the container that holds the component. -/
def name : Component → Text
  | control c => c.name
  | container name _ _ => name

/-- The control, if the component is one. -/
def control? : Component → Option Control
  | control c => some c
  | container .. => none

mutual

/-- The component followed, if it is a container, by all it holds. -/
def walk : Component → List Component
  | control c => [control c]
  | container name naming cs => container name naming cs :: walkAll cs

/-- The components in document order, each container directly followed by
all it holds. -/
def walkAll : List Component → List Component
  | [] => []
  | c :: cs => walk c ++ walkAll cs

end

mutual

/-- The component with every control in it changed. -/
def mapControls (f : Control → Control) : Component → Component
  | control c => control (f c)
  | container name naming cs => container name naming (mapAllControls f cs)

/-- The components with every control in them changed. -/
def mapAllControls (f : Control → Control) : List Component → List Component
  | [] => []
  | c :: cs => mapControls f c :: mapAllControls f cs

end

/-- Puts a component in the place of the one of its name, or at the end. -/
def insert (c : Component) : List Component → List Component
  | [] => [c]
  | d :: ds => if d.name = c.name then c :: ds else d :: insert c ds

/-- Changes the first component of a name. -/
def modifyFirst (name : Text) (f : Component → Component) : List Component → List Component
  | [] => []
  | c :: cs => if c.name = name then f c :: cs else c :: modifyFirst name f cs

/-- Changes the control at a path of names. A path that leads to no control
changes nothing. -/
def modifyAt (f : Control → Control) : List Text → List Component → List Component
  | [], cs => cs
  | [name], cs =>
    modifyFirst name
      (fun
        | control c => control (f c)
        | d => d)
      cs
  | name :: path, cs =>
    modifyFirst name
      (fun
        | container n naming ds => container n naming (modifyAt f path ds)
        | d => d)
      cs

end Component

/-- A container of components. -/
structure Container where
  /-- The name within the container that holds it; the form's name at the
  root. -/
  name : Text
  /-- How the page names what it holds. -/
  naming : Naming
  /-- What it holds, in document order. -/
  components : List Component := []

namespace Container

/-- The root container of a form. -/
def root (formName : Text) : Container where
  name := formName
  naming := ⟨none, "frm-".toList ++ formName⟩

/-- The container as a component of another. -/
def toComponent (c : Container) : Component := .container c.name c.naming c.components

/-- A control addressed in the container, not yet held by it. -/
def newControl (c : Container) (name : Text) (kind : Kind) : Control :=
  .create name kind (c.naming.htmlName name) (c.naming.htmlId name)

/-- An empty container addressed in the container, not yet held by it. -/
def newContainer (c : Container) (name : Text) : Container where
  name := name
  naming := c.naming.inside name

/-- **Adds a component**, in the place of the one of its name if there is
one. -/
def insert (c : Container) (component : Component) : Container :=
  { c with components := component.insert c.components }

/-! ## Looking up -/

/-- The component of a name that the container itself holds. -/
def component? (c : Container) (name : Text) : Option Component :=
  c.components.find? (·.name == name)

/-- Whether the container itself holds a component of a name. -/
def contains (c : Container) (name : Text) : Bool := (c.component? name).isSome

/-- The control of a name. -/
def control (c : Container) (name : Text) : Except LookupError Control :=
  match c.component? name with
  | some (.control control) => .ok control
  | some (.container ..) => .error (.notAControl name)
  | none => .error (.componentNotFound name)

/-- The container of a name. -/
def container (c : Container) (name : Text) : Except LookupError Container :=
  match c.component? name with
  | some (.container name naming components) => .ok { name, naming, components }
  | some (.control _) => .error (.notAContainer name)
  | none => .error (.componentNotFound name)

/-- The container at a path of names. -/
def containerAt (c : Container) : List Text → Except LookupError Container
  | [] => .ok c
  | name :: path =>
    match c.container name with
    | .ok d => d.containerAt path
    | .error e => .error e

/-- The control at a path of names, the last of which is its own. -/
def controlAt (c : Container) : List Text → Except LookupError Control
  | [] => .error (.notAControl c.name)
  | [name] => c.control name
  | name :: path =>
    match c.container name with
    | .ok d => d.controlAt path
    | .error e => .error e

/-! ## Everything the container holds -/

/-- The components in document order; those of nested containers too, when
the walk goes deep. -/
def walk (c : Container) (deep : Bool) : List Component :=
  if deep then Component.walkAll c.components else c.components

/-- The controls in document order. -/
def controls (c : Container) (deep : Bool) : List Control :=
  (c.walk deep).filterMap Component.control?

/-- The container with every control at any depth changed. -/
def mapControls (f : Control → Control) (c : Container) : Container :=
  { c with components := Component.mapAllControls f c.components }

/-- The container with the control at a path changed. -/
def modifyControl (path : List Text) (f : Control → Control) (c : Container) : Container :=
  { c with components := Component.modifyAt f path c.components }

end Container

end Form

end FormTemplate
