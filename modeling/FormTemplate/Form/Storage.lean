import FormTemplate.Form.Container

/-!
# How a container is stored

A container stores its controls on one shelf and its containers on another.
The document order is a list of slots, each of which says on which shelf a
component stands and where. A component that replaces one of its own sort
takes over its slot. One that replaces a component of the other sort gets a
new slot in the place of the old one; the old component leaves its shelf, and
what stands behind it moves up. `Storage.toContainer` is the container that
the page sees.
-/

namespace FormTemplate

namespace Form

/-! ## Slots -/

/-- The shelves of a container. -/
inductive Shelf where
  /-- Where the controls stand. -/
  | controls
  /-- Where the containers stand. -/
  | containers
deriving Repr, DecidableEq

/-- Where a component stands. -/
structure Slot where
  /-- The shelf. -/
  shelf : Shelf
  /-- The position on it. -/
  index : Nat
deriving Repr, DecidableEq

namespace Slot

/-- The first slot of a shelf in which nothing stands. -/
def free {α : Type} (shelves : Shelf → List α) (shelf : Shelf) : Slot :=
  ⟨shelf, (shelves shelf).length⟩

/-- What stands in a slot. -/
def item? {α : Type} (shelves : Shelf → List α) (slot : Slot) : Option α :=
  (shelves slot.shelf)[slot.index]?

/-- What stands in slots, in their order. -/
def items {α : Type} (shelves : Shelf → List α) (order : List Slot) : List α :=
  order.filterMap (item? shelves)

/-- Where the component of a slot stands once that of another slot is
gone. -/
def closeGap (gone slot : Slot) : Slot :=
  if slot.shelf = gone.shelf ∧ gone.index < slot.index then
    { slot with index := slot.index - 1 }
  else slot

end Slot

/-! ## Storages -/

/-- **A container as it is stored.** -/
structure Storage where
  /-- The name within the container that holds it; the form's name at the
  root. -/
  name : Text
  /-- How the page names what it holds. -/
  naming : Naming
  /-- The controls, in the order in which they got their slots. -/
  controls : List Control := []
  /-- The containers, in the order in which they got their slots. -/
  containers : List Storage := []
  /-- The slots of the components, in document order. -/
  order : List Slot := []

/-- A component as it is stored. -/
inductive Stored where
  /-- A control. -/
  | control (control : Control)
  /-- A container. -/
  | container (container : Storage)

namespace Stored

/-- The name within the container that holds the component. -/
def name : Stored → Text
  | control c => c.name
  | container s => s.name

/-- The shelf that the component belongs on. -/
def shelf : Stored → Shelf
  | control _ => .controls
  | container _ => .containers

/-- The control, if the component is one. -/
def control? : Stored → Option Control
  | control c => some c
  | container _ => none

end Stored

namespace Storage

/-- A container that holds nothing. -/
def empty (name : Text) (naming : Naming) : Storage where
  name := name
  naming := naming

/-- The root container of a form. -/
def root (formName : Text) : Storage := empty formName ⟨none, "frm-".toList ++ formName⟩

/-- A control addressed in the container, not yet held by it. -/
def newControl (s : Storage) (name : Text) (kind : Kind) : Control :=
  .create name kind (s.naming.htmlName name) (s.naming.htmlId name)

/-- An empty container addressed in the container, not yet held by it. -/
def newContainer (s : Storage) (name : Text) : Storage := empty name (s.naming.inside name)

/-- What stands on a shelf. -/
def shelves (s : Storage) : Shelf → List Stored
  | .controls => s.controls.map .control
  | .containers => s.containers.map .container

/-- **The components in document order.** -/
def components (s : Storage) : List Stored := Slot.items s.shelves s.order

/-! ## Adding -/

/-- The place in the document and the slot of the component of a name. -/
def existing? (s : Storage) (name : Text) : Option (Nat × Slot) := do
  let i ← s.components.findIdx? (·.name == name)
  return (i, ← s.order[i]?)

/-- Puts a component on its shelf, in the place of the one that stands
there. -/
def replace (s : Storage) (index : Nat) : Stored → Storage
  | .control c => { s with controls := s.controls.set index c }
  | .container t => { s with containers := s.containers.set index t }

/-- Puts a component at the end of its shelf. -/
def push (s : Storage) : Stored → Storage
  | .control c => { s with controls := s.controls ++ [c] }
  | .container t => { s with containers := s.containers ++ [t] }

/-- Takes what stands in a slot off its shelf. -/
def remove (s : Storage) (slot : Slot) : Storage :=
  match slot.shelf with
  | .controls => { s with controls := s.controls.eraseIdx slot.index }
  | .containers => { s with containers := s.containers.eraseIdx slot.index }

/-- Puts a slot at the end of the document order, or in a place in it; then
the component that had the place is removed. -/
def place (s : Storage) (slot : Slot) : Option Nat → Storage
  | none => { s with order := s.order ++ [slot] }
  | some i =>
    match s.order[i]? with
    | some gone => { s.remove gone with order := (s.order.set i slot).map (Slot.closeGap gone) }
    | none => s

/-- **Adds a component**, in the place of the one of its name if there is
one, and says where it stands. -/
def insert (s : Storage) (c : Stored) : Storage × Slot :=
  let fresh := Slot.free s.shelves c.shelf
  match s.existing? c.name with
  | some (i, slot) =>
    if slot.shelf = c.shelf then (s.replace slot.index c, slot)
    else ((s.push c).place fresh (some i), fresh)
  | none => ((s.push c).place fresh none, fresh)

/-- Changes a control where it stands. -/
def changeControl (index : Nat) (f : Control → Control) (s : Storage) : Storage :=
  { s with controls := s.controls.modify index f }

/-- Changes a container where it stands. -/
def changeContainer (index : Nat) (f : Storage → Storage) (s : Storage) : Storage :=
  { s with containers := s.containers.modify index f }

/-! ## Looking up -/

/-- The component of a name that the container itself holds. -/
def component? (s : Storage) (name : Text) : Option Stored :=
  s.components.find? (·.name == name)

/-- Whether the container itself holds a component of a name. -/
def contains (s : Storage) (name : Text) : Bool := (s.component? name).isSome

/-- The control of a name. -/
def control (s : Storage) (name : Text) : Except LookupError Control :=
  match s.component? name with
  | some (.control c) => .ok c
  | some (.container _) => .error (.notAControl name)
  | none => .error (.componentNotFound name)

/-- The container of a name. -/
def container (s : Storage) (name : Text) : Except LookupError Storage :=
  match s.component? name with
  | some (.container t) => .ok t
  | some (.control _) => .error (.notAContainer name)
  | none => .error (.componentNotFound name)

/-! ## Everything the container holds -/

mutual

/-- All that a container holds, at any depth. -/
def contents : Storage → List Stored
  | ⟨_, _, controls, containers, order⟩ =>
    (Slot.items
      (fun
        | .controls => controls.map fun c => [.control c]
        | .containers => branches containers)
      order).flatten

/-- Each of the containers, followed by all it holds. -/
def branches : List Storage → List (List Stored)
  | [] => []
  | s :: ss => (.container s :: contents s) :: branches ss

end

/-- The components in document order; those of nested containers too, when
the walk goes deep. -/
def walk (s : Storage) (deep : Bool) : List Stored := if deep then s.contents else s.components

mutual

/-- The container with every control at any depth changed. -/
def mapControls (f : Control → Control) : Storage → Storage
  | ⟨name, naming, controls, containers, order⟩ =>
    ⟨name, naming, controls.map f, mapAllControls f containers, order⟩

/-- The containers with every control in them changed. -/
def mapAllControls (f : Control → Control) : List Storage → List Storage
  | [] => []
  | s :: ss => mapControls f s :: mapAllControls f ss

end

/-- The container once the end of its form is rendered: every hidden control
in it is marked. -/
def afterEnd (s : Storage) : Storage := s.mapControls Control.afterEnd

/-- Changes the component of a name where it stands. -/
def changeNamed (name : Text) (f : Stored → Stored) (s : Storage) : Storage :=
  match s.existing? name with
  | some (_, slot) =>
    match Slot.item? s.shelves slot with
    | some c => s.replace slot.index (f c)
    | none => s
  | none => s

/-- The container with the control at a path changed. A path that leads to
no control changes nothing. -/
def modifyControl (f : Control → Control) : List Text → Storage → Storage
  | [], s => s
  | [name], s =>
    s.changeNamed name fun
      | .control c => .control (f c)
      | d => d
  | name :: path, s =>
    s.changeNamed name fun
      | .container t => .container (modifyControl f path t)
      | d => d

/-! ## What the page sees -/

mutual

/-- The container as a component that the page sees. -/
def toComponent : Storage → Component
  | ⟨name, naming, controls, containers, order⟩ =>
    .container name naming
      (Slot.items
        (fun
          | .controls => controls.map .control
          | .containers => toComponents containers)
        order)

/-- The containers as components that the page sees. -/
def toComponents : List Storage → List Component
  | [] => []
  | s :: ss => toComponent s :: toComponents ss

end

end Storage

/-- The component that the page sees. -/
def Stored.toComponent : Stored → Component
  | control c => .control c
  | container s => s.toComponent

/-- **The container that the page sees.** -/
def Storage.toContainer (s : Storage) : Container where
  name := s.name
  naming := s.naming
  components := s.components.map Stored.toComponent

end Form

end FormTemplate
