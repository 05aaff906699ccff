import FormTemplate.Form.Kind
import FormTemplate.Markup.Element

/-!
# Controls

A control has a kind, a value, a caption and rules for its value; its name
and id in the page come from its place in the form. It is rendered from a
prototype element, to which the page author may add attributes. The marker
`rendered` says that some part of the page shows the control already;
`Control.render` gives the element and leaves it to the caller to mark the
control.
-/

namespace FormTemplate

namespace Form

open Markup

/-- A control of a form. -/
structure Control where
  /-- The name within its container. -/
  name : Text
  /-- The kind. -/
  kind : Kind
  /-- The name in the page. -/
  htmlName : Text
  /-- The id in the page. -/
  htmlId : Text
  /-- The element it is rendered from. -/
  prototype : Element
  /-- What its label says. -/
  caption : Option Text := none
  /-- Its value. -/
  value : Option Text := none
  /-- The rules for its value, serialized. -/
  rules : Option Text := none
  /-- Whether the page shows it already. -/
  rendered : Bool := false
deriving Repr

namespace Control

/-- The attribute that carries the rules. -/
def rulesAttribute : String := "data-nette-rules"

/-- The element a control of a kind is rendered from at first. -/
def prototypeOf (kind : Kind) : Element :=
  let e : Element := { name := kind.elementName }
  match kind.inputType? with
  | some type => e.setText "type" type
  | none => e

/-- A control with nothing set. -/
def create (name : Text) (kind : Kind) (htmlName htmlId : Text) : Control where
  name := name
  kind := kind
  htmlName := htmlName
  htmlId := htmlId
  prototype := prototypeOf kind

/-- The control, marked as shown or not. -/
def mark (shown : Bool) (c : Control) : Control := { c with rendered := shown }

/-- The control once the end of its form is rendered: a hidden one is
marked. -/
def afterEnd (c : Control) : Control := if c.kind.isHidden then c.mark true else c

theorem name_afterEnd (c : Control) : c.afterEnd.name = c.name := by
  rw [afterEnd]
  split <;> rfl

/-! ## Labels -/

/-- A label that points at the control. Without a caption of its own or
the control's it is empty. -/
def pointingLabel (c : Control) (caption : Option Text) : Element :=
  let e := ({ name := "label".toList } : Element).setText "for" c.htmlId
  match caption.or c.caption with
  | some s => e.push (.text s)
  | none => e

/-- **The label of the control**, if its kind has one. The label of a group
points at none of its buttons. -/
def label (c : Control) (caption : Option Text) : Option Element :=
  if c.kind.hasLabel then
    let e := c.pointingLabel caption
    some (if c.kind.isRadioList then e.erase "for".toList else e)
  else none

/-- The label of the control, or an empty one; the first part is its
caption. -/
def labelOf (c : Control) (parts : List Text) : Element :=
  (c.label parts.head?).getD { name := "label".toList }

/-! ## The control itself -/

/-- Whether a value checks a box. -/
def isOn (value : Text) : Bool :=
  !(["", "0", "false", "off"].any fun s => s.toList == value)

/-- The prototype with name, id and rules. -/
def addressed (c : Control) : Element :=
  let e := (c.prototype.setText "name" c.htmlName).setText "id" c.htmlId
  match c.rules with
  | some rules => e.setText rulesAttribute rules
  | none => e

/-- A choice of a selection. -/
def option (c : Control) (choice : Choice) : Element :=
  (({ name := "option".toList } : Element).setText "value" choice.key
    |>.setFlag "selected" (c.value == some choice.key)).push (.text choice.caption)

/-! ## Groups of buttons -/

/-- The id of a button of a group. -/
def buttonId (c : Control) (choice : Choice) : Text := c.htmlId ++ '-' :: choice.key

/-- The radio of a group, turned to a choice. -/
def turn (c : Control) (choice : Choice) (radio : Element) : Element :=
  ((radio.setFlag "checked" (c.value == some choice.key)).setText "value" choice.key)
    |>.setText "id" (c.buttonId choice)

/-- One button of a group, inside the label that points at it. -/
def radioItem (c : Control) (radio : Element) (caption : Option Text) (choice : Choice) :
    Element :=
  ((c.pointingLabel (some (caption.getD choice.caption))).setText "for" (c.buttonId choice)).insert 0
    radio.toContent

/-- One button of a group with the line break after it. -/
def radioLine (item : Element) : Content := .raw (item.source ++ "<br>".toList)

/-- **The walk over the choices of a group.** One radio is turned from choice
to choice, and the rules leave it after the first button. A key ends the walk
at its choice and passes over all others. -/
def walkChoices (c : Control) (key caption : Option Text) (radio shown : Element) :
    List Choice → Element
  | [] => shown
  | choice :: choices =>
    if key.any (· != choice.key) then c.walkChoices key caption radio shown choices
    else
      let radio := c.turn choice radio
      let item := c.radioItem radio caption choice
      if key.isSome then item
      else
        c.walkChoices key caption (radio.erase rulesAttribute.toList)
          (shown.push (radioLine item)) choices

/-- A group of buttons. The first part picks one of them by its key, and
the second is that one's caption; without parts all are rendered. -/
def radioGroup (c : Control) (choices : List Choice) (parts : List Text) : Element :=
  c.walkChoices parts.head? parts[1]? c.addressed { name := [] } choices

/-! ## The element -/

/-- **The element of the control.** Parts matter to groups of buttons
only. -/
def render (c : Control) (parts : List Text) : Element :=
  let e := c.addressed
  match c.kind with
  | .text | .hidden => e.setText "value" (c.value.getD [])
  | .password | .upload => e
  | .textArea => e.push (.text (c.value.getD []))
  | .checkbox => e.setFlag "checked" ((c.value.map isOn).getD false)
  | .submit | .button => e.setText "value" (c.caption.getD [])
  | .select choices =>
    { e with contents := e.contents ++ choices.map fun choice => (c.option choice).toContent }
  | .radioList choices => c.radioGroup choices parts

end Control

end Form

end FormTemplate
