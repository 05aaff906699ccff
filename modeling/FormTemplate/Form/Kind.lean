import FormTemplate.Text.Basic

/-!
# Kinds of control

The kinds of control a form may hold, and what each kind decides: the
element it is rendered as, whether it has a label, and whether the user
types into it.
-/

namespace FormTemplate

namespace Form

/-- One of the choices of a control, under its key. -/
structure Choice where
  /-- The value that is submitted. -/
  key : Text
  /-- What the user reads. -/
  caption : Text
deriving Repr, DecidableEq

/-- The kind of a control. -/
inductive Kind where
  /-- A line of text. -/
  | text
  /-- A password, whose value is never rendered. -/
  | password
  /-- Several lines of text. -/
  | textArea
  /-- A value the user does not see. -/
  | hidden
  /-- A box to check. -/
  | checkbox
  /-- A group of buttons of which one is chosen. -/
  | radioList (choices : List Choice)
  /-- A box to select from. -/
  | select (choices : List Choice)
  /-- A button that submits the form. -/
  | submit
  /-- A button. -/
  | button
  /-- A file to send. -/
  | upload
deriving Repr, DecidableEq

namespace Kind

/-- Whether the user types a line into the control. -/
def isTextInput : Kind → Bool
  | text | password => true
  | _ => false

/-- Whether the user does not see the control. -/
def isHidden : Kind → Bool
  | hidden => true
  | _ => false

/-- Whether controls of the kind have a label. -/
def hasLabel : Kind → Bool
  | hidden | checkbox | submit | button => false
  | _ => true

/-- Whether the control is a group of buttons. -/
def isRadioList : Kind → Bool
  | radioList _ => true
  | _ => false

/-- The name of the element a control is rendered as. -/
def elementName : Kind → Text
  | textArea => "textarea".toList
  | select _ => "select".toList
  | _ => "input".toList

/-- The type of the input element a control is rendered as, if it is one. -/
def inputType? : Kind → Option Text
  | text => some "text".toList
  | password => some "password".toList
  | hidden => some "hidden".toList
  | checkbox => some "checkbox".toList
  | radioList _ => some "radio".toList
  | submit => some "submit".toList
  | button => some "button".toList
  | upload => some "file".toList
  | textArea => none
  | select _ => none

end Kind

end Form

end FormTemplate
