import FormTemplate.Form.Basic
import FormTemplate.Url.Query

/-!
# The tags of a form

What a page shows at the beginning and at the end of a form. A form that
submits with GET would lose the query of its action, for the browser puts
the submitted values in its place: the start tag leaves the query out, and
the end of the form carries its parameters in hidden inputs. The end also
shows every hidden control that the page has not shown yet.
-/

namespace FormTemplate

namespace Form

open Markup

/-- Makes old browsers submit a form with a single line of text together
with the button that was pressed. -/
def legacyMarker : Text :=
  "<!--[if IE]><input type=IEbug disabled style=\"display:none\"><![endif]-->".toList

/-- **The start tag of a form**, with attributes merged into its own. -/
def renderBegin (f : Form) (m : Merge) : Text :=
  let e := if f.isGet then f.element.setText "action" (Query.strip f.action) else f.element
  (e.merge m).startTag

/-- A hidden input for a parameter of the action's query. -/
def parameterInput (p : Text × Text) : Element :=
  (({ name := "input".toList } : Element).setText "type" "hidden".toList).setText "name" p.1
    |>.setText "value" p.2

/-- The parameters of the action's query that no component of the form's
root replaces. -/
def keptParameters (f : Form) : List (Text × Text) :=
  if f.isGet then
    (((Query.of? f.action).map Query.parse).getD []).filter fun p => !f.root.contains p.1
  else []

/-- The hidden controls that the page has not shown yet, in document
order. -/
def pendingHidden (f : Form) : List Control :=
  (f.root.controls true).filter fun c => c.kind.isHidden && !c.rendered

/-- The number of controls the user types a line into. -/
def textInputCount (f : Form) : Nat :=
  (f.root.controls true).countP (·.kind.isTextInput)

/-- What stands before the end tag of a form. -/
def trailer (f : Form) : Text :=
  f.keptParameters.flatMap (fun p => (parameterInput p).source)
    ++ f.pendingHidden.flatMap (fun c => (c.render []).source)
    ++ (if f.textInputCount < 2 then legacyMarker else [])

/-- **The end of a form.** -/
def renderEnd (f : Form) : Text :=
  let s := f.trailer
  (if s.isEmpty then [] else "<div>".toList ++ s ++ "</div>\n".toList)
    ++ f.element.endTag ++ ['\n']

/-- The form once its end is rendered: every hidden control is marked. -/
def afterEnd (f : Form) : Form := f.modifyRoot (Container.mapControls Control.afterEnd)

end Form

end FormTemplate
