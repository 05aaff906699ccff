import FormTemplate.Template.Arguments

/-!
# Occurrences of a directive

One occurrence of a directive in a template: what was written, and the
code generated for its opening and closing tag so far.
-/

namespace FormTemplate

namespace Template

/-- The element that carries a directive as an attribute: its name and its
other attributes in source order, bare ones without a value. -/
structure Carrier where
  /-- The tag name as written. -/
  name : Text := []
  /-- The attributes apart from the directive's own. -/
  attributes : List (Text × Option Text) := []
deriving Repr, DecidableEq

/-- One occurrence of a directive. -/
structure Occurrence where
  /-- The name errors show. -/
  name : Text
  /-- The arguments, and how far they have been read. -/
  arguments : Arguments
  /-- The line of the opening tag. -/
  line : Nat
  /-- The element that carries the directive, if it is an attribute. -/
  carrier : Option Carrier := none
  /-- What stands between the opening and the closing tag, if anything
  does. -/
  body : Option Text := none
  /-- The code at the opening tag. -/
  opening : Text := []
  /-- The code at the closing tag. -/
  closing : Text := []
deriving Repr, DecidableEq

namespace Occurrence

/-- The occurrence with what stands between its tags. -/
def withBody (body : Text) (o : Occurrence) : Occurrence :=
  { o with body := if body.isEmpty then none else some body }

/-- Whether anything stands between the opening and the closing tag. -/
def hasBody (o : Occurrence) : Bool := o.body.isSome

theorem hasBody_withBody (body : Text) (o : Occurrence) :
    (o.withBody body).hasBody = !body.isEmpty := by
  rw [hasBody, withBody]
  cases body <;> rfl

end Occurrence

end Template

end FormTemplate
