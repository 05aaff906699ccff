import FormTemplate.Text.Basic

/-!
# Lookup errors

Why a name finds no form, control or container.
-/

namespace FormTemplate

namespace Form

/-- Why a lookup in a form or among forms fails. -/
inductive LookupError where
  /-- No component has the name. -/
  | componentNotFound (name : Text)
  /-- No form has the name. -/
  | formNotFound (name : Text)
  /-- The component of the name is a container. -/
  | notAControl (name : Text)
  /-- The component of the name is a control. -/
  | notAContainer (name : Text)
deriving Repr, DecidableEq

/-- The wording of a lookup error. -/
def LookupError.message : LookupError → Text
  | .componentNotFound name => "component '".toList ++ name ++ "' does not exist".toList
  | .formNotFound name => "form '".toList ++ name ++ "' does not exist".toList
  | .notAControl name => "component '".toList ++ name ++ "' is not a control".toList
  | .notAContainer name => "component '".toList ++ name ++ "' is not a container".toList

end Form

end FormTemplate
