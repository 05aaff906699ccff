import FormTemplate.Markup.Entity

/-!
# Attributes of an element

Attributes keep the order in which their names arrived: a name that is set
again keeps its place, a name that is erased and set again goes to the
end. A value is a text or a flag; a flag prints as the bare name when it
is on, and a flag that is off prints nothing.
-/

namespace FormTemplate

namespace Markup

/-- The value of an attribute. -/
inductive AttributeValue where
  /-- A text, printed in quotes. -/
  | text (text : Text)
  /-- Whether the bare name is printed. -/
  | flag (on : Bool)
deriving Repr, DecidableEq

/-- The text of a value that is one. -/
def AttributeValue.text? : AttributeValue → Option Text
  | .text s => some s
  | .flag _ => none

/-- Attribute names and their values, in the order the names arrived. -/
abbrev Attributes := List (Text × AttributeValue)

/-- Attributes to be merged into others, in order; no value takes the
attribute away. -/
abbrev Merge := List (Text × Option AttributeValue)

namespace Attributes

/-- The value of a name. -/
def get? (name : Text) (as : Attributes) : Option AttributeValue := as.lookup name

/-- **Sets the value of a name**, in its place or at the end. -/
def set (name : Text) (value : AttributeValue) : Attributes → Attributes
  | [] => [(name, value)]
  | a :: as => if a.1 = name then (name, value) :: as else a :: set name value as

/-- Takes a name away. -/
def erase (name : Text) (as : Attributes) : Attributes := as.filter (·.1 ≠ name)

/-- Merges one entry: no value and the flag that is off take the name away,
any other value is set. -/
def mergeEntry (as : Attributes) : Text × Option AttributeValue → Attributes
  | (name, none) => as.erase name
  | (name, some (.flag false)) => as.erase name
  | (name, some value) => as.set name value

/-- **Merges entries in order.** -/
def merge (m : Merge) (as : Attributes) : Attributes := m.foldl mergeEntry as

/-- One attribute in a tag, a space in front of it. -/
def itemSource : Text × AttributeValue → Text
  | (_, .flag false) => []
  | (name, .flag true) => ' ' :: name
  | (name, .text s) => ' ' :: name ++ "=\"".toList ++ escape s ++ ['"']

/-- The attributes in a tag. -/
def source (as : Attributes) : Text := as.flatMap itemSource

end Attributes

end Markup

end FormTemplate
