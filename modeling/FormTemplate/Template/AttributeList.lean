import FormTemplate.Template.Word

/-!
# Attribute lists in the generated code

Directives forward attributes to the rendered element. In the generated
code they are a list of names, each with the value it gets: a word, the
flag that makes the attribute bare, or nothing, which takes the attribute
away from the element.
-/

namespace FormTemplate

namespace Template

/-- What an attribute of a list is set to. -/
inductive Assignment where
  /-- The value of a word. -/
  | value (word : Word)
  /-- Present without a value. -/
  | flag
  /-- Taken away. -/
  | absent
deriving Repr, DecidableEq

namespace Assignment

/-- The assignment in the generated code. -/
def code : Assignment → Text
  | .value (.literal s) => "Some(".toList ++ Literal.quote s ++ ".into())".toList
  | .value (.expression s) => "Some((".toList ++ s ++ ").into())".toList
  | .flag => "Some(true.into())".toList
  | .absent => "None".toList

end Assignment

/-- Attribute names and what each is set to, in order. -/
abbrev AttributeList := List (Text × Assignment)

namespace AttributeList

/-- The attribute that a word of arguments spells: what stands before the
first equals sign set to what stands after it, or else a flag. -/
def ofWord (word : Text) : Text × Assignment :=
  match Text.cut? '=' word with
  | some (name, value) => (name, .value (.ofText value))
  | none => (word, .flag)

/-- The attributes that words spell, one for each word. -/
def ofWords (words : List Text) : AttributeList := words.map ofWord

/-- One attribute in the generated code. -/
def itemCode (item : Text × Assignment) : Text :=
  ['('] ++ Literal.quote item.1 ++ ", ".toList ++ item.2.code ++ [')']

/-- **The list in the generated code**, a slice of pairs. -/
def code (l : AttributeList) : Text :=
  "&[".toList ++ List.intercalate ", ".toList (l.map itemCode) ++ [']']

end AttributeList

end Template

end FormTemplate
