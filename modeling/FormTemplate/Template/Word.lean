import FormTemplate.Text.Literal
import FormTemplate.Text.Quotation

/-!
# Words

A directive's arguments are words. A word is either a key that is looked
up when the template is rendered, or an expression of the generated code;
`Word.ofText` decides which once, and nothing later looks at the sigil or
the quotes again.
-/

namespace FormTemplate

namespace Template

/-- A word of a directive's arguments. -/
inductive Word where
  /-- Text taken as it is. -/
  | literal (text : Text)
  /-- An expression of the generated code, without its sigil. -/
  | expression (code : Text)
deriving Repr, DecidableEq

namespace Word

/-- The character that marks an expression. -/
def sigil : Char := '$'

/-- What stands between the quotes, when a text starts with a quote and
ends with another of the same kind. -/
def unquote? : Text → Option Text
  | [] => none
  | q :: s => if Quotation.isQuote q && s.getLast? == some q then some s.dropLast else none

/-- **The word that a text spells.** In quotes it is a literal, whatever it
holds; after the sigil it is an expression unless nothing follows. -/
def ofText (s : Text) : Word :=
  match unquote? s, s with
  | some inner, _ => .literal inner
  | none, c :: code => if c = sigil && !code.isEmpty then .expression code else .literal s
  | none, [] => .literal []

/-- Whether the word is an expression. -/
def isExpression : Word → Bool
  | .literal _ => false
  | .expression _ => true

/-- The word without quotes and sigil. -/
def text : Word → Text
  | .literal s => s
  | .expression s => s

/-- The word in the generated code: a literal is quoted, an expression
stands as it is. -/
def code : Word → Text
  | .literal s => Literal.quote s
  | .expression s => s

end Word

end Template

end FormTemplate
