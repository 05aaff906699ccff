import FormTemplate.Template.Directive

/-!
# Compile errors

Why a template does not compile. `CompileError` names the causes, and
`CompileError.message` gives each its wording. What only a fault of the
compiler itself could bring about is a `Fault`.
-/

namespace FormTemplate

namespace Template

/-- What a template can not bring about, only the compiler. -/
inductive Fault where
  /-- A pattern asks for a word and none is left. -/
  | noWordLeft
  /-- A pattern asks for an argument past the last. -/
  | noArgument (index : Nat)
  /-- A pattern asks for an attribute list as a word. -/
  | attributesAsWord
  /-- A container is left that was never entered. -/
  | containerUnderflow
  /-- Containers were entered and not left. -/
  | containersLeft (count : Nat)
  /-- The opening code of a label does not render it. -/
  | noRenderCall
  /-- A directive without attribute form was used as an attribute. -/
  | noAttributeForm (directive : Directive)
deriving Repr, DecidableEq

/-- The wording of a fault. -/
def Fault.message : Fault → Text
  | .noWordLeft => "%node.word with no words left".toList
  | .noArgument index => "placeholder %".toList ++ Text.decimal index ++ " has no argument".toList
  | .attributesAsWord => "attribute list cannot be formatted as a word".toList
  | .containerUnderflow => "container binding stack underflow".toList
  | .containersLeft count =>
    Text.decimal count ++ " container binding(s) left on the stack".toList
  | .noRenderCall => "label opening code has no render call".toList
  | .noAttributeForm directive =>
    ['\x7b'] ++ directive.name ++ "\x7d has no attribute form".toList

/-- Why a template does not compile. -/
inductive CompileError where
  /-- A directive, given as it is written, has no name argument. -/
  | missingName (written : Text)
  /-- A directive that binds a form or container has no name argument. -/
  | missingFormName (written : Text)
  /-- A closing tag with nothing open. -/
  | unexpectedClose (found : Directive) (line : Nat)
  /-- A closing tag that does not match the innermost open directive. -/
  | mismatchedClose (expected found : Directive) (line : Nat)
  /-- A directive that is never closed, with the line it opens on. -/
  | unclosedDirective (directive : Directive) (line : Nat)
  /-- A fault of the compiler. -/
  | internal (fault : Fault)
deriving Repr, DecidableEq

namespace CompileError

/-- A directive's opening tag without arguments, as errors show it. -/
def openingTag (name : Text) : Text := ['\x7b'] ++ name ++ ['\x7d']

/-- A directive's closing tag, as errors show it. -/
def closingTag (directive : Directive) : Text := "\x7b/".toList ++ directive.name ++ ['\x7d']

/-- The place an error points at. -/
def atLine (line : Nat) : Text := "line ".toList ++ Text.decimal line ++ ": ".toList

/-- **The wording of a compile error.** -/
def message : CompileError → Text
  | missingName written => "Missing name in ".toList ++ written ++ ['.']
  | missingFormName written => "Missing form name in ".toList ++ written ++ ['.']
  | unexpectedClose found line => atLine line ++ "unexpected ".toList ++ closingTag found
  | mismatchedClose expected found line =>
    atLine line ++ "unexpected ".toList ++ closingTag found ++ ", expected ".toList
      ++ closingTag expected
  | unclosedDirective directive line => atLine line ++ "missing ".toList ++ closingTag directive
  | internal fault => "internal compiler error: ".toList ++ fault.message

end CompileError

end Template

end FormTemplate
