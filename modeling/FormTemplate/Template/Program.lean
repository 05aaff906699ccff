import FormTemplate.Template.Occurrence
import FormTemplate.Text.Literal

/-!
# Compiled templates

A compiled template is a sequence of segments: text to print, and code. No
text segment is empty and no two stand side by side. `Program.source` is
the function that prints the template.
-/

namespace FormTemplate

namespace Template

/-- A segment of a compiled template. -/
inductive Segment where
  /-- Text to print as it stands. -/
  | text (text : Text)
  /-- Statements of the generated code. -/
  | code (code : Text)
deriving Repr, DecidableEq

/-- The segments of a compiled template, in order. -/
abbrev Program := List Segment

namespace Program

/-- Adds text at the end, joined to a text segment that stands there. -/
def pushText : Program → Text → Program
  | p, [] => p
  | [], s => [.text s]
  | [.text r], s => [.text (r ++ s)]
  | segment :: p, s => segment :: pushText p s

/-- Adds code at the end. -/
def pushCode (p : Program) (code : Text) : Program := p ++ [.code code]

/-- Adds code at the end unless it is empty. -/
def pushNonemptyCode (p : Program) (code : Text) : Program :=
  if code.isEmpty then p else p.pushCode code

/-- Puts other code in a segment. -/
def setCode (p : Program) (segment : Nat) (code : Text) : Program := p.set segment (.code code)

/-- The number of code segments. -/
def codeCount (p : Program) : Nat :=
  p.countP fun
    | .text _ => false
    | .code _ => true

/-- One segment in the function that prints the template. -/
def line : Segment → Text
  | .text s => "    out.push_str(".toList ++ Literal.quote s ++ ");\n".toList
  | .code s => "    ".toList ++ s ++ ['\n']

/-- The signature of the function that prints the template. -/
def signature (functionName runtimePath : Text) : Text :=
  "pub fn ".toList ++ functionName ++ "(out: &mut String, ctx: ".toList ++ runtimePath
    ++ "::RenderContext<'_>) -> Result<(), ".toList ++ runtimePath ++ "::RenderError>".toList

/-- **The function that prints the template.** -/
def source (p : Program) (functionName runtimePath : Text) : Text :=
  "#[allow(unused_variables, clippy::all)]\n".toList
    ++ signature functionName runtimePath ++ " \x7b\n".toList
    ++ p.flatMap line
    ++ "    Ok(())\n\x7d\n".toList

end Program

end Template

end FormTemplate
