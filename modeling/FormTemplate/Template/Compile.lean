import FormTemplate.Template.Generation
import FormTemplate.Template.Program
import FormTemplate.Template.Tag

/-!
# Compilation

`compile` takes the pieces of a template in order and writes each to the end
of the program. The opening tag of a directive with a body writes its code
there like any other, and remembers which segment it is and where in the
template the body starts. The matching closing tag looks whether there is a
body, and puts the code that the directive then has into that segment.
-/

namespace FormTemplate

namespace Template

/-- A directive whose closing tag has not come yet. -/
structure OpenDirective where
  /-- The directive. -/
  directive : Directive
  /-- Its occurrence, with the opening code. -/
  occurrence : Occurrence
  /-- The segment of the opening code. -/
  segment : Nat
  /-- Where the body starts in the template. -/
  bodyStart : Nat
deriving Repr, DecidableEq

/-- A template compiled up to some place. -/
structure Compilation where
  /-- The program. -/
  program : Program := []
  /-- The open directives, the innermost first. -/
  unclosed : List OpenDirective := []
  /-- The bindings in effect. -/
  bindings : BindingStack := {}
  /-- The number of the line. -/
  line : Nat := 1
  /-- The template up to there. -/
  read : Text := []
deriving Repr, DecidableEq

namespace Compilation

/-- The result of a generation step on an occurrence. -/
def generate (c : Compilation) (occurrence : Occurrence) (step : GenerateM Unit) :
    Except CompileError (Occurrence × Compilation) :=
  match step.run { occurrence, bindings := c.bindings } with
  | (.ok (), w) => .ok (w.occurrence, { c with bindings := w.bindings })
  | (.error e, _) => .error e

/-- Compiles an opening tag. -/
def openTag (options : Options) (directive : Directive) (arguments : Text) (selfClosing : Bool)
    (source : Text) (c : Compilation) : Except CompileError Compilation := do
  let occurrence : Occurrence :=
    { name := directive.name, arguments := .ofText arguments, line := c.line }
  let (occurrence, c) ← c.generate occurrence (directive.generateOpening options)
  if !directive.isPaired then
    return { c with program := c.program.pushCode occurrence.opening }
  else if selfClosing then
    let (occurrence, c) ← c.generate occurrence (directive.generateClosing options)
    return { c with
      program := (c.program.pushCode occurrence.opening).pushNonemptyCode occurrence.closing }
  else
    let inner : OpenDirective :=
      { directive
        occurrence
        segment := c.program.length
        bodyStart := (c.read ++ source).length }
    return { c with
      program := c.program.pushCode occurrence.opening
      unclosed := inner :: c.unclosed }

/-- Compiles a closing tag. -/
def closeTag (options : Options) (directive : Directive) (c : Compilation) :
    Except CompileError Compilation :=
  match c.unclosed with
  | [] => throw (.unexpectedClose directive c.line)
  | inner :: unclosed => do
    if inner.directive ≠ directive then
      throw (.mismatchedClose inner.directive directive c.line)
    let occurrence := inner.occurrence.withBody (c.read.drop inner.bodyStart)
    let (occurrence, c) ← c.generate occurrence (directive.generateClosing options)
    return { c with
      program :=
        (c.program.setCode inner.segment occurrence.opening).pushNonemptyCode occurrence.closing
      unclosed }

/-- Compiles the start tag of an element that carries a directive: the
generated attributes come right after its name. -/
def elementTag (options : Options) (name : Text) (directive : Directive) (arguments : Text)
    (attributes : List RawAttribute) (tail : Text) (c : Compilation) :
    Except CompileError Compilation := do
  let occurrence : Occurrence :=
    { name := directive.name
      arguments := .ofText arguments
      line := c.line
      carrier := some { name, attributes := attributes.map fun a => (a.name, a.value) } }
  let (occurrence, c) ← c.generate occurrence (directive.generateAttribute options)
  let program := (c.program.pushText ('<' :: name)).pushCode occurrence.opening
  return { c with program := program.pushText (attributes.flatMap (·.source) ++ tail) }

/-- Compiles a tag. -/
def tag (options : Options) (source : Text) (c : Compilation) :
    Tag → Except CompileError Compilation
  | .opening directive arguments selfClosing =>
    c.openTag options directive arguments selfClosing source
  | .closing directive => c.closeTag options directive
  | .element name directive arguments attributes tail =>
    c.elementTag options name directive arguments attributes tail

/-- Moves on past a source. -/
def advance (source : Text) (c : Compilation) : Compilation :=
  { c with line := c.line + source.count '\n', read := c.read ++ source }

/-- Compiles a piece. -/
def piece (options : Options) (c : Compilation) : Piece → Except CompileError Compilation
  | .text source => return advance source { c with program := c.program.pushText source }
  | .tag t source => return advance source (← c.tag options source t)

/-- The program, once every directive is closed. -/
def finish (c : Compilation) : Except CompileError Program :=
  match c.unclosed with
  | inner :: _ => .error (.unclosedDirective inner.directive inner.occurrence.line)
  | [] => do
    c.bindings.finish
    return c.program

end Compilation

/-- **Compiles a template**, or says what is wrong with the first tag that
cannot be compiled. -/
def compile (options : Options) (template : Text) : Except CompileError Program := do
  let c ← (Piece.ofText options.attributePrefix template).foldlM (Compilation.piece options) {}
  c.finish

end Template

end FormTemplate
