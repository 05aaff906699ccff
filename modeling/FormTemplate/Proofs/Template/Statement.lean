import FormTemplate.Template.Generation
import FormTemplate.Template.Program
import FormTemplate.Template.Tag
import FormTemplate.Proofs.Nesting

/-!
# Statements of the generated code

The code of a directive is a few statements of a small language: calls of
the rendering library, local variables for what they give, and blocks.
`Statement` is the syntax of that language and `Statement.code` its
spelling. A `Step` is what a template asks for at one place; it becomes one
segment of the program, either text or the statements `Step.statements`.
Steps also say what they do to the bindings while the template is compiled.
-/

namespace FormTemplate

namespace Template

/-! ## Statements -/

/-- How a statement gets at a control. -/
inductive ControlSource where
  /-- By its key, in the container in effect. -/
  | key (key : Text)
  /-- The control that is bound. -/
  | bound
deriving Repr, DecidableEq

/-- A statement of the generated code. -/
inductive Statement where
  /-- Prints a text. -/
  | print (text : Text)
  /-- Lets `form` be the form of a key, or the value of an expression. -/
  | letForm (name : Word)
  /-- Binds `form`. -/
  | enterForm
  /-- Prints the start tag of `form`. -/
  | beginForm (attributes : AttributeList)
  /-- Prints the end of the form in effect. -/
  | endForm
  /-- Begins a block. -/
  | openBlock
  /-- Ends a block. -/
  | closeBlock
  /-- Lets `form_container` be a container in the one in effect, or the
  value of an expression. -/
  | letContainer (name : Word)
  /-- Binds `form_container`. -/
  | enterContainer
  /-- Lets `input` be the value of an expression. -/
  | letInput (expression : Text)
  /-- Binds `input`. -/
  | withInput
  /-- Binds the label of the control of a key. -/
  | withLabel (key : Text)
  /-- Binds `input` and its label. -/
  | withInputAndLabel
  /-- Prints the label in effect, if there is one, or its start tag only. -/
  | printLabel (attributes : AttributeList) (whole : Bool)
  /-- Prints a control. -/
  | printControl (source : ControlSource) (parts : List Word) (attributes : AttributeList)
  /-- Prints the attributes of a control, or those of its label. -/
  | printAttributes (source : ControlSource) (ofLabel : Bool) (parts : List Word)
      (attributes : AttributeList)
deriving Repr, DecidableEq

namespace ControlSource

/-- The source in the generated code. -/
def code : ControlSource → Text
  | key k => "ctx.control(".toList ++ Literal.quote k ++ ")?".toList
  | bound => "ctx.input()?".toList

end ControlSource

/-- Words as a list of arguments in the generated code. -/
def partsCode (parts : List Word) : Text := List.intercalate ", ".toList (parts.map Word.code)

namespace Statement

/-- **A statement in the generated code.** -/
def code (runtimePath : Text) : Statement → Text
  | print s => "out.push_str(".toList ++ Literal.quote s ++ ");".toList
  | letForm (.literal k) =>
    "let form = ctx.lookup_form(".toList ++ Literal.quote k ++ ")?;".toList
  | letForm (.expression e) => "let form = ctx.resolve_form(".toList ++ e ++ ")?;".toList
  | enterForm => "let ctx = ctx.enter_form(form);".toList
  | beginForm as => runtimePath ++ "::render_form_begin(out, form, ".toList ++ as.code ++ ");".toList
  | endForm => runtimePath ++ "::render_form_end(out, ctx.form()?);".toList
  | openBlock => ['\x7b']
  | closeBlock => ['\x7d']
  | letContainer (.literal k) =>
    "let form_container = ctx.container()?.container(".toList ++ Literal.quote k ++ ")?;".toList
  | letContainer (.expression e) =>
    "let form_container = ctx.resolve_container(".toList ++ e ++ ")?;".toList
  | enterContainer => "let ctx = ctx.enter_container(form_container);".toList
  | letInput e => "let input = ctx.resolve_control(".toList ++ e ++ ")?;".toList
  | withInput => "let ctx = ctx.with_input(input);".toList
  | withLabel k =>
    "let ctx = ctx.with_label(ctx.control(".toList ++ Literal.quote k ++ ")?.label(None));".toList
  | withInputAndLabel => "let ctx = ctx.with_input(input).with_label(input.label(None));".toList
  | printLabel as whole =>
    "if let Some(label) = ctx.label() \x7b out.push_str(&label.clone().add_attributes(".toList
      ++ as.code ++ [')'] ++ (if whole then ".to_html()" else ".start_tag()").toList
      ++ "); \x7d".toList
  | printControl source parts as =>
    "out.push_str(&".toList ++ source.code ++ ".get_control(&[".toList ++ partsCode parts
      ++ "]).add_attributes(".toList ++ as.code ++ ").to_html());".toList
  | printAttributes source ofLabel parts as =>
    "out.push_str(&".toList ++ source.code
      ++ (if ofLabel then ".get_label(&[" else ".get_control(&[").toList ++ partsCode parts
      ++ "])".toList
      ++ (if as.isEmpty then [] else ".add_attributes(".toList ++ as.code ++ [')'])
      ++ ".attributes());".toList

/-- Statements on a line. -/
def line (runtimePath : Text) (l : List Statement) : Text :=
  List.intercalate [' '] (l.map (code runtimePath))

@[simp] theorem line_singleton (runtimePath : Text) (s : Statement) :
    line runtimePath [s] = s.code runtimePath := by
  simp [line, List.intercalate]

@[simp] theorem line_cons_cons (runtimePath : Text) (s t : Statement) (l : List Statement) :
    line runtimePath (s :: t :: l) = s.code runtimePath ++ ' ' :: line runtimePath (t :: l) := by
  simp [line, List.intercalate]

end Statement

/-! ## Steps -/

/-- What a template asks for at one place. -/
inductive Step where
  /-- Prints a text of the template. -/
  | text (text : Text)
  /-- Begins a form. -/
  | beginForm (name : Word) (attributes : AttributeList)
  /-- Ends the form in effect. -/
  | endForm
  /-- Enters a container. -/
  | enterContainer (name : Word)
  /-- Leaves a container. -/
  | leaveContainer
  /-- Shows a label as a whole, or its start tag only. -/
  | label (name : Word) (attributes : AttributeList) (whole : Bool)
  /-- Ends a label. -/
  | endLabel
  /-- Shows a control. -/
  | input (name : Word) (parts : List Word) (attributes : AttributeList)
  /-- Shows the attributes of a control or of its label, without those of
  the given names. -/
  | attributes (ofLabel : Bool) (name : Word) (parts : List Word) (written : List Text)
deriving Repr, DecidableEq

/-- The steps of a template, in order. -/
abbrev Script := List Step

namespace Step

/-- The statements that bind a control and then do something with it. -/
def withControl (name : Word) (f : ControlSource → Statement) : List Statement :=
  match name with
  | .literal k => [f (.key k)]
  | .expression e => [.letInput e, .withInput, f .bound]

/-- **The statements of a step.** -/
def statements : Step → List Statement
  | text s => [.print s]
  | beginForm name as => [.letForm name, .enterForm, .beginForm as]
  | endForm => [.endForm]
  | enterContainer name => [.openBlock, .letContainer name, .enterContainer]
  | leaveContainer => [.closeBlock]
  | label (.literal k) as whole => [.withLabel k, .printLabel as whole]
  | label (.expression e) as whole => [.letInput e, .withInputAndLabel, .printLabel as whole]
  | endLabel => [.print "</label>".toList]
  | input name parts as => withControl name fun source => .printControl source parts as
  | attributes ofLabel name parts written =>
    withControl name fun source =>
      .printAttributes source ofLabel parts (written.map fun a => (a, .absent))

/-- The code of a step. -/
def code (runtimePath : Text) (s : Step) : Text := Statement.line runtimePath s.statements

/-- **The segment of a step.** -/
def segment (runtimePath : Text) : Step → Segment
  | text s => .text s
  | s => .code (s.code runtimePath)

/-- **What a step does to the bindings.** -/
def bind (b : BindingStack) : Step → Except CompileError BindingStack
  | beginForm name _ => .ok (b.bindForm name)
  | enterContainer name => .ok (b.enter name)
  | leaveContainer => b.leave
  | _ => .ok b

end Step

namespace Script

/-- The bindings after some steps. -/
def bindings (s : Script) (b : BindingStack) : Except CompileError BindingStack :=
  s.foldlM Step.bind b

end Script

/-! ## The steps of a directive -/

namespace Directive

/-- The name and the parts that the first word of an input directive is
cut into at its colons, if the name is not empty. -/
def reference? (word : Text) : Option (Word × List Word) :=
  match Text.pieces (· == ':') word with
  | [] => none
  | name :: parts => if name.isEmpty then none else some (.ofText name, parts.map .ofText)

/-- **The step at a directive's opening tag**, if the arguments name what
it is about. A label with a body shows its start tag only. -/
def openingStep? (d : Directive) (arguments : Text) (hasBody : Bool) : Option Step :=
  match Arguments.words arguments with
  | [] => none
  | word :: words =>
    match d with
    | .form => some (.beginForm (.ofText word) (.ofWords words))
    | .formContainer => some (.enterContainer (.ofText word))
    | .label => some (.label (.ofText word) (.ofWords words) !hasBody)
    | .input => (reference? word).map fun r => .input r.1 r.2 (.ofWords words)

/-- The steps at a directive's closing tag. -/
def closingSteps : Directive → Bool → List Step
  | .form, _ => [.endForm]
  | .formContainer, _ => [.leaveContainer]
  | .label, hasBody => if hasBody then [.endLabel] else []
  | .input, _ => []

/-- **The step at a start tag that carries an input directive.** -/
def attributeStep? (name arguments : Text) (attributes : List RawAttribute) : Option Step :=
  match Arguments.words arguments with
  | [] => none
  | word :: _ =>
    (reference? word).map fun r =>
      .attributes (Text.sameIgnoringCase name "label".toList) r.1 r.2 (attributes.map (·.name))

end Directive

end Template

end FormTemplate
