import FormTemplate.Template.Occurrence
import FormTemplate.Template.Pattern
import FormTemplate.Template.Binding

/-!
# Code of the directives

What each directive generates at its opening tag, at its closing tag, and
as an attribute of an element. A directive reads its name from the
arguments, decides by it between looking up a key and evaluating an
expression, and fills in a pattern. The steps of all directives run on the
same state: the occurrence at hand and the bindings of the template.
-/

namespace FormTemplate

namespace Template

/-- What the author of a template chooses about the generated code. -/
structure Options where
  /-- The path of the rendering library in the generated code. -/
  runtimePath : Text := "::fw_runtime".toList
  /-- What stands before a directive's name when it is an attribute. -/
  attributePrefix : Text := "n:".toList
deriving Repr, DecidableEq

/-- The occurrence a step works on, and the bindings of the template. -/
structure Work where
  /-- The occurrence at hand. -/
  occurrence : Occurrence
  /-- The bindings in effect. -/
  bindings : BindingStack := {}
deriving Repr, DecidableEq

/-- A step of code generation. A failing step keeps the words it read. -/
abbrev GenerateM := ExceptT CompileError (StateM Work)

namespace GenerateM

/-- Changes the occurrence at hand. -/
def modifyOccurrence (f : Occurrence → Occurrence) : GenerateM Unit :=
  modify fun w => { w with occurrence := f w.occurrence }

/-- Changes the bindings in effect. -/
def modifyBindings (f : BindingStack → BindingStack) : GenerateM Unit :=
  modify fun w => { w with bindings := f w.bindings }

/-- Sets the code at the opening tag. -/
def setOpening (code : Text) : GenerateM Unit := modifyOccurrence ({ · with opening := code })

/-- Sets the code at the closing tag. -/
def setClosing (code : Text) : GenerateM Unit := modifyOccurrence ({ · with closing := code })

/-- The next word of the arguments, which is then read. -/
def nextWord : GenerateM (Option Text) := do
  let (word?, a) := (← get).occurrence.arguments.next
  modifyOccurrence ({ · with arguments := a })
  return word?

/-- The next word of the arguments as the name of the directive; the
arguments start over after it. -/
def takeName (missing : Text → CompileError) : GenerateM Word := do
  let some word ← nextWord
    | throw (missing (CompileError.openingTag (← get).occurrence.name))
  modifyOccurrence fun o => { o with arguments := o.arguments.rewind }
  return .ofText word

/-- The code of a pattern over the directive's arguments. -/
def write (options : Options) (pattern : String) (given : List PatternArgument) :
    GenerateM Text := do
  let (code, a) := (Pattern.ofText pattern.toList).expand options.runtimePath given
    (← get).occurrence.arguments
  modifyOccurrence ({ · with arguments := a })
  code

end GenerateM

open GenerateM

/-! ## The form directive -/

namespace FormDirective

/-- Opens a form that is looked up by its key. -/
def byKey : String :=
  "let form = ctx.lookup_form(%node.word)?; let ctx = ctx.enter_form(form); " ++
    "%runtime::render_form_begin(out, form, %node.array);"

/-- Opens the form that an expression evaluates to. -/
def byExpression : String :=
  "let form = ctx.resolve_form(%node.word)?; let ctx = ctx.enter_form(form); " ++
    "%runtime::render_form_begin(out, form, %node.array);"

/-- Closes the form in effect. -/
def closing : String := "%runtime::render_form_end(out, ctx.form()?);"

/-- Generates the opening code and binds the form. -/
def generateOpening (options : Options) : GenerateM Unit := do
  let name ← takeName .missingFormName
  modifyBindings (.bindForm name)
  setOpening (← write options (if name.isExpression then byExpression else byKey) [])

/-- Generates the closing code. -/
def generateClosing (options : Options) : GenerateM Unit := do
  setClosing (← write options closing [])

end FormDirective

/-! ## The container directive -/

namespace ContainerDirective

/-- Opens a block for a container that is looked up by its key. -/
def byKey : String :=
  "\x7b let form_container = ctx.container()?.container(%node.word)?; " ++
    "let ctx = ctx.enter_container(form_container);"

/-- Opens a block for the container that an expression evaluates to. -/
def byExpression : String :=
  "\x7b let form_container = ctx.resolve_container(%node.word)?; " ++
    "let ctx = ctx.enter_container(form_container);"

/-- Closes the block. -/
def closing : Text := ['\x7d']

/-- Generates the opening code and enters the container. -/
def generateOpening (options : Options) : GenerateM Unit := do
  let name ← takeName .missingFormName
  modifyBindings (.enter name)
  setOpening (← write options (if name.isExpression then byExpression else byKey) [])

/-- Leaves the container and generates the closing code. -/
def generateClosing : GenerateM Unit := do
  let bindings ← (← get).bindings.leave
  modifyBindings fun _ => bindings
  setClosing closing

end ContainerDirective

/-! ## The label directive -/

namespace LabelDirective

/-- Renders the label of a control that is looked up by its key. -/
def byKey : String :=
  "let ctx = ctx.with_label(ctx.control(%node.word)?.label(None)); " ++
    "if let Some(label) = ctx.label() \x7b " ++
    "out.push_str(&label.clone().add_attributes(%node.array).to_html()); \x7d"

/-- Renders the label of the control that an expression evaluates to. -/
def byExpression : String :=
  "let input = ctx.resolve_control(%node.word)?; " ++
    "let ctx = ctx.with_input(input).with_label(input.label(None)); " ++
    "if let Some(label) = ctx.label() \x7b " ++
    "out.push_str(&label.clone().add_attributes(%node.array).to_html()); \x7d"

/-- The call that renders a whole element. -/
def wholeElement : Text := ".to_html()".toList

/-- The call that renders the start tag of an element. -/
def startTag : Text := ".start_tag()".toList

/-- Ends the label. -/
def closing : Text := "out.push_str(\"</label>\");".toList

/-- Generates the opening code, which renders the label as a whole. -/
def generateOpening (options : Options) : GenerateM Unit := do
  let name ← takeName .missingName
  setOpening (← write options (if name.isExpression then byExpression else byKey) [])

/-- For a label with a body the opening code renders the start tag only,
and the closing code ends the label. -/
def generateClosing : GenerateM Unit := do
  let occurrence := (← get).occurrence
  if occurrence.hasBody then
    let some opening := Text.replaceLast? wholeElement startTag occurrence.opening
      | throw (.internal .noRenderCall)
    setOpening opening
    setClosing closing

end LabelDirective

/-! ## The input directive -/

namespace InputDirective

/-- Renders a control that is looked up by its key. -/
def byKey : String :=
  "out.push_str(&ctx.control(%0.word)?" ++
    ".get_control(&[%1.raw]).add_attributes(%node.array).to_html());"

/-- Renders the control that an expression evaluates to. -/
def byExpression : String :=
  "let input = ctx.resolve_control(%0.word)?; let ctx = ctx.with_input(input); " ++
    "out.push_str(&ctx.input()?.get_control(&[%1.raw]).add_attributes(%node.array).to_html());"

/-- Finds the control by its key, for an attribute. -/
def attributeByKey : String := "out.push_str(&ctx.control(%0.word)?"

/-- Evaluates the control, for an attribute. -/
def attributeByExpression : String :=
  "let input = ctx.resolve_control(%0.word)?; let ctx = ctx.with_input(input); " ++
    "out.push_str(&ctx.input()?"

/-- Takes the control's own element. -/
def controlCall : String := ".get_control(&[%1.raw])"

/-- Takes the control's label. -/
def labelCall : String := ".get_label(&[%1.raw])"

/-- Merges the attributes of the carrying element. -/
def mergeCall : String := ".add_attributes(%2.var)"

/-- Renders the attributes. -/
def attributesCall : String := ".attributes());"

/-- What the first word of an input directive refers to. -/
structure Reference where
  /-- The control's name, as it is written. -/
  name : Text
  /-- The parts after the name, in the generated code. -/
  modifiers : Text
deriving Repr, DecidableEq

/-- A word cut at its colons: the first piece names the control, the others
modify how it is rendered. An empty name is none. -/
def Reference.ofWord? (word : Text) : Option Reference :=
  match Text.pieces (· == ':') word with
  | [] => none
  | name :: modifiers =>
    if name.isEmpty then none
    else some
      { name
        modifiers := List.intercalate ", ".toList (modifiers.map fun m => (Word.ofText m).code) }

/-- Whether the control is the value of an expression. -/
def Reference.isExpression (r : Reference) : Bool := (Word.ofText r.name).isExpression

/-- What the next word of the arguments refers to. -/
def takeReference (missing : Occurrence → CompileError) : GenerateM Reference := do
  let some reference := (← nextWord).bind Reference.ofWord?
    | throw (missing (← get).occurrence)
  return reference

/-- Generates the code of the directive. -/
def generateOpening (options : Options) : GenerateM Unit := do
  let r ← takeReference fun o => .missingName (CompileError.openingTag o.name)
  setOpening (← write options (if r.isExpression then byExpression else byKey)
    [.text r.name, .text r.modifiers])

/-- The pattern of the attribute form: the label for a label element and
the control otherwise, less the attributes written on the element. -/
def attributePattern (r : Reference) (carrier : Carrier) : String :=
  (if r.isExpression then attributeByExpression else attributeByKey)
    ++ (if Text.sameIgnoringCase carrier.name "label".toList then labelCall else controlCall)
    ++ (if carrier.attributes.isEmpty then "" else mergeCall)
    ++ attributesCall

/-- **Generates the code of the attribute form.** The attributes written on
the element stay in the markup, so the rendered ones go without them. -/
def generateAttribute (options : Options) : GenerateM Unit := do
  let r ← takeReference fun o => .missingName (options.attributePrefix ++ o.name)
  let carrier := (← get).occurrence.carrier.getD {}
  setOpening (← write options (attributePattern r carrier)
    [.text r.name, .text r.modifiers,
      .attributes (carrier.attributes.map fun a => (a.1, .absent))])

end InputDirective

/-! ## All directives -/

namespace Directive

/-- Generates the code of a directive's opening tag. -/
def generateOpening (options : Options) : Directive → GenerateM Unit
  | .form => FormDirective.generateOpening options
  | .formContainer => ContainerDirective.generateOpening options
  | .label => LabelDirective.generateOpening options
  | .input => InputDirective.generateOpening options

/-- Generates the code of a directive's closing tag. -/
def generateClosing (options : Options) : Directive → GenerateM Unit
  | .form => FormDirective.generateClosing options
  | .formContainer => ContainerDirective.generateClosing
  | .label => LabelDirective.generateClosing
  | .input => pure ()

/-- Generates the code of a directive written as an attribute. -/
def generateAttribute (options : Options) : Directive → GenerateM Unit
  | .input => InputDirective.generateAttribute options
  | d => throw (.internal (.noAttributeForm d))

end Directive

end Template

end FormTemplate
