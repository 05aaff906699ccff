import FormTemplate.Proofs.Template.Generation

/-!
# The name decides the code

The first word of a directive is read twice: once to choose between the
pattern for a key and the pattern for an expression, and once more when the
pattern is filled in. `generate_by_first_word` says that both readings see
the same name, and what goes into the pattern beside it. `Pattern.fill` puts
a text in the place of each placeholder of a fixed pattern, so that nothing
that goes in is looked at for placeholders.
-/

namespace FormTemplate

namespace Template

open GenerateM

/-! ## Filled patterns -/

/-- What goes into the pattern of a directive. -/
structure Filling where
  /-- The path of the rendering library. -/
  runtimePath : Text
  /-- The name of the form, the container or the control. -/
  name : Text
  /-- What modifies how the control is rendered. -/
  modifiers : Text := []
  /-- The attributes. -/
  attributes : Text
deriving Repr, DecidableEq

/-- What stands in the place of a part: a directive has its name, its
modifiers and its attributes either as the words it takes or as the
arguments of the pattern, in this order. -/
def PatternPart.filled (f : Filling) : PatternPart → Text
  | plain code => code
  | runtime => f.runtimePath
  | nextWord | argument 0 _ => f.name
  | argument 1 _ => f.modifiers
  | remainingWords | argument _ _ => f.attributes

/-- **A pattern filled in**, part by part. -/
def Pattern.fill (f : Filling) (p : Pattern) : Text := p.flatMap (PatternPart.filled f)

namespace Directive

/-- The pattern of an opening tag whose name is a key. -/
def keyPattern : Directive → String
  | form => FormDirective.byKey
  | formContainer => ContainerDirective.byKey
  | label => LabelDirective.byKey
  | input => InputDirective.byKey

/-- The pattern of an opening tag whose name is an expression. -/
def expressionPattern : Directive → String
  | form => FormDirective.byExpression
  | formContainer => ContainerDirective.byExpression
  | label => LabelDirective.byExpression
  | input => InputDirective.byExpression

variable (runtimePath : Text)

/-- **The code of an opening tag, by what its name is**: a key goes quoted
into the one pattern, an expression as it stands into the other. -/
def openingCode (d : Directive) (name : Word) (modifiers : List Word) (as : AttributeList) :
    Text :=
  match name with
  | .literal k => (Pattern.ofText d.keyPattern.toList).fill
      { runtimePath, name := Literal.quote k, modifiers := partsCode modifiers
        attributes := as.code }
  | .expression e => (Pattern.ofText d.expressionPattern.toList).fill
      { runtimePath, name := e, modifiers := partsCode modifiers, attributes := as.code }

/-- What an attribute does with its control: it takes the label on an
element of that name, in any letter case, and the control on any other, and
it merges attributes if the element has some. -/
def attributeCalls (carrier : Carrier) : String :=
  (if Text.sameIgnoringCase carrier.name "label".toList then InputDirective.labelCall
    else InputDirective.controlCall)
  ++ (if carrier.attributes.isEmpty then "" else InputDirective.mergeCall)
  ++ InputDirective.attributesCall

/-- **The code of an input as an attribute, by what its name is.** The
attributes are those of the element, by their names and without a value. -/
def attributeCode (carrier : Carrier) (name : Word) (modifiers : List Word) : Text :=
  let as : AttributeList := carrier.attributes.map fun a => (a.1, .absent)
  match name with
  | .literal k =>
    (Pattern.ofText (InputDirective.attributeByKey ++ attributeCalls carrier).toList).fill
      { runtimePath, name := Literal.quote k, modifiers := partsCode modifiers
        attributes := as.code }
  | .expression e =>
    (Pattern.ofText (InputDirective.attributeByExpression ++ attributeCalls carrier).toList).fill
      { runtimePath, name := e, modifiers := partsCode modifiers, attributes := as.code }

/-- What an opening tag does to the bindings with its name. -/
def bindName (d : Directive) (name : Word) (b : BindingStack) : BindingStack :=
  match d with
  | form => b.bindForm name
  | formContainer => b.enter name
  | label | input => b

/-! ## The code of a step is a filled pattern -/

/-- The step of an opening tag, by its name. -/
def openingStep (d : Directive) (name : Word) (parts : List Word) (as : AttributeList) : Step :=
  match d with
  | form => .beginForm name as
  | formContainer => .enterContainer name
  | label => .label name as true
  | input => .input name parts as

variable (name : Word) (parts : List Word) (as : AttributeList)

/-- **The code of an opening step is its pattern filled in.** -/
theorem code_openingStep (d : Directive) :
    (d.openingStep name parts as).code runtimePath = d.openingCode runtimePath name parts as := by
  cases d <;> cases name <;>
  · simp only [openingStep, openingCode, keyPattern, expressionPattern,
      FormDirective.ofText_byKey, FormDirective.ofText_byExpression,
      ContainerDirective.ofText_byKey, ContainerDirective.ofText_byExpression,
      LabelDirective.ofText_byKey, LabelDirective.ofText_byExpression,
      InputDirective.ofText_byKey, InputDirective.ofText_byExpression,
      Pattern.fill, List.flatMap_cons, List.flatMap_nil, PatternPart.filled,
      Step.code, Step.statements, Step.withControl, Statement.line_cons_cons,
      Statement.line_singleton]
    delta Statement.code ControlSource.code
    dsimp only
    repeat rw [Text.toList_eq (by rfl)]
    simp only [List.cons_append, List.nil_append, List.append_assoc, List.append_nil]

theorem bind_openingStep (d : Directive) (b : BindingStack) :
    (d.openingStep name parts as).bind b = .ok (d.bindName name b) := by
  cases d <;> rfl

/-- **The code of an attribute is its pattern filled in.** -/
theorem code_attributes (carrier : Carrier) :
    (Step.attributes (Text.sameIgnoringCase carrier.name "label".toList) name parts
      (carrier.attributes.map (·.1))).code runtimePath =
      attributeCode runtimePath carrier name parts := by
  have hparts : ∀ isExpression : Bool,
      Pattern.ofText ((if isExpression then InputDirective.attributeByExpression
        else InputDirective.attributeByKey) ++ attributeCalls carrier).toList =
      InputDirective.attributeParts isExpression
        (Text.sameIgnoringCase carrier.name "label".toList) !carrier.attributes.isEmpty := by
    intro isExpression
    rw [← InputDirective.ofText_attributeCalls, attributeCalls, ← String.append_assoc,
      ← String.append_assoc]
  have hkey := hparts false
  have hexpression := hparts true
  rw [if_neg Bool.false_ne_true] at hkey
  rw [if_pos rfl] at hexpression
  unfold attributeCode
  rw [hkey, hexpression]
  delta InputDirective.attributeParts
  generalize Text.sameIgnoringCase carrier.name "label".toList = isLabel
  cases name <;> cases hattributes : carrier.attributes.isEmpty <;> cases isLabel <;>
  · simp only [Bool.false_eq_true, Bool.not_true, Bool.not_false, if_true, if_false,
      Pattern.fill, List.cons_append, List.nil_append, List.flatMap_cons, List.flatMap_nil,
      PatternPart.filled, List.map_map, Function.comp_def, Step.code, Step.statements,
      Step.withControl, Statement.line_cons_cons, Statement.line_singleton]
    delta Statement.code ControlSource.code
    dsimp only
    simp only [List.isEmpty_map, hattributes, Bool.false_eq_true, if_true, if_false]
    repeat rw [Text.toList_eq (by rfl)]
    simp only [List.cons_append, List.nil_append, List.append_assoc, List.append_nil]

/-! ## What the first word decides -/

variable {options : Options} {w : Work} {arguments word : Text} {words : List Text}

/-- What the pieces of a word between colons refer to. -/
theorem reference?_of_pieces {name : Text} {parts : List Text}
    (h : Text.pieces (· == ':') word = name :: parts) (hname : name ≠ []) :
    reference? word = some (.ofText name, parts.map .ofText) := by
  rw [reference?, h]
  dsimp only
  rw [if_neg (by simpa using hname)]

/-- An opening tag generates the code of its step's filled pattern. -/
theorem generateOpening_run_of_openingStep? {d : Directive} {name : Word} {parts : List Word}
    {as : AttributeList} (ha : w.occurrence.arguments = .ofText arguments)
    (h : d.openingStep? arguments false = some (d.openingStep name parts as)) :
    ∃ a, (d.generateOpening options).run w =
      (.ok (), {
        occurrence := { w.occurrence with
          arguments := a, opening := d.openingCode options.runtimePath name parts as }
        bindings := d.bindName name w.bindings }) := by
  obtain ⟨a, b, hbind, hrun⟩ := generateOpening_run options ha h
  rw [bind_openingStep] at hbind
  cases hbind
  rw [code_openingStep] at hrun
  exact ⟨a, hrun⟩

/-- **The first word decides which code a directive generates, and the rest
of the arguments what goes into it.** With nothing read yet, the opening tag
of a form, a container or a label generates the code that the first word
calls for, as a key or as an expression; the other words are attributes. An
input cuts the word at its colons: the first piece calls for the code and
the others are modifiers, in order; as an attribute it renders the element
that carries it. -/
theorem generate_by_first_word (options : Options)
    (ha : w.occurrence.arguments = .ofText arguments)
    (hwords : Arguments.words arguments = word :: words) :
    (∀ d : Directive, d ≠ .input →
      ∃ a, (d.generateOpening options).run w =
        (.ok (), {
          occurrence := { w.occurrence with
            arguments := a
            opening := d.openingCode options.runtimePath (.ofText word) [] (.ofWords words) }
          bindings := d.bindName (.ofText word) w.bindings })) ∧
    ∃ name parts, word = List.intercalate [':'] (name :: parts) ∧
      (∀ piece ∈ name :: parts, ':' ∉ piece) ∧
      (name ≠ [] →
        (∃ a, (generateOpening options .input).run w =
          (.ok (), { w with
            occurrence := { w.occurrence with
              arguments := a
              opening := openingCode options.runtimePath .input (.ofText name)
                (parts.map .ofText) (.ofWords words) } })) ∧
        ∃ a, (generateAttribute options .input).run w =
          (.ok (), { w with
            occurrence := { w.occurrence with
              arguments := a
              opening := attributeCode options.runtimePath (w.occurrence.carrier.getD {})
                (.ofText name) (parts.map .ofText) } })) := by
  constructor
  · intro d hd
    have hstep : d.openingStep? arguments false =
        some (d.openingStep (.ofText word) [] (.ofWords words)) := by
      unfold openingStep?
      rw [hwords]
      cases d with
      | form | formContainer | label => rfl
      | input => exact absurd rfl hd
    exact generateOpening_run_of_openingStep? ha hstep
  · obtain ⟨parts, hpieces⟩ := Text.exists_pieces_eq (· == ':') word
    generalize word.takeWhile (fun c => !(c == ':')) = name at hpieces
    refine ⟨name, parts, ?_, ?_, fun hname => ?_⟩
    · rw [← hpieces, Text.intercalate_pieces]
    · rw [← hpieces]
      exact fun piece => Text.not_mem_of_mem_pieces
    have hreference := reference?_of_pieces hpieces hname
    constructor
    · have hstep : openingStep? .input arguments false =
          some (openingStep .input (.ofText name) (parts.map .ofText) (.ofWords words)) := by
        rw [openingStep?, hwords]
        dsimp only
        rw [hreference]
        rfl
      exact generateOpening_run_of_openingStep? ha hstep
    · obtain ⟨a, hrun⟩ := InputDirective.generateAttribute_run options (w := w)
        (by rwa [ha]) hreference rfl
      rw [code_attributes] at hrun
      exact ⟨a, hrun⟩

/-- Arguments, an element and a runtime path that spell placeholders. -/
def placeholderWork : Work where
  occurrence := {
    name := "input".toList
    arguments := .ofText "%node.word:%0.raw a=%node.array".toList
    line := 1
    carrier := some { name := "LABEL".toList, attributes := [("%2.var".toList, none)] } }

/-- They stand in the code as they are. -/
theorem generate_by_first_word_of_placeholders :
    (∃ w, (generateOpening { runtimePath := "%runtime".toList } .form).run placeholderWork =
        (.ok (), w) ∧
      w.occurrence.opening = ("let form = ctx.lookup_form(\"%node.word:%0.raw\")?; ".toList ++
        "let ctx = ctx.enter_form(form); %runtime::render_form_begin(out, form, ".toList ++
        "&[(\"a\", Some(\"%node.array\".into()))]);".toList)) ∧
    (∃ w, (generateOpening { runtimePath := "%runtime".toList } .input).run placeholderWork =
        (.ok (), w) ∧
      w.occurrence.opening =
        "out.push_str(&ctx.control(\"%node.word\")?.get_control(&[\"%0.raw\"])".toList ++
        ".add_attributes(&[(\"a\", Some(\"%node.array\".into()))]).to_html());".toList) ∧
    ∃ w, (generateAttribute { runtimePath := "%runtime".toList } .input).run placeholderWork =
        (.ok (), w) ∧
      w.occurrence.opening =
        "out.push_str(&ctx.control(\"%node.word\")?.get_label(&[\"%0.raw\"])".toList ++
        ".add_attributes(&[(\"%2.var\", None)]).attributes());".toList := by
  have harguments : placeholderWork.occurrence.arguments =
      .ofText "%node.word:%0.raw a=%node.array".toList := rfl
  have hwords : Arguments.words "%node.word:%0.raw a=%node.array".toList =
      ["%node.word:%0.raw".toList, "a=%node.array".toList] := by
    decide +kernel
  obtain ⟨hopening, name, parts, hword, hparts, hinput⟩ :=
    generate_by_first_word { runtimePath := "%runtime".toList } harguments hwords
  have hpieces := Text.pieces_intercalate hparts
  rw [← hword] at hpieces
  have hcut : Text.pieces (· == ':') "%node.word:%0.raw".toList =
      ["%node.word".toList, "%0.raw".toList] := by
    decide +kernel
  rw [hcut] at hpieces
  obtain ⟨rfl, rfl⟩ := List.cons.inj hpieces
  obtain ⟨⟨a, hrun⟩, b, hattribute⟩ := hinput (by decide +kernel)
  obtain ⟨c, hform⟩ := hopening .form (by decide)
  refine ⟨⟨_, hform, ?_⟩, ⟨_, hrun, ?_⟩, ⟨_, hattribute, ?_⟩⟩
  · dsimp only
    rw [← code_openingStep]
    decide +kernel
  · dsimp only
    rw [← code_openingStep]
    decide +kernel
  · dsimp only
    rw [← code_attributes]
    decide +kernel

end Directive

end Template

end FormTemplate
