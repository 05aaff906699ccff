import FormTemplate.Proofs.Template.Statement
import FormTemplate.Proofs.Template.Words

/-!
# What the directives generate

The code of a directive is written as a pattern and filled in. This file
reads the patterns once and says what comes out: `generateOpening_run` and
`generateAttribute_run` say that a directive with a name generates the code
of its step, `generateClosing_run` what it adds at its closing tag, and
the `_of_nameless` lemmas that a directive without a name fails with the
error that names it. Nothing later looks at a pattern again.
-/

namespace FormTemplate

namespace Template

open GenerateM

/-! ## Steps of code generation -/

namespace GenerateM

variable {α β : Type} {missing : Text → CompileError} {arguments word : Text} {words : List Text}
variable {w : Work}

/-- One step after the other; a failure is the last. -/
theorem run_bind (x : GenerateM α) (f : α → GenerateM β) (w : Work) :
    (x >>= f).run w =
      match x.run w with
      | (.ok a, w) => (f a).run w
      | (.error e, w) => (.error e, w) := by
  change (match ExceptT.run x w with | (a, w) => ExceptT.bindCont f a w) = _
  rcases ExceptT.run x w with ⟨_ | _, w⟩ <;> rfl

theorem run_bind_ok {x : GenerateM α} {f : α → GenerateM β} {w w' : Work} {a : α}
    (h : x.run w = (.ok a, w')) : (x >>= f).run w = (f a).run w' := by
  rw [run_bind, h]

theorem run_pure (a : α) (w : Work) : (pure a : GenerateM α).run w = (.ok a, w) := rfl

theorem run_throw (e : CompileError) (w : Work) :
    (throw e : GenerateM α).run w = (.error e, w) := rfl

theorem run_get (w : Work) : (get : GenerateM Work).run w = (.ok w, w) := rfl

theorem run_modifyOccurrence (f : Occurrence → Occurrence) (w : Work) :
    (modifyOccurrence f).run w = (.ok (), { w with occurrence := f w.occurrence }) := rfl

theorem run_modifyBindings (f : BindingStack → BindingStack) (w : Work) :
    (modifyBindings f).run w = (.ok (), { w with bindings := f w.bindings }) := rfl

theorem run_nextWord (w : Work) :
    nextWord.run w = (.ok w.occurrence.arguments.next.1,
      { w with occurrence.arguments := w.occurrence.arguments.next.2 }) := rfl

theorem run_setOpening (code : Text) (w : Work) :
    (setOpening code).run w = (.ok (), { w with occurrence.opening := code }) := rfl

theorem run_setClosing (code : Text) (w : Work) :
    (setClosing code).run w = (.ok (), { w with occurrence.closing := code }) := rfl

/-- Writing a pattern is expanding it over the arguments. -/
theorem run_write {options : Options} {pattern : String} {given : List PatternArgument}
    {code : Text} {a : Arguments}
    (h : (Pattern.ofText pattern.toList).expand options.runtimePath given w.occurrence.arguments =
      (.ok code, a)) :
    (write options pattern given).run w = (.ok code, { w with occurrence.arguments := a }) := by
  have hrun : (write options pattern given).run w =
      (((Pattern.ofText pattern.toList).expand options.runtimePath given
          w.occurrence.arguments).1,
        { w with occurrence.arguments := ((Pattern.ofText pattern.toList).expand
          options.runtimePath given w.occurrence.arguments).2 }) := rfl
  rw [hrun, h]

/-- Taking the name leaves all words to be read. -/
theorem run_takeName (ha : w.occurrence.arguments = .ofText arguments)
    (h : Arguments.words arguments = word :: words) :
    (takeName missing).run w = (.ok (.ofText word), w) := by
  obtain ⟨rest, hnext, -⟩ := Arguments.next_of_words_cons (a := w.occurrence.arguments)
    (by rwa [ha])
  have hrewind : ∀ r, ({ source := w.occurrence.arguments.source, rest := r } : Arguments).rewind =
      w.occurrence.arguments := fun r => by rw [ha]; rfl
  simp only [takeName, run_bind, run_nextWord, hnext, run_modifyOccurrence, run_pure, hrewind]

theorem run_takeName_of_nameless (missing : Text → CompileError)
    (h : Arguments.words w.occurrence.arguments.rest = []) :
    ∃ w', (takeName missing).run w =
      (.error (missing (CompileError.openingTag w.occurrence.name)), w') := by
  obtain ⟨rest, hnext⟩ := Arguments.next_of_words_nil h
  simp only [takeName, run_bind, run_nextWord, hnext, run_get, run_throw]
  exact ⟨_, rfl⟩

end GenerateM

/-! ## The parts of the patterns -/

namespace FormDirective

theorem ofText_byKey : Pattern.ofText byKey.toList =
    [.plain "let form = ctx.lookup_form(".toList, .nextWord,
      .plain ")?; let ctx = ctx.enter_form(form); ".toList, .runtime,
      .plain "::render_form_begin(out, form, ".toList, .remainingWords, .plain ");".toList] := by
  delta byKey
  rw [String.toList_append]
  repeat rw [Text.toList_eq (by rfl)]
  decide +kernel

theorem ofText_byExpression : Pattern.ofText byExpression.toList =
    [.plain "let form = ctx.resolve_form(".toList, .nextWord,
      .plain ")?; let ctx = ctx.enter_form(form); ".toList, .runtime,
      .plain "::render_form_begin(out, form, ".toList, .remainingWords, .plain ");".toList] := by
  delta byExpression
  rw [String.toList_append]
  repeat rw [Text.toList_eq (by rfl)]
  decide +kernel

theorem ofText_closing : Pattern.ofText closing.toList =
    [.runtime, .plain "::render_form_end(out, ctx.form()?);".toList] := by
  delta closing
  repeat rw [Text.toList_eq (by rfl)]
  decide +kernel

end FormDirective

namespace ContainerDirective

theorem ofText_byKey : Pattern.ofText byKey.toList =
    [.plain "\x7b let form_container = ctx.container()?.container(".toList, .nextWord,
      .plain ")?; let ctx = ctx.enter_container(form_container);".toList] := by
  delta byKey
  rw [String.toList_append]
  repeat rw [Text.toList_eq (by rfl)]
  decide +kernel

theorem ofText_byExpression : Pattern.ofText byExpression.toList =
    [.plain "\x7b let form_container = ctx.resolve_container(".toList, .nextWord,
      .plain ")?; let ctx = ctx.enter_container(form_container);".toList] := by
  delta byExpression
  rw [String.toList_append]
  repeat rw [Text.toList_eq (by rfl)]
  decide +kernel

end ContainerDirective

namespace LabelDirective

theorem ofText_byKey : Pattern.ofText byKey.toList =
    [.plain "let ctx = ctx.with_label(ctx.control(".toList, .nextWord,
      .plain (")?.label(None)); if let Some(label) = ctx.label() \x7b ".toList
        ++ "out.push_str(&label.clone().add_attributes(".toList), .remainingWords,
      .plain ").to_html()); \x7d".toList] := by
  delta byKey
  rw [String.toList_append, String.toList_append]
  repeat rw [Text.toList_eq (by rfl)]
  decide +kernel

theorem ofText_byExpression : Pattern.ofText byExpression.toList =
    [.plain "let input = ctx.resolve_control(".toList, .nextWord,
      .plain (")?; let ctx = ctx.with_input(input).with_label(input.label(None)); ".toList
        ++ "if let Some(label) = ctx.label() \x7b ".toList
        ++ "out.push_str(&label.clone().add_attributes(".toList), .remainingWords,
      .plain ").to_html()); \x7d".toList] := by
  delta byExpression
  rw [String.toList_append, String.toList_append, String.toList_append]
  repeat rw [Text.toList_eq (by rfl)]
  decide +kernel

end LabelDirective

namespace InputDirective

theorem ofText_byKey : Pattern.ofText byKey.toList =
    [.plain "out.push_str(&ctx.control(".toList, .argument 0 .word,
      .plain ")?.get_control(&[".toList, .argument 1 .raw,
      .plain "]).add_attributes(".toList, .remainingWords, .plain ").to_html());".toList] := by
  delta byKey
  rw [String.toList_append]
  repeat rw [Text.toList_eq (by rfl)]
  decide +kernel

theorem ofText_byExpression : Pattern.ofText byExpression.toList =
    [.plain "let input = ctx.resolve_control(".toList, .argument 0 .word,
      .plain (")?; let ctx = ctx.with_input(input); ".toList
        ++ "out.push_str(&ctx.input()?.get_control(&[".toList), .argument 1 .raw,
      .plain "]).add_attributes(".toList, .remainingWords, .plain ").to_html());".toList] := by
  delta byExpression
  rw [String.toList_append]
  repeat rw [Text.toList_eq (by rfl)]
  decide +kernel

/-- The parts of the pattern of the attribute form, by what it is chosen
by: an expression, a label element, and attributes to merge. -/
def attributeParts (isExpression isLabel hasAttributes : Bool) : Pattern :=
  [.plain (if isExpression then "let input = ctx.resolve_control(".toList
      else "out.push_str(&ctx.control(".toList),
    .argument 0 .word,
    .plain ((if isExpression then
        ")?; let ctx = ctx.with_input(input); out.push_str(&ctx.input()?".toList else ")?".toList)
      ++ (if isLabel then ".get_label(&[".toList else ".get_control(&[".toList)),
    .argument 1 .raw]
  ++ if hasAttributes then
      [.plain "]).add_attributes(".toList, .argument 2 .var, .plain ").attributes());".toList]
    else [.plain "]).attributes());".toList]

theorem ofText_attributeCalls (isExpression isLabel isBare : Bool) :
    Pattern.ofText ((if isExpression then attributeByExpression else attributeByKey)
      ++ (if isLabel then labelCall else controlCall) ++ (if isBare then "" else mergeCall)
      ++ attributesCall).toList = attributeParts isExpression isLabel !isBare := by
  delta attributeParts attributeByExpression attributeByKey labelCall controlCall mergeCall
    attributesCall
  simp only [String.toList_append]
  cases isExpression <;> cases isLabel <;> cases isBare <;>
  · simp only [Bool.false_eq_true, if_true, if_false, String.toList_append]
    repeat rw [Text.toList_eq (by rfl)]
    decide +kernel

theorem ofText_attributePattern (r : Reference) (carrier : Carrier) :
    Pattern.ofText (attributePattern r carrier).toList =
      attributeParts r.isExpression (Text.sameIgnoringCase carrier.name "label".toList)
        !carrier.attributes.isEmpty :=
  ofText_attributeCalls _ _ _

end InputDirective

/-! ## What the opening tags generate -/

section Opening

variable (options : Options) (runtimePath : Text)
variable {arguments word : Text} {words : List Text} {w : Work} {a : Arguments}

theorem FormDirective.expand_opening (h : Arguments.words a.rest = word :: words) :
    ∃ a', (Pattern.ofText (if (Word.ofText word).isExpression then byExpression
        else byKey).toList).expand runtimePath [] a =
      (.ok ((Step.beginForm (.ofText word) (.ofWords words)).code runtimePath), a') := by
  obtain ⟨rest, hnext, hrest⟩ := Arguments.next_of_words_cons h
  refine ⟨{ a with rest := [] }, ?_⟩
  cases hname : Word.ofText word <;>
  · simp only [Word.isExpression, Bool.false_eq_true, if_true, if_false, ofText_byKey,
      ofText_byExpression, Pattern.expand, Pattern.expandPart, hnext, Arguments.all, hrest, hname,
      Word.code, Step.code, Step.statements, Statement.line_cons_cons, Statement.line_singleton]
    delta Statement.code
    dsimp only
    repeat rw [Text.toList_eq (by rfl)]
    simp only [List.cons_append, List.nil_append, List.append_assoc, List.append_nil]

/-- **A form's opening tag** generates the code that begins the form, and
binds the form. -/
theorem FormDirective.generateOpening_run (ha : w.occurrence.arguments = .ofText arguments)
    (h : Arguments.words arguments = word :: words) :
    ∃ a, (FormDirective.generateOpening options).run w =
      (.ok (), {
        occurrence := { w.occurrence with
          arguments := a
          opening := (Step.beginForm (.ofText word) (.ofWords words)).code options.runtimePath }
        bindings := w.bindings.bindForm (.ofText word) }) := by
  obtain ⟨a, hcode⟩ := expand_opening options.runtimePath
    (a := w.occurrence.arguments) (by rwa [ha])
  refine ⟨a, ?_⟩
  rw [generateOpening, run_bind_ok (run_takeName ha h), run_bind_ok (run_modifyBindings _ _),
    run_bind_ok (run_write (w := ⟨w.occurrence, w.bindings.bindForm (.ofText word)⟩) hcode),
    run_setOpening]

theorem ContainerDirective.expand_opening (h : Arguments.words a.rest = word :: words) :
    ∃ a', (Pattern.ofText (if (Word.ofText word).isExpression then byExpression
        else byKey).toList).expand runtimePath [] a =
      (.ok ((Step.enterContainer (.ofText word)).code runtimePath), a') := by
  obtain ⟨rest, hnext, hrest⟩ := Arguments.next_of_words_cons h
  refine ⟨{ a with rest }, ?_⟩
  cases hname : Word.ofText word <;>
  · simp only [Word.isExpression, Bool.false_eq_true, if_true, if_false, ofText_byKey,
      ofText_byExpression, Pattern.expand, Pattern.expandPart, hnext, hname, Word.code, Step.code,
      Step.statements, Statement.line_cons_cons, Statement.line_singleton]
    delta Statement.code
    dsimp only
    repeat rw [Text.toList_eq (by rfl)]
    simp only [List.cons_append, List.nil_append, List.append_assoc, List.append_nil]

/-- **A container's opening tag** generates the code that enters the
container, and enters it. -/
theorem ContainerDirective.generateOpening_run (ha : w.occurrence.arguments = .ofText arguments)
    (h : Arguments.words arguments = word :: words) :
    ∃ a, (ContainerDirective.generateOpening options).run w =
      (.ok (), {
        occurrence := { w.occurrence with
          arguments := a
          opening := (Step.enterContainer (.ofText word)).code options.runtimePath }
        bindings := w.bindings.enter (.ofText word) }) := by
  obtain ⟨a, hcode⟩ := expand_opening options.runtimePath
    (a := w.occurrence.arguments) (by rwa [ha])
  refine ⟨a, ?_⟩
  rw [generateOpening, run_bind_ok (run_takeName ha h), run_bind_ok (run_modifyBindings _ _),
    run_bind_ok (run_write (w := ⟨w.occurrence, w.bindings.enter (.ofText word)⟩) hcode),
    run_setOpening]

theorem LabelDirective.expand_opening (h : Arguments.words a.rest = word :: words) :
    ∃ a', (Pattern.ofText (if (Word.ofText word).isExpression then byExpression
        else byKey).toList).expand runtimePath [] a =
      (.ok ((Step.label (.ofText word) (.ofWords words) true).code runtimePath), a') := by
  obtain ⟨rest, hnext, hrest⟩ := Arguments.next_of_words_cons h
  refine ⟨{ a with rest := [] }, ?_⟩
  cases hname : Word.ofText word <;>
  · simp only [Word.isExpression, Bool.false_eq_true, if_true, if_false, ofText_byKey,
      ofText_byExpression, Pattern.expand, Pattern.expandPart, hnext, Arguments.all, hrest, hname,
      Word.code, Step.code, Step.statements, Statement.line_cons_cons, Statement.line_singleton]
    delta Statement.code
    dsimp only
    rw [if_pos rfl]
    repeat rw [Text.toList_eq (by rfl)]
    simp only [List.cons_append, List.nil_append, List.append_assoc, List.append_nil]

/-- **A label's opening tag** generates the code that shows the label as a
whole. -/
theorem LabelDirective.generateOpening_run (ha : w.occurrence.arguments = .ofText arguments)
    (h : Arguments.words arguments = word :: words) :
    ∃ a, (LabelDirective.generateOpening options).run w =
      (.ok (), { w with
        occurrence := { w.occurrence with
          arguments := a
          opening :=
            (Step.label (.ofText word) (.ofWords words) true).code options.runtimePath } }) := by
  obtain ⟨a, hcode⟩ := expand_opening options.runtimePath
    (a := w.occurrence.arguments) (by rwa [ha])
  refine ⟨a, ?_⟩
  rw [generateOpening, run_bind_ok (run_takeName ha h), run_bind_ok (run_write hcode),
    run_setOpening]

end Opening

/-! ## What the input directive generates -/

section Input

variable (options : Options) (runtimePath : Text)
variable {word : Text} {words : List Text} {w : Work} {a : Arguments} {name : Word}
variable {parts : List Word}

/-- A word refers to the control and the parts it is cut into. -/
theorem InputDirective.ofWord?_of_reference? (h : Directive.reference? word = some (name, parts)) :
    ∃ r, Reference.ofWord? word = some r ∧ Word.ofText r.name = name ∧
      r.modifiers = partsCode parts := by
  unfold Directive.reference? at h
  unfold Reference.ofWord?
  cases hpieces : Text.pieces (· == ':') word with
  | nil => rw [hpieces] at h; cases h
  | cons n modifiers =>
    rw [hpieces] at h
    dsimp only at h ⊢
    by_cases hn : n.isEmpty = true
    · rw [if_pos hn] at h; cases h
    · rw [if_neg hn] at h ⊢
      cases h
      exact ⟨_, rfl, rfl, by rw [partsCode, List.map_map]; rfl⟩

theorem InputDirective.ofWord?_of_nameless (h : Directive.reference? word = none) :
    Reference.ofWord? word = none := by
  unfold Directive.reference? at h
  unfold Reference.ofWord?
  cases hpieces : Text.pieces (· == ':') word with
  | nil => rfl
  | cons n modifiers =>
    rw [hpieces] at h
    dsimp only at h ⊢
    by_cases hn : n.isEmpty = true
    · rw [if_pos hn]
    · rw [if_neg hn] at h; cases h

/-- Taking the reference takes the first word. -/
theorem InputDirective.run_takeReference (missing : Occurrence → CompileError)
    (hwords : Arguments.words w.occurrence.arguments.rest = word :: words)
    (h : Directive.reference? word = some (name, parts)) :
    ∃ r a, (takeReference missing).run w =
        (.ok r, { w with occurrence := { w.occurrence with arguments := a } }) ∧
      Word.ofText r.name = name ∧ r.modifiers = partsCode parts ∧
      Arguments.words a.rest = words := by
  obtain ⟨rest, hnext, hrest⟩ := Arguments.next_of_words_cons hwords
  obtain ⟨r, hr, hname, hmodifiers⟩ := ofWord?_of_reference? h
  refine ⟨r, { w.occurrence.arguments with rest }, ?_, hname, hmodifiers, hrest⟩
  simp only [takeReference, run_bind, run_nextWord, hnext, Option.bind_some, hr, run_pure]

theorem InputDirective.run_takeReference_of_nameless (missing : Occurrence → CompileError)
    (h : ∀ word words, Arguments.words w.occurrence.arguments.rest = word :: words →
      Directive.reference? word = none) :
    ∃ a w', (takeReference missing).run w =
      (.error (missing { w.occurrence with arguments := a }), w') := by
  cases hwords : Arguments.words w.occurrence.arguments.rest with
  | nil =>
    obtain ⟨rest, hnext⟩ := Arguments.next_of_words_nil hwords
    simp only [takeReference, run_bind, run_nextWord, hnext, Option.bind_none, run_get, run_throw]
    exact ⟨_, _, rfl⟩
  | cons word words =>
    obtain ⟨rest, hnext, -⟩ := Arguments.next_of_words_cons hwords
    simp only [takeReference, run_bind, run_nextWord, hnext, Option.bind_some,
      ofWord?_of_nameless (h word words hwords), run_get, run_throw]
    exact ⟨_, _, rfl⟩

theorem InputDirective.expand_opening {r : Reference} (hname : Word.ofText r.name = name)
    (hmodifiers : r.modifiers = partsCode parts) (hwords : Arguments.words a.rest = words) :
    ∃ a', (Pattern.ofText (if r.isExpression then byExpression else byKey).toList).expand
        runtimePath [.text r.name, .text r.modifiers] a =
      (.ok ((Step.input name parts (.ofWords words)).code runtimePath), a') := by
  refine ⟨{ a with rest := [] }, ?_⟩
  cases name <;>
  · simp only [Reference.isExpression, hname, hmodifiers, Word.isExpression, Bool.false_eq_true,
      if_true, if_false, ofText_byKey, ofText_byExpression, Pattern.expand, Pattern.expandPart,
      Pattern.argumentCode, List.getElem?_cons_zero, List.getElem?_cons_succ, Arguments.all,
      hwords, Word.code, Step.code, Step.statements, Step.withControl, Statement.line_cons_cons,
      Statement.line_singleton]
    delta Statement.code ControlSource.code
    dsimp only
    repeat rw [Text.toList_eq (by rfl)]
    simp only [List.cons_append, List.nil_append, List.append_assoc, List.append_nil]

/-- **An input directive** generates the code that shows the control. -/
theorem InputDirective.generateOpening_run
    (hwords : Arguments.words w.occurrence.arguments.rest = word :: words)
    (h : Directive.reference? word = some (name, parts)) :
    ∃ a, (InputDirective.generateOpening options).run w =
      (.ok (), { w with
        occurrence := { w.occurrence with
          arguments := a
          opening := (Step.input name parts (.ofWords words)).code options.runtimePath } }) := by
  obtain ⟨r, a, hrun, hname, hmodifiers, hrest⟩ := run_takeReference
    (fun o => .missingName (CompileError.openingTag o.name)) hwords h
  obtain ⟨a', hcode⟩ := expand_opening options.runtimePath hname hmodifiers hrest
  refine ⟨a', ?_⟩
  rw [generateOpening, run_bind_ok hrun, run_bind_ok (run_write hcode), run_setOpening]

theorem InputDirective.expand_attribute {r : Reference} (carrier : Carrier)
    (hname : Word.ofText r.name = name) (hmodifiers : r.modifiers = partsCode parts) :
    (Pattern.ofText (attributePattern r carrier).toList).expand runtimePath
        [.text r.name, .text r.modifiers,
          .attributes (carrier.attributes.map fun a => (a.1, .absent))] a =
      (.ok ((Step.attributes (Text.sameIgnoringCase carrier.name "label".toList) name parts
        (carrier.attributes.map (·.1))).code runtimePath), a) := by
  rw [ofText_attributePattern, Reference.isExpression, hname]
  delta attributeParts
  generalize Text.sameIgnoringCase carrier.name "label".toList = isLabel
  cases hattributes : carrier.attributes.isEmpty <;> cases name <;> cases isLabel <;>
  · simp only [hname, hmodifiers, Word.isExpression, Bool.false_eq_true, Bool.not_true,
      Bool.not_false, if_true, if_false, Pattern.expand, Pattern.expandPart, List.cons_append,
      List.nil_append, List.map_map, Function.comp_def, Pattern.argumentCode,
      List.getElem?_cons_zero, List.getElem?_cons_succ, Word.code, Step.code, Step.statements,
      Step.withControl, Statement.line_cons_cons, Statement.line_singleton]
    delta Statement.code ControlSource.code
    dsimp only
    simp only [List.isEmpty_map, hattributes, Bool.false_eq_true, if_true, if_false]
    repeat rw [Text.toList_eq (by rfl)]
    simp only [List.cons_append, List.nil_append, List.append_assoc, List.append_nil]

/-- **An input directive as an attribute** generates the code that shows
the attributes of the control or of its label. -/
theorem InputDirective.generateAttribute_run {carrier : Carrier}
    (hwords : Arguments.words w.occurrence.arguments.rest = word :: words)
    (h : Directive.reference? word = some (name, parts))
    (hcarrier : w.occurrence.carrier.getD {} = carrier) :
    ∃ a, (InputDirective.generateAttribute options).run w =
      (.ok (), { w with
        occurrence := { w.occurrence with
          arguments := a
          opening := (Step.attributes (Text.sameIgnoringCase carrier.name "label".toList) name
            parts (carrier.attributes.map (·.1))).code options.runtimePath } }) := by
  obtain ⟨r, a, hrun, hname, hmodifiers, -⟩ := run_takeReference
    (fun o => .missingName (options.attributePrefix ++ o.name)) hwords h
  have hcode := expand_attribute options.runtimePath (a := a) carrier hname hmodifiers
  refine ⟨a, ?_⟩
  rw [generateAttribute, run_bind_ok hrun, run_bind_ok (run_get _)]
  simp only [hcarrier]
  rw [run_bind_ok (run_write hcode), run_setOpening]

end Input

/-! ## All directives -/

namespace Directive

variable (options : Options) {arguments : Text} {hasBody : Bool} {step : Step} {w : Work}
variable {d : Directive}

/-- The error of an opening tag without a name. -/
def nameError : Directive → CompileError
  | .form => .missingFormName (CompileError.openingTag (name .form))
  | .formContainer => .missingFormName (CompileError.openingTag (name .formContainer))
  | .label => .missingName (CompileError.openingTag (name .label))
  | .input => .missingName (CompileError.openingTag (name .input))

/-- The arguments of an opening tag that names something have a word. -/
theorem words_of_openingStep? (h : d.openingStep? arguments hasBody = some step) :
    ∃ word words, Arguments.words arguments = word :: words := by
  unfold openingStep? at h
  cases hwords : Arguments.words arguments with
  | nil => rw [hwords] at h; cases h
  | cons word words => exact ⟨word, words, rfl⟩

/-- **An opening tag with a name generates the code of its step** and does
to the bindings what the step does. -/
theorem generateOpening_run (ha : w.occurrence.arguments = .ofText arguments)
    (h : d.openingStep? arguments false = some step) :
    ∃ a b, step.bind w.bindings = .ok b ∧
      (d.generateOpening options).run w =
        (.ok (), {
          occurrence := { w.occurrence with
            arguments := a, opening := step.code options.runtimePath }
          bindings := b }) := by
  obtain ⟨word, words, hwords⟩ := words_of_openingStep? h
  unfold openingStep? at h
  rw [hwords] at h
  cases d with
  | form =>
    cases h
    obtain ⟨a, hrun⟩ := FormDirective.generateOpening_run options ha hwords
    exact ⟨a, _, rfl, hrun⟩
  | formContainer =>
    cases h
    obtain ⟨a, hrun⟩ := ContainerDirective.generateOpening_run options ha hwords
    exact ⟨a, _, rfl, hrun⟩
  | label =>
    cases h
    obtain ⟨a, hrun⟩ := LabelDirective.generateOpening_run options ha hwords
    exact ⟨a, _, rfl, hrun⟩
  | input =>
    obtain ⟨⟨name, parts⟩, hr, rfl⟩ := Option.map_eq_some_iff.1 h
    obtain ⟨a, hrun⟩ := InputDirective.generateOpening_run options (w := w)
      (by rwa [ha]) hr
    exact ⟨a, _, rfl, hrun⟩

/-- **An opening tag without a name fails** and says so. -/
theorem generateOpening_of_nameless (ha : w.occurrence.arguments = .ofText arguments)
    (hname : w.occurrence.name = d.name) (h : d.openingStep? arguments false = none) :
    ∃ w', (d.generateOpening options).run w = (.error d.nameError, w') := by
  unfold openingStep? at h
  cases hwords : Arguments.words arguments with
  | nil =>
    have hrest : Arguments.words w.occurrence.arguments.rest = [] := by rwa [ha]
    cases d with
    | form =>
      obtain ⟨w', hrun⟩ := run_takeName_of_nameless .missingFormName hrest
      refine ⟨w', ?_⟩
      rw [generateOpening, FormDirective.generateOpening, run_bind, hrun, hname, nameError]
    | formContainer =>
      obtain ⟨w', hrun⟩ := run_takeName_of_nameless .missingFormName hrest
      refine ⟨w', ?_⟩
      rw [generateOpening, ContainerDirective.generateOpening, run_bind, hrun, hname, nameError]
    | label =>
      obtain ⟨w', hrun⟩ := run_takeName_of_nameless .missingName hrest
      refine ⟨w', ?_⟩
      rw [generateOpening, LabelDirective.generateOpening, run_bind, hrun, hname, nameError]
    | input =>
      obtain ⟨a, w', hrun⟩ := InputDirective.run_takeReference_of_nameless (w := w)
        (fun o => .missingName (CompileError.openingTag o.name)) (by simp [hrest])
      refine ⟨w', ?_⟩
      rw [generateOpening, InputDirective.generateOpening, run_bind, hrun, hname, nameError]
  | cons word words =>
    -- Any word is a name, but for an input, which needs what is before the colon.
    rw [hwords] at h
    cases d with
    | form => cases h
    | formContainer => cases h
    | label => cases h
    | input =>
      obtain ⟨a, w', hrun⟩ := InputDirective.run_takeReference_of_nameless (w := w)
        (fun o => .missingName (CompileError.openingTag o.name))
        (by
          intro word' words' hwords'
          rw [ha] at hwords'
          obtain ⟨rfl, rfl⟩ := List.cons.inj (hwords.symm.trans hwords')
          exact Option.map_eq_none_iff.1 h)
      refine ⟨w', ?_⟩
      rw [generateOpening, InputDirective.generateOpening, run_bind, hrun, hname, nameError]

/-- **A start tag that carries a directive with a name generates the code
of its step** and leaves the bindings alone. -/
theorem generateAttribute_run {name : Text} {attributes : List RawAttribute}
    (ha : w.occurrence.arguments = .ofText arguments)
    (hcarrier : w.occurrence.carrier =
      some { name, attributes := attributes.map fun a => (a.name, a.value) })
    (h : attributeStep? name arguments attributes = some step) :
    step.bind w.bindings = .ok w.bindings ∧
      ∃ a, (generateAttribute options .input).run w =
        (.ok (), { w with
          occurrence := { w.occurrence with
            arguments := a, opening := step.code options.runtimePath } }) := by
  unfold attributeStep? at h
  cases hwords : Arguments.words arguments with
  | nil => rw [hwords] at h; cases h
  | cons word words =>
    rw [hwords] at h
    obtain ⟨⟨reference, parts⟩, hr, rfl⟩ := Option.map_eq_some_iff.1 h
    refine ⟨rfl, ?_⟩
    obtain ⟨a, hrun⟩ := InputDirective.generateAttribute_run options (w := w)
      (by rwa [ha]) hr (by rw [hcarrier, Option.getD_some])
    refine ⟨a, ?_⟩
    rw [generateAttribute, hrun, List.map_map]
    rfl

/-- **A start tag whose directive has no name fails** and says so. -/
theorem generateAttribute_of_nameless {name : Text} {attributes : List RawAttribute}
    (ha : w.occurrence.arguments = .ofText arguments)
    (h : attributeStep? name arguments attributes = none) :
    ∃ w', (generateAttribute options .input).run w =
      (.error (.missingName (options.attributePrefix ++ w.occurrence.name)), w') := by
  obtain ⟨a, w', hrun⟩ := InputDirective.run_takeReference_of_nameless (w := w)
    (fun o => .missingName (options.attributePrefix ++ o.name)) (by
      intro word words hwords
      rw [ha] at hwords
      unfold attributeStep? at h
      rw [show Arguments.words arguments = word :: words from hwords] at h
      exact Option.map_eq_none_iff.1 h)
  refine ⟨w', ?_⟩
  rw [generateAttribute, InputDirective.generateAttribute, run_bind, hrun]

/-! ## What the closing tags generate -/

/-- The code of a label ends the same way whether the label is shown as a
whole or not, but for one call. -/
theorem code_label (runtimePath : Text) (name : Word) (as : AttributeList) :
    ∃ front, ∀ whole, (Step.label name as whole).code runtimePath =
      front ++ ((if whole then ".to_html()" else ".start_tag()").toList ++ "); \x7d".toList) := by
  cases name with
  | literal k =>
    refine ⟨(Statement.withLabel k).code runtimePath ++ ' ' ::
      ("if let Some(label) = ctx.label() \x7b out.push_str(&label.clone().add_attributes(".toList
        ++ as.code ++ [')']), fun whole => ?_⟩
    simp only [Step.code, Step.statements, Statement.line_cons_cons, Statement.line_singleton]
    delta Statement.code
    simp only [List.append_assoc, List.cons_append, List.nil_append]
  | expression e =>
    refine ⟨(Statement.letInput e).code runtimePath ++ ' ' ::
      (Statement.withInputAndLabel.code runtimePath ++ ' ' ::
        ("if let Some(label) = ctx.label() \x7b out.push_str(&label.clone().add_attributes(".toList
          ++ as.code ++ [')'])), fun whole => ?_⟩
    simp only [Step.code, Step.statements, Statement.line_cons_cons, Statement.line_singleton]
    delta Statement.code
    simp only [List.append_assoc, List.cons_append, List.nil_append]

/-- So the whole label becomes its start tag by one replacement. -/
theorem replaceLast?_code_label (runtimePath : Text) (name : Word) (as : AttributeList) :
    Text.replaceLast? LabelDirective.wholeElement LabelDirective.startTag
        ((Step.label name as true).code runtimePath) =
      some ((Step.label name as false).code runtimePath) := by
  -- Attributes may spell the call too, so it has to be the last that is replaced.
  obtain ⟨front, hfront⟩ := code_label runtimePath name as
  rw [hfront, hfront, if_pos rfl, if_neg Bool.false_ne_true]
  refine Text.replaceLast?_append front ?_
  delta LabelDirective.wholeElement LabelDirective.startTag
  repeat rw [Text.toList_eq (by rfl)]
  decide +kernel

/-- The code at a closing tag. -/
def closingCode (runtimePath : Text) (d : Directive) (hasBody : Bool) : Text :=
  (d.closingSteps hasBody).flatMap (Step.code runtimePath)

theorem expand_endForm (runtimePath : Text) (a : Arguments) :
    (Pattern.ofText FormDirective.closing.toList).expand runtimePath [] a =
      (.ok (Step.endForm.code runtimePath), a) := by
  simp only [FormDirective.ofText_closing, Pattern.expand, Pattern.expandPart, Step.code,
    Step.statements, Statement.line_singleton, List.append_nil]
  delta Statement.code
  rfl

theorem code_endLabel (runtimePath : Text) :
    Step.endLabel.code runtimePath = LabelDirective.closing := by
  rw [Step.code, Step.statements, Statement.line_singleton]
  delta Statement.code LabelDirective.closing
  dsimp only
  repeat rw [Text.toList_eq (by rfl)]
  decide +kernel

/-- **A closing tag generates the code of its steps** and does to the
bindings what they do. The opening code is then that of the opening step
for the body there is. -/
theorem generateClosing_run {b : BindingStack} (h : d.openingStep? arguments false = some step)
    (hopening : w.occurrence.opening = step.code options.runtimePath)
    (hclosing : w.occurrence.closing = [])
    (hb : Script.bindings (d.closingSteps w.occurrence.hasBody) w.bindings = .ok b) :
    ∃ step', d.openingStep? arguments w.occurrence.hasBody = some step' ∧
      (d.generateClosing options).run w =
        (.ok (), {
          occurrence := { w.occurrence with
            opening := step'.code options.runtimePath
            closing := closingCode options.runtimePath d w.occurrence.hasBody }
          bindings := b }) := by
  -- Only a label looks at its body: it rewrites the opening code it has.
  obtain ⟨⟨name, a, line, carrier, body, opening, closing⟩, bindings⟩ := w
  dsimp only [Occurrence.hasBody] at hopening hclosing hb ⊢
  subst hopening hclosing
  obtain ⟨word, words, hwords⟩ := words_of_openingStep? h
  unfold openingStep? at h ⊢
  rw [hwords] at h ⊢
  cases d with
  | form =>
    cases h; cases hb
    refine ⟨_, rfl, ?_⟩
    rw [generateClosing, FormDirective.generateClosing,
      run_bind_ok (run_write (expand_endForm options.runtimePath a)), run_setClosing]
    simp [closingCode, closingSteps]
  | formContainer =>
    cases h
    refine ⟨_, rfl, ?_⟩
    have hleave : bindings.leave = .ok b := by
      simpa [Script.bindings, closingSteps, Step.bind] using hb
    rw [generateClosing, ContainerDirective.generateClosing, run_bind_ok (run_get _)]
    dsimp only
    rw [hleave]
    rfl
  | label =>
    cases h
    refine ⟨_, rfl, ?_⟩
    rw [generateClosing, LabelDirective.generateClosing, run_bind_ok (run_get _)]
    cases body with
    | none => cases hb; rfl
    | some body =>
      cases hb
      simp only [Occurrence.hasBody, Option.isSome_some, if_true, Bool.not_false,
        replaceLast?_code_label]
      rw [run_bind_ok (run_setOpening _ _), run_setClosing]
      simp only [closingCode, closingSteps, if_true, List.flatMap_singleton, Bool.not_true,
        code_endLabel]
  | input =>
    cases hb
    exact ⟨step, h, rfl⟩

end Directive

end Template

end FormTemplate
