import FormTemplate.Proofs.Render.Execution
import FormTemplate.Proofs.Template.Steps

/-!
# The tags of a label

A label with a body has a start tag and an end tag to print. The start tag
is the one of the control's label, which kinds of control that the user
does not see or that say themselves what they are do not have: for them the
opening tag prints nothing (`LabelTags.unlabelled`). The closing tag prints
the end tag without a look at the control (`LabelTags.ended`). So the two are
in step for the kinds that have a label and for no others
(`compile_ends_every_label`).
-/

namespace FormTemplate

open FormTemplate.Bracket

namespace Form

namespace Control

variable {c : Control} {caption : Option Text} {label : Markup.Element}

/-- The kind of a control decides whether it has a label. -/
theorem label_eq_none : c.label caption = none ↔ c.kind.hasLabel = false := by
  rw [label]
  split <;> simp_all

/-- A label is a label element, and stays one when attributes are added. -/
theorem name_merge_of_label (h : c.label caption = some label) (m : Markup.Merge) :
    (label.merge m).name = "label".toList := by
  have hpointing : (c.pointingLabel caption).name = "label".toList := by
    rw [pointingLabel]
    split <;> rfl
  rw [Control.label] at h
  split at h
  · cases h
    split <;> exact hpointing
  · cases h

end Control

end Form

namespace Render

open Form Markup Template

namespace Page

variable {eval : Evaluation} {p q : Page} {name : Word} {as : AttributeList} {whole : Bool}

/-! ## What the tags print -/

/-- The control that a word stands for. -/
def controlOf (eval : Evaluation) (p : Page) (name : Word) : Except Failure Control := do
  let place ← call (p.scope.context.resolveControl p.registry (← eval.targetOf p name))
  call (controlAt p.registry place)

/-- What is printed between two pages is a start tag of a label. -/
def PrintsStartTag (p q : Page) : Prop :=
  ∃ attributes, q.out = p.out ++ startTag "label".toList attributes

/-- What is printed between two pages is the end tag of a label. -/
def PrintsEndTag (p q : Page) : Prop := q.out = p.out ++ "</label>".toList

/-- What prints a start tag prints something. -/
theorem PrintsStartTag.out_ne (h : PrintsStartTag p q) : q.out ≠ p.out := by
  obtain ⟨attributes, hout⟩ := h
  simp [hout, startTag]

/-- The page on which the label of a control is bound, and the control too
when an expression gives it. -/
def withLabelOf (p : Page) (name : Word) (place : Place) (control : Control) : Page :=
  match name with
  | .literal _ => p.withContext (p.scope.context.withLabel (control.label none))
  | .expression _ =>
    { p with scope.input := some place }.withContext
      ((p.scope.context.withInput place).withLabel (control.label none))

@[simp] theorem label_withLabelOf (p : Page) (name : Word) (place : Place) (control : Control) :
    (p.withLabelOf name place control).scope.context.label = control.label none := by
  cases name <;> rfl

@[simp] theorem out_withLabelOf (p : Page) (name : Word) (place : Place) (control : Control) :
    (p.withLabelOf name place control).out = p.out := by
  cases name <;> rfl

/-- What comes after a computation that succeeds. -/
theorem bind_of_ok {α β : Type} {x : Except Failure α} {a : α} (h : x = .ok a)
    (f : α → Except Failure β) : x >>= f = f a := by
  rw [h]
  rfl

/-- **The step of a label** finds the control, binds its label, and prints
the label. -/
theorem step_label_eq_ok : p.step eval (.label name as whole) = .ok q ↔
    ∃ t place control, eval.targetOf p name = .ok t ∧
      p.scope.context.resolveControl p.registry t = .ok place ∧
      controlAt p.registry place = .ok control ∧
      (p.withLabelOf name place control).exec eval (.printLabel as whole) = .ok q := by
  constructor
  · intro h
    cases name with
    | literal k =>
      obtain ⟨r, hlabel, h⟩ := exists_of_bind h
      obtain ⟨place, hplace, hlabel⟩ := exists_of_bind hlabel
      obtain ⟨control, hcontrol, hlabel⟩ := exists_of_bind hlabel
      cases hlabel
      rw [List.foldlM_cons] at h
      obtain ⟨r, hprint, h⟩ := exists_of_bind h
      cases h
      exact ⟨.named k, place, control, rfl, ok_of_call hplace, ok_of_call hcontrol, hprint⟩
    | expression e =>
      obtain ⟨r, hinput, h⟩ := exists_of_bind h
      obtain ⟨t, ht, hinput⟩ := exists_of_bind hinput
      obtain ⟨place, hplace, hinput⟩ := exists_of_bind hinput
      cases hinput
      obtain ⟨r, hlabel, h⟩ := exists_of_bind h
      obtain ⟨place, hbound, hlabel⟩ := exists_of_bind hlabel
      cases hbound
      obtain ⟨control, hcontrol, hlabel⟩ := exists_of_bind hlabel
      cases hlabel
      obtain ⟨r, hprint, h⟩ := exists_of_bind h
      cases h
      exact ⟨t, place, control, ht, ok_of_call hplace, ok_of_call hcontrol, hprint⟩
  · rintro ⟨t, place, control, ht, hplace, hcontrol, hprint⟩
    cases name with
    | literal k =>
      cases ht
      have hfound : p.controlPlace (.key k) = .ok place := congrArg call hplace
      have hlabel : p.exec eval (.withLabel k) =
          .ok (p.withLabelOf (.literal k) place control) :=
        (bind_of_ok hfound _).trans (bind_of_ok (congrArg call hcontrol) _)
      exact (bind_of_ok hlabel _).trans (bind_of_ok hprint _)
    | expression e =>
      have hinput : p.exec eval (.letInput e) = .ok { p with scope.input := some place } :=
        (bind_of_ok ht _).trans (bind_of_ok (congrArg call hplace) _)
      have hlabel : exec eval { p with scope.input := some place } .withInputAndLabel =
          .ok (p.withLabelOf (.expression e) place control) :=
        bind_of_ok (congrArg call hcontrol) _
      exact (bind_of_ok hinput _).trans ((bind_of_ok hlabel _).trans (bind_of_ok hprint _))

theorem controlOf_eq_ok {control : Control} : p.controlOf eval name = .ok control ↔
    ∃ t place, eval.targetOf p name = .ok t ∧
      p.scope.context.resolveControl p.registry t = .ok place ∧
      controlAt p.registry place = .ok control := by
  constructor
  · intro h
    obtain ⟨t, ht, h⟩ := exists_of_bind h
    obtain ⟨place, hplace, h⟩ := exists_of_bind h
    exact ⟨t, place, ht, ok_of_call hplace, ok_of_call h⟩
  · rintro ⟨t, place, ht, hplace, hcontrol⟩
    have hfound : call (controlAt p.registry place) = .ok control := congrArg call hcontrol
    exact (bind_of_ok ht _).trans ((bind_of_ok (congrArg call hplace) _).trans hfound)

/-- **What the tags of a label with a body print**: from `p₁` to `p₂` its
opening tag and from `p₃` to `p₄` its closing tag, for a control that its
name stands for. -/
structure LabelTags (eval : Evaluation) (as : AttributeList) (control : Control)
    (p₁ p₂ p₃ p₄ : Page) : Prop where
  /-- A label's start tag has the attributes of the tag. -/
  labelled : ∀ label, control.label none = some label →
    ∃ p m, eval.merge p as = .ok m ∧ p₂.out = p₁.out ++ (label.merge m).startTag
  /-- Without a label nothing is printed. -/
  unlabelled : control.label none = none → p₂.out = p₁.out
  /-- The end tag comes in any case. -/
  ended : PrintsEndTag p₃ p₄

/-- The tags of a label in a run. -/
theorem exists_labelTags {p₁ p₂ p₃ p₄ : Page}
    (hopening : p₁.step eval (.label name as false) = .ok p₂)
    (hclosing : p₃.step eval .endLabel = .ok p₄) :
    ∃ control, p₁.controlOf eval name = .ok control ∧ LabelTags eval as control p₁ p₂ p₃ p₄ := by
  obtain ⟨t, place, control, ht, hplace, hcontrol, hprint⟩ := step_label_eq_ok.1 hopening
  have hout := out_withLabelOf p₁ name place control
  rw [exec, label_withLabelOf] at hprint
  refine ⟨control, controlOf_eq_ok.2 ⟨t, place, ht, hplace, hcontrol⟩, ?_, ?_, ?_⟩
  · intro label hlabel
    rw [hlabel] at hprint
    obtain ⟨m, hm, hprint⟩ := exists_of_bind hprint
    obtain rfl := Except.ok.inj hprint
    exact ⟨_, m, hm, congrArg (· ++ (label.merge m).startTag) hout⟩
  · intro hlabel
    rw [hlabel] at hprint
    obtain rfl := Except.ok.inj hprint
    exact hout
  · cases hclosing
    rfl

/-- The opening tag of a label without a label to print never fails. -/
theorem exists_step_label {control : Control} (h : p.controlOf eval name = .ok control)
    (hlabel : control.kind.hasLabel = false) (as : AttributeList) (whole : Bool) :
    ∃ q, p.step eval (.label name as whole) = .ok q := by
  obtain ⟨t, place, ht, hplace, hcontrol⟩ := controlOf_eq_ok.1 h
  refine ⟨p.withLabelOf name place control,
    step_label_eq_ok.2 ⟨t, place, control, ht, hplace, hcontrol, ?_⟩⟩
  rw [exec, label_withLabelOf, Control.label_eq_none.2 hlabel]

/-- A start tag is printed for the kinds of control that have a label. -/
theorem LabelTags.printsStartTag_iff {control : Control} {p₁ p₂ p₃ p₄ : Page}
    (h : LabelTags eval as control p₁ p₂ p₃ p₄) :
    PrintsStartTag p₁ p₂ ↔ control.kind.hasLabel = true := by
  cases hlabel : control.label none with
  | none =>
    have hout := h.unlabelled hlabel
    have hkind := Control.label_eq_none.1 hlabel
    simp only [hkind, Bool.false_eq_true, iff_false]
    exact fun hprints => hprints.out_ne hout
  | some label =>
    obtain ⟨-, m, -, hout⟩ := h.labelled label hlabel
    have hkind : control.kind.hasLabel = true := by
      by_contra hnot
      rw [Bool.not_eq_true, ← Control.label_eq_none, hlabel] at hnot
      cases hnot
    refine iff_of_true ⟨(label.merge m).attributes, ?_⟩ hkind
    rw [hout, Element.startTag, Control.name_merge_of_label hlabel]

/-- **The tags of a label are balanced** for those kinds only. -/
theorem LabelTags.balanced_iff {control : Control} {p₁ p₂ p₃ p₄ : Page}
    (h : LabelTags eval as control p₁ p₂ p₃ p₄) :
    (PrintsEndTag p₃ p₄ ↔ PrintsStartTag p₁ p₂) ↔ control.kind.hasLabel = true := by
  rw [← h.printsStartTag_iff]
  exact ⟨fun hiff => hiff.1 h.ended, iff_of_true h.ended⟩

end Page

/-! ## Labels of a template -/

/-- **Which tags a label prints**, in every template that compiles: a label
with a body has its step at the opening tag and the end of a label at the
closing tag. On every page the closing tag prints an end tag, whereas the
opening tag prints a start tag just for the kinds of control that have a
label, and runs for the others without printing anything. -/
theorem compile_ends_every_label {options : Options} {template : Text} {p : Program}
    (h : compile options template = .ok p) :
    ∃ parts, Piece.allSteps? false (Piece.ofText options.attributePrefix template) = some parts ∧
      p = Script.program options.runtimePath parts.flatten ∧
      ∀ before arguments source body source' after,
        Piece.ofText options.attributePrefix template =
          before ++ .tag (.opening .label arguments false) source ::
            (body ++ .tag (.closing .label) source' :: after) →
        Nested (Site.brackets (Piece.sites [] body)) → body ≠ [] →
        ∃ word words former inner latter, Arguments.words arguments = word :: words ∧
          parts = former ++ [.label (.ofText word) (.ofWords words) false] ::
            (inner ++ [.endLabel] :: latter) ∧
          former.length = before.length ∧ inner.length = body.length ∧
          (∀ (eval : Evaluation) (p₁ p₂ p₃ p₄ : Page),
            p₁.step eval (.label (.ofText word) (.ofWords words) false) = .ok p₂ →
            p₂.run eval inner.flatten = .ok p₃ → p₃.step eval .endLabel = .ok p₄ →
            ∃ control, Page.controlOf eval p₁ (.ofText word) = .ok control ∧
              Page.LabelTags eval (.ofWords words) control p₁ p₂ p₃ p₄ ∧
              ((p₃.PrintsEndTag p₄ ↔ p₁.PrintsStartTag p₂) ↔ control.kind.hasLabel = true)) ∧
          ∀ (eval : Evaluation) (p₁ : Page) (control : Control),
            Page.controlOf eval p₁ (.ofText word) = .ok control →
            control.kind.hasLabel = false →
            ∃ p₂, p₁.step eval (.label (.ofText word) (.ofWords words) false) = .ok p₂ := by
  obtain ⟨parts, hlaidOut, rfl⟩ := laidOut_of_compile h
  refine ⟨parts, hlaidOut.allSteps?_eq, rfl, ?_⟩
  intro before arguments source body source' after hpieces hbody hne
  have hsteps := hlaidOut.allSteps?_eq
  rw [hpieces] at hsteps
  obtain ⟨step, former, inner, latter, hstep, hparts, hformer, hinner⟩ :=
    Piece.exists_of_allSteps?_block rfl hbody hsteps
  have hhasBody : (!body.isEmpty) = true := by simpa using hne
  rw [hhasBody] at hstep hparts
  obtain ⟨word, words, hwords⟩ := Directive.words_of_openingStep? hstep
  rw [Directive.openingStep?, hwords] at hstep
  cases hstep
  refine ⟨word, words, former, inner, latter, hwords, hparts, hformer, hinner, ?_, ?_⟩
  · intro eval p₁ p₂ p₃ p₄ hopening _ hclosing
    obtain ⟨control, hcontrol, htags⟩ := Page.exists_labelTags hopening hclosing
    exact ⟨control, hcontrol, htags, htags.balanced_iff⟩
  · intro eval p₁ control hcontrol hlabel
    exact Page.exists_step_label hcontrol hlabel _ _

/-- A page in a form with one control that the user does not see. -/
def hiddenPage : Page where
  registry := [(Form.create ['f']).modifyRoot fun root =>
    root.insert (.control (root.newControl ['a'] .hidden))]
  scope := { context := ({} : Context).enterForm ['f'] }

/-- The label of such a control is ended and was never begun. -/
theorem compile_ends_every_label_of_hidden :
    ∃ p p₂ p₃ p₄ control, compile {} "\x7blabel a\x7db\x7b/label\x7d".toList = .ok p ∧
      hiddenPage.controlOf .none (.literal ['a']) = .ok control ∧
      Page.LabelTags .none [] control hiddenPage p₂ p₃ p₄ ∧
      ¬ (p₃.PrintsEndTag p₄ ↔ hiddenPage.PrintsStartTag p₂) ∧ p₄.out = "b</label>".toList := by
  have hisOk : (compile {} "\x7blabel a\x7db\x7b/label\x7d".toList).isOk = true := by
    rw [Text.toList_eq (by rfl)]
    decide +kernel
  have hpieces : Piece.ofText "n:".toList "\x7blabel a\x7db\x7b/label\x7d".toList =
      [] ++ .tag (.opening .label ['a'] false) "\x7blabel a\x7d".toList ::
        ([.text ['b']] ++ [.tag (.closing .label) "\x7b/label\x7d".toList]) := by
    repeat rw [Text.toList_eq (by rfl)]
    decide +kernel
  have hall : ∀ source source', Piece.allSteps? false
      ([] ++ .tag (.opening .label ['a'] false) source ::
        ([.text ['b']] ++ [.tag (.closing .label) source'])) =
      some [[.label (.literal ['a']) [] false], [.text ['b']], [.endLabel]] := by
    intro source source'
    rfl
  have hwords : Arguments.words ['a'] = [['a']] := by decide +kernel
  have hword : Word.ofText ['a'] = .literal ['a'] := by decide
  have hout : (hiddenPage.run .none
      [.label (.literal ['a']) [] false, .text ['b'], .endLabel]).toOption.map Page.out =
        some "b</label>".toList := by
    rw [Text.toList_eq (by rfl)]
    decide +kernel
  have hkind : ∀ control, hiddenPage.controlOf .none (.literal ['a']) = .ok control →
      control.kind.hasLabel = false := by
    intro control hcontrol
    have hall : (hiddenPage.controlOf .none (.literal ['a'])).toOption.map (·.kind.hasLabel) =
        some false := by decide +kernel
    rw [hcontrol] at hall
    exact Option.some.inj hall
  cases hok : compile {} "\x7blabel a\x7db\x7b/label\x7d".toList with
  | error e => rw [hok] at hisOk; cases hisOk
  | ok p =>
    cases hrun : hiddenPage.run .none
        [.label (.literal ['a']) [] false, .text ['b'], .endLabel] with
    | error e => rw [hrun] at hout; cases hout
    | ok p₄ =>
      rw [hrun] at hout
      obtain ⟨p₂, hopening, hrest⟩ := Page.run_cons.1 hrun
      obtain ⟨p₃, hbody, hclosing⟩ := Page.run_cons.1 hrest
      rw [Page.run_singleton] at hclosing
      obtain ⟨parts, hparts, -, hlabels⟩ := compile_ends_every_label hok
      obtain ⟨word, words, former, inner, latter, hargs, hsteps, hformer, hinner, htags, -⟩ :=
        hlabels [] ['a'] _ [.text ['b']] _ [] hpieces .nil (by simp)
      rw [hwords] at hargs
      cases hargs
      rw [hword] at htags
      rw [hpieces, hall, Option.some.injEq] at hparts
      obtain rfl := List.length_eq_zero_iff.1 hformer
      obtain ⟨part, rfl⟩ := List.length_eq_one_iff.1 hinner
      obtain ⟨-, rfl, -⟩ : _ ∧ [.text ['b']] = part ∧ _ := by simpa using hparts.trans hsteps
      obtain ⟨control, hcontrol, htag, hiff⟩ := htags .none hiddenPage p₂ p₃ p₄ hopening
        (by rw [List.flatten_singleton, Page.run_singleton]; exact hbody) hclosing
      refine ⟨p, p₂, p₃, p₄, control, rfl, hcontrol, htag, ?_, Option.some.inj hout⟩
      rw [hiff, hkind control hcontrol]
      exact Bool.false_ne_true

end Render

end FormTemplate
