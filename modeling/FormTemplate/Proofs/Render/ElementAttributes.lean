import FormTemplate.Proofs.Form.RadioLists
import FormTemplate.Proofs.Render.LabelTags

/-!
# The attributes of an element that refers to a control

An element of the template may say which control it is. Its start tag then
shows the attributes of the control, or on a label those of the control's
label, except those whose names the template writes itself. One step does
this, and `Page.exists_step_attributes` says what it prints. The names are
compared letter by letter, so a name that is written in other letters leaves
the control's own in the tag (`compile_leaves_written_out`). The tag shows the
name of the control for every kind but a group of buttons, of which it sees
no more than the label around a button (`compile_names_element`).
-/

namespace FormTemplate

namespace Form

open Markup

theorem Kind.isRadioList_iff {kind : Kind} :
    kind.isRadioList = true ↔ ∃ choices, kind = .radioList choices := by
  cases kind <;> simp [isRadioList]

namespace Control

variable {c : Control} (texts : List Text)

/-- The attributes of a control, or those of its label. -/
def attributesOf (ofLabel : Bool) (texts : List Text) (c : Control) : Attributes :=
  (if ofLabel then c.labelOf texts else c.render texts).attributes

/-! ## Which attributes a control has -/

theorem attributes_pointingLabel (caption : Option Text) :
    (c.pointingLabel caption).attributes = [("for".toList, .text c.htmlId)] := by
  rw [pointingLabel]
  split <;> rfl

/-- A label has no attribute but the one that points at the control. -/
theorem attributes_labelOf :
    (c.labelOf texts).attributes = [] ∨
      (c.labelOf texts).attributes = [("for".toList, .text c.htmlId)] := by
  have hpointing := c.attributes_pointingLabel texts.head?
  rw [labelOf, label]
  split
  · rw [Option.getD_some]
    split
    · left
      rw [Element.erase, hpointing]
      rfl
    · exact .inr hpointing
  · exact .inl rfl

/-- **A group of buttons has no attributes as a whole**; a button of it has
those of the label around it. -/
theorem attributes_radioGroup (choices : List Choice) :
    (c.radioGroup choices texts).attributes = [] ∨
      ∃ choice ∈ choices, texts.head? = some choice.key ∧
        (c.radioGroup choices texts).attributes =
          [("for".toList, .text (c.htmlId ++ '-' :: choice.key))] := by
  cases texts with
  | nil =>
    left
    cases choices with
    | nil => rfl
    | cons first others => rw [radioGroup_nil_cons]
  | cons key captions =>
    rw [radioGroup_cons]
    split
    · next choice hfound =>
      have hkey : choice.key = key := by simpa using List.find?_some hfound
      refine .inr ⟨choice, List.mem_of_find?_eq_some hfound, by rw [hkey]; rfl, ?_⟩
      rw [button, radioItem_eq]
      rfl
    · exact .inl rfl

/-- The attributes of a control that is no group are those of its prototype
with name, id and rules, and one that says its value at most. -/
theorem attributes_render (h : c.kind.isRadioList = false) :
    (c.render texts).attributes = c.addressed.attributes ∨
      ∃ name value, name ≠ "name".toList ∧
        (c.render texts).attributes = c.addressed.attributes.set name value := by
  have hvalue : "value".toList ≠ "name".toList := by decide
  have hchecked : "checked".toList ≠ "name".toList := by decide
  rw [render]
  cases hkind : c.kind with
  | text | hidden | submit | button => exact .inr ⟨_, _, hvalue, rfl⟩
  | checkbox => exact .inr ⟨_, _, hchecked, rfl⟩
  | password | upload | textArea | select => exact .inl rfl
  | radioList choices => rw [hkind] at h; cases h

theorem distinct_addressed (h : c.prototype.attributes.Distinct) :
    c.addressed.attributes.Distinct := by
  rw [addressed]
  cases c.rules with
  | none => exact (h.set _ _).set _ _
  | some rules => exact ((h.set _ _).set _ _).set _ _

/-- **No attribute of a control stands twice**, and none of its label. -/
theorem distinct_attributesOf (h : c.prototype.attributes.Distinct) (ofLabel : Bool) :
    (c.attributesOf ofLabel texts).Distinct := by
  have hnil : Attributes.Distinct [] := List.nodup_nil
  have hone : ∀ a : Text × AttributeValue, Attributes.Distinct [a] := fun a =>
    List.nodup_singleton a.1
  cases ofLabel with
  | true =>
    change (c.labelOf texts).attributes.Distinct
    rcases c.attributes_labelOf texts with heq | heq
    · rw [heq]
      exact hnil
    · rw [heq]
      exact hone _
  | false =>
    change (c.render texts).attributes.Distinct
    cases hradio : c.kind.isRadioList with
    | false =>
      have haddressed := distinct_addressed h
      rcases attributes_render texts hradio with heq | ⟨name, value, -, heq⟩
      · rw [heq]
        exact haddressed
      · rw [heq]
        exact haddressed.set name value
    | true =>
      obtain ⟨choices, hkind⟩ := Kind.isRadioList_iff.1 hradio
      rw [render_of_radioList texts hkind]
      rcases c.attributes_radioGroup texts choices with heq | ⟨choice, -, -, heq⟩
      · rw [heq]
        exact hnil
      · rw [heq]
        exact hone _

/-- **A control that is no group has its name among its attributes**. -/
theorem name_mem_attributes_render (h : c.kind.isRadioList = false) :
    ("name".toList, .text c.htmlName) ∈ (c.render texts).attributes := by
  have hid : "name".toList ≠ "id".toList := by decide
  have hrules : "name".toList ≠ rulesAttribute.toList := by decide
  have hset := Attributes.mem_set_self "name".toList (.text c.htmlName) c.prototype.attributes
  have haddressed : ("name".toList, .text c.htmlName) ∈ c.addressed.attributes := by
    rw [addressed]
    cases c.rules with
    | none => exact Attributes.mem_set_of_ne hset hid
    | some rules => exact Attributes.mem_set_of_ne (Attributes.mem_set_of_ne hset hid) hrules
  rcases attributes_render texts h with heq | ⟨name, value, hne, heq⟩
  · exact heq ▸ haddressed
  · exact heq ▸ Attributes.mem_set_of_ne haddressed hne.symm

/-- What is left of the attributes of a group when some are left out. -/
theorem without_attributes_radioGroup (choices : List Choice) (names : List Text) :
    (c.radioGroup choices texts).attributes.without names = [] ∨
      ∃ choice ∈ choices, texts.head? = some choice.key ∧
        (c.radioGroup choices texts).attributes.without names =
          [("for".toList, .text (c.htmlId ++ '-' :: choice.key))] := by
  rcases c.attributes_radioGroup texts choices with heq | ⟨choice, hmem, hkey, heq⟩
  · rw [heq]
    exact .inl rfl
  · rw [heq, Attributes.without, List.filter_cons, List.filter_nil]
    split
    · exact .inr ⟨choice, hmem, hkey, rfl⟩
    · exact .inl rfl

/-- **The name of a control is among its attributes exactly when it is no
group.** -/
theorem name_mem_without_iff {names : List Text} (hnames : "name".toList ∉ names) :
    ("name".toList, .text c.htmlName) ∈ (c.render texts).attributes.without names ↔
      c.kind.isRadioList = false := by
  constructor
  · intro hmem
    rw [← Bool.not_eq_true, Kind.isRadioList_iff]
    rintro ⟨choices, hkind⟩
    rw [render_of_radioList texts hkind] at hmem
    rcases c.without_attributes_radioGroup texts choices names with heq | ⟨_, -, -, heq⟩
    · rw [heq] at hmem
      cases hmem
    · rw [heq, List.mem_singleton] at hmem
      have hfor : "name".toList ≠ "for".toList := by decide
      exact hfor (congrArg Prod.fst hmem)
  · intro h
    exact Attributes.mem_without.2 ⟨name_mem_attributes_render texts h, hnames⟩

end Control

end Form

namespace Render

open Form Markup Template

namespace Page

variable {eval : Evaluation} {p q : Page} {name : Word} {parts : List Word}
variable {ofLabel : Bool} {written : List Text}

/-! ## What the tag prints -/

/-- The page on which a control is bound, if an expression gives it. -/
def withInputOf (p : Page) (name : Word) (place : Place) : Page :=
  match name with
  | .literal _ => p
  | .expression _ =>
    { p with scope.input := some place }.withContext (p.scope.context.withInput place)

@[simp] theorem out_withInputOf (p : Page) (name : Word) (place : Place) :
    (p.withInputOf name place).out = p.out := by
  cases name <;> rfl

@[simp] theorem registry_withInputOf (p : Page) (name : Word) (place : Place) :
    (p.withInputOf name place).registry = p.registry := by
  cases name <;> rfl

/-- Where a tag finds the control that a word names. -/
def sourceOf : Word → ControlSource
  | .literal k => .key k
  | .expression _ => .bound

/-- The control is found where the tag looks for it. -/
theorem controlPlace_withInputOf {t : Target} {place : Place} (ht : eval.targetOf p name = .ok t)
    (hplace : p.scope.context.resolveControl p.registry t = .ok place) :
    (p.withInputOf name place).controlPlace (sourceOf name) = .ok place := by
  cases name with
  | literal k =>
    cases ht
    exact congrArg call hplace
  | expression e => rfl

/-- **A step about a control** resolves the control, binds it if an expression
gives it, and then runs the statement about it. -/
theorem foldlM_withControl_eq_ok {f : ControlSource → Statement}
    (hf : ∀ r source q, exec eval r (f source) = .ok q →
      ∃ place, r.controlPlace source = .ok place) :
    (Step.withControl name f).foldlM (exec eval) p = .ok q ↔
      ∃ t place, eval.targetOf p name = .ok t ∧
        p.scope.context.resolveControl p.registry t = .ok place ∧
        (p.withInputOf name place).exec eval (f (sourceOf name)) = .ok q := by
  constructor
  · intro h
    cases name with
    | literal k =>
      obtain ⟨r, hrun, h⟩ := exists_of_bind h
      cases h
      obtain ⟨place, hplace⟩ := hf _ _ _ hrun
      exact ⟨.named k, place, rfl, ok_of_call hplace, hrun⟩
    | expression e =>
      obtain ⟨r, hlet, h⟩ := exists_of_bind h
      obtain ⟨t, ht, hlet⟩ := exists_of_bind hlet
      obtain ⟨place, hplace, hlet⟩ := exists_of_bind hlet
      cases hlet
      obtain ⟨r, hinput, h⟩ := exists_of_bind h
      cases hinput
      obtain ⟨r, hrun, h⟩ := exists_of_bind h
      cases h
      exact ⟨t, place, ht, ok_of_call hplace, hrun⟩
  · rintro ⟨t, place, ht, hplace, hrun⟩
    cases name with
    | literal k => exact bind_of_ok hrun _
    | expression e =>
      have hlet : p.exec eval (.letInput e) = .ok { p with scope.input := some place } :=
        (bind_of_ok ht _).trans (bind_of_ok (congrArg call hplace) _)
      exact (bind_of_ok hlet _).trans (bind_of_ok hrun _)

/-- **A tag refers to a control on a page**: its name stands for the control,
and its parts for these texts. -/
def Refers (eval : Evaluation) (p : Page) (name : Word) (parts : List Word) (control : Control)
    (texts : List Text) : Prop :=
  ∃ t place, eval.targetOf p name = .ok t ∧
    p.scope.context.resolveControl p.registry t = .ok place ∧
    controlAt p.registry place = .ok control ∧
    parts.mapM (eval.partOf (p.withInputOf name place)) = .ok texts

theorem merge_absent (eval : Evaluation) (p : Page) (names : List Text) :
    eval.merge p (names.map fun name => (name, .absent)) =
      .ok (names.map fun name => (name, none)) := by
  induction names with
  | nil => rfl
  | cons name names ih =>
    rw [Evaluation.merge] at ih ⊢
    rw [List.map_cons, List.mapM_cons, ih]
    rfl

/-- The page once the attributes of a control are printed. Those of the
control itself mark it. -/
def printAttributes (p : Page) (place : Place) (ofLabel : Bool) (as : Attributes) : Page :=
  (if ofLabel then p else p.mark place).print as.source

@[simp] theorem out_printAttributes (p : Page) (place : Place) (ofLabel : Bool)
    (as : Attributes) : (p.printAttributes place ofLabel as).out = p.out ++ as.source := by
  cases ofLabel <;> rfl

theorem exec_printAttributes_eq_ok {source : ControlSource} :
    p.exec eval (.printAttributes source ofLabel parts
        (written.map fun name => (name, .absent))) = .ok q ↔
      ∃ place control texts, p.controlPlace source = .ok place ∧
        controlAt p.registry place = .ok control ∧ parts.mapM (eval.partOf p) = .ok texts ∧
        q = p.printAttributes place ofLabel
          ((control.attributesOf ofLabel texts).without written) := by
  constructor
  · intro h
    obtain ⟨place, hplace, h⟩ := exists_of_bind h
    obtain ⟨control, hcontrol, h⟩ := exists_of_bind h
    obtain ⟨texts, htexts, h⟩ := exists_of_bind h
    obtain ⟨m, hm, h⟩ := exists_of_bind h
    cases (merge_absent ..).symm.trans hm
    refine ⟨place, control, texts, hplace, ok_of_call hcontrol, htexts, ?_⟩
    rw [printAttributes, ← Attributes.merge_absent]
    cases ofLabel <;> exact (Except.ok.inj h).symm
  · rintro ⟨place, control, texts, hplace, hcontrol, htexts, rfl⟩
    rw [printAttributes, ← Attributes.merge_absent]
    refine (bind_of_ok hplace _).trans ((bind_of_ok (congrArg call hcontrol) _).trans
      ((bind_of_ok htexts _).trans ?_))
    cases ofLabel <;> exact bind_of_ok (merge_absent ..) _

/-- **The step of such a tag** finds the control and prints the attributes
that are not written. -/
theorem step_attributes_eq_ok :
    p.step eval (.attributes ofLabel name parts written) = .ok q ↔
      ∃ t place control texts, eval.targetOf p name = .ok t ∧
        p.scope.context.resolveControl p.registry t = .ok place ∧
        controlAt p.registry place = .ok control ∧
        parts.mapM (eval.partOf (p.withInputOf name place)) = .ok texts ∧
        q = (p.withInputOf name place).printAttributes place ofLabel
          ((control.attributesOf ofLabel texts).without written) := by
  have hfound : ∀ r source q, exec eval r (.printAttributes source ofLabel parts
      (written.map fun name => (name, .absent))) = .ok q →
        ∃ place, r.controlPlace source = .ok place :=
    fun _ _ _ h => (exec_printAttributes_eq_ok.1 h).imp fun _ ⟨_, _, hplace, _⟩ => hplace
  refine (foldlM_withControl_eq_ok hfound).trans ⟨?_, ?_⟩
  · rintro ⟨t, place, ht, hplace, hprint⟩
    obtain ⟨place', control, texts, hplace', hcontrol, htexts, rfl⟩ :=
      exec_printAttributes_eq_ok.1 hprint
    obtain rfl := Except.ok.inj ((controlPlace_withInputOf ht hplace).symm.trans hplace')
    rw [registry_withInputOf] at hcontrol
    exact ⟨t, place, control, texts, ht, hplace, hcontrol, htexts, rfl⟩
  · rintro ⟨t, place, control, texts, ht, hplace, hcontrol, htexts, rfl⟩
    refine ⟨t, place, ht, hplace, exec_printAttributes_eq_ok.2
      ⟨place, control, texts, controlPlace_withInputOf ht hplace, ?_, htexts, rfl⟩⟩
    rw [registry_withInputOf, hcontrol]

/-- **What the tag of an element prints**: the attributes of the control that
it refers to, without those that the template writes. -/
theorem exists_step_attributes {s : Text} :
    (∃ q, p.step eval (.attributes ofLabel name parts written) = .ok q ∧ q.out = s) ↔
      ∃ control texts, Refers eval p name parts control texts ∧
        s = p.out ++ ((control.attributesOf ofLabel texts).without written).source := by
  constructor
  · rintro ⟨q, hstep, rfl⟩
    obtain ⟨t, place, control, texts, ht, hplace, hcontrol, htexts, rfl⟩ :=
      step_attributes_eq_ok.1 hstep
    refine ⟨control, texts, ⟨t, place, ht, hplace, hcontrol, htexts⟩, ?_⟩
    rw [out_printAttributes, out_withInputOf]
  · rintro ⟨control, texts, ⟨t, place, ht, hplace, hcontrol, htexts⟩, rfl⟩
    refine ⟨_, step_attributes_eq_ok.2
      ⟨t, place, control, texts, ht, hplace, hcontrol, htexts, rfl⟩, ?_⟩
    rw [out_printAttributes, out_withInputOf]

end Page

/-! ## Tags of a template -/

/-- The step at the tag of an element: it shows the attributes of a control,
or on a label those of the control's label, that are not written. -/
def elementStep (name : Text) (key : Word) (modifiers : List Word)
    (written : List RawAttribute) : Step :=
  .attributes (Text.sameIgnoringCase name "label".toList) key modifiers (written.map (·.name))

/-- **Where a template has the tag of an element**, the steps are the
beginning of the tag, the attributes of the control, and what is written. -/
theorem compile_elements {options : Options} {template : Text} {p : Program}
    (h : compile options template = .ok p) :
    ∃ parts, Piece.allSteps? false (Piece.ofText options.attributePrefix template) = some parts ∧
      p = Script.program options.runtimePath parts.flatten ∧
      ∀ before name d arguments written tail source after,
        Piece.ofText options.attributePrefix template =
          before ++ .tag (.element name d arguments written tail) source :: after →
        ∃ former latter word words key modifiers, Arguments.words arguments = word :: words ∧
          Directive.reference? word = some (key, modifiers) ∧ former.length = before.length ∧
          parts = former ++ [.text ('<' :: name), elementStep name key modifiers written,
            .text (RawAttribute.sources written ++ tail)] :: latter := by
  obtain ⟨parts, hlaidOut, rfl⟩ := laidOut_of_compile h
  refine ⟨parts, hlaidOut.allSteps?_eq, rfl, ?_⟩
  intro before name d arguments written tail source after hpieces
  have hsteps := hlaidOut.allSteps?_eq
  rw [hpieces] at hsteps
  obtain ⟨former, part, latter, hparts, hformer, -, hpart⟩ :=
    Piece.exists_of_allSteps?_append_cons hsteps
  obtain ⟨step, hstep, rfl⟩ := Option.map_eq_some_iff.1 hpart
  rw [Directive.attributeStep?] at hstep
  cases hwords : Arguments.words arguments with
  | nil => rw [hwords] at hstep; cases hstep
  | cons word words =>
    rw [hwords] at hstep
    obtain ⟨⟨key, modifiers⟩, href, rfl⟩ := Option.map_eq_some_iff.1 hstep
    exact ⟨former, latter, word, words, key, modifiers, rfl, href, hformer, hparts⟩

/-- **The attributes that an element shows** are those of the control that
are not written in the same letters, each as the control has it, once and in
its order. So none stands beside one that the browser takes for the same,
unless the template writes its name in other letters only. -/
theorem compile_leaves_written_out {options : Options} {template : Text} {p : Program}
    (h : compile options template = .ok p) :
    ∃ parts, Piece.allSteps? false (Piece.ofText options.attributePrefix template) = some parts ∧
      p = Script.program options.runtimePath parts.flatten ∧
      ∀ before name d arguments written tail source after,
        Piece.ofText options.attributePrefix template =
          before ++ .tag (.element name d arguments written tail) source :: after →
        ∃ former latter word words key modifiers, Arguments.words arguments = word :: words ∧
          Directive.reference? word = some (key, modifiers) ∧ former.length = before.length ∧
          parts = former ++ [.text ('<' :: name), elementStep name key modifiers written,
            .text (RawAttribute.sources written ++ tail)] :: latter ∧
          ∀ (eval : Evaluation) (p₁ : Page) (control : Control) (texts : List Text),
            Page.Refers eval p₁ key modifiers control texts →
            ∃ (p₂ : Page) (own shown : Attributes),
              own = control.attributesOf (Text.sameIgnoringCase name "label".toList) texts ∧
              p₁.step eval (elementStep name key modifiers written) = .ok p₂ ∧
              p₂.out = p₁.out ++ shown.source ∧
              shown = own.filter (fun a => a.1 ∉ written.map (·.name)) ∧
              (control.prototype.attributes.Distinct → shown.Distinct) ∧
              ((∀ a ∈ shown, ∀ w ∈ written, Text.sameIgnoringCase a.1 w.name = false) ↔
                ∀ a ∈ own, ∀ w ∈ written, Text.sameIgnoringCase a.1 w.name = true →
                  ∃ v ∈ written, v.name = a.1) := by
  obtain ⟨parts, hparts, rfl, hall⟩ := compile_elements h
  refine ⟨parts, hparts, rfl, ?_⟩
  intro before name d arguments written tail source after hpieces
  obtain ⟨former, latter, word, words, key, modifiers, hwords, href, hformer, hsplit⟩ :=
    hall _ _ _ _ _ _ _ _ hpieces
  refine ⟨former, latter, word, words, key, modifiers, hwords, href, hformer, hsplit, ?_⟩
  intro eval p₁ control texts hrefers
  obtain ⟨p₂, hstep, hout⟩ := Page.exists_step_attributes.2 ⟨control, texts, hrefers, rfl⟩
  refine ⟨p₂, _, _, rfl, hstep, hout, rfl, ?_, ?_⟩
  · intro hdistinct
    exact (Control.distinct_attributesOf _ hdistinct _).without _
  · constructor
    · intro hnone a ha w hw hsame
      by_contra hother
      have hshown : a ∈ (control.attributesOf _ texts).without (written.map (·.name)) :=
        Attributes.mem_without.2 ⟨ha, fun hmem => hother (List.mem_map.1 hmem)⟩
      rw [hnone a hshown w hw] at hsame
      cases hsame
    · intro hexact a ha w hw
      obtain ⟨hown, hunwritten⟩ := Attributes.mem_without.1 ha
      rw [← Bool.not_eq_true]
      intro hsame
      obtain ⟨v, hv, hname⟩ := hexact a hown w hw hsame
      exact hunwritten (List.mem_map.2 ⟨v, hv, hname⟩)

/-- A page in a form with a line of text and a group of one button. -/
def controlsPage : Page where
  registry := [(Form.create ['f']).modifyRoot fun root =>
    root.addAll [.control ['a'] .text {}, .control ['g'] (.radioList [⟨['m'], ['M']⟩]) {}]]
  scope := { context := ({} : Context).enterForm ['f'] }

/-- An element with a type in capitals. -/
def capitalsTag : Text := "<input TYPE=email n:input=a>".toList

/-- The control's own type stands beside it. -/
theorem compile_leaves_written_out_of_capitals :
    ∃ p p₂ control, compile {} capitalsTag = .ok p ∧
      Page.Refers .none controlsPage (.literal ['a']) [] control [] ∧
      control.prototype.attributes.Distinct ∧
      controlsPage.step .none (elementStep "input".toList (.literal ['a']) []
        [⟨"TYPE".toList, some "email".toList, " TYPE=email".toList⟩]) = .ok p₂ ∧
      p₂.out = " type=\"text\" name=\"a\" id=\"frm-f-a\" value=\"\"".toList := by
  have hisOk : (compile {} capitalsTag).isOk = true := by decide +kernel
  have hpieces : Piece.ofText ({} : Options).attributePrefix capitalsTag =
      [] ++ [.tag (.element "input".toList .input ['a']
        [⟨"TYPE".toList, some "email".toList, " TYPE=email".toList⟩] ['>']) capitalsTag] := by
    decide +kernel
  have hword : ∀ word words, Arguments.words ['a'] = word :: words →
      Directive.reference? word = some (.literal ['a'], []) := by
    have hwords : Arguments.words ['a'] = [['a']] := by decide +kernel
    rintro word words heq
    cases hwords.symm.trans heq
    decide
  have hrefers : Page.Refers .none controlsPage (.literal ['a']) []
      ((Container.root ['f']).newControl ['a'] .text) [] :=
    ⟨.named ['a'], ⟨['f'], [['a']]⟩, rfl, rfl, rfl, rfl⟩
  cases hok : compile {} capitalsTag with
  | error e => rw [hok] at hisOk; cases hisOk
  | ok p =>
    obtain ⟨parts, -, -, hall⟩ := compile_leaves_written_out hok
    obtain ⟨former, latter, word, words, key, modifiers, hwords, href, -, -, hshows⟩ :=
      hall _ _ _ _ _ _ _ _ hpieces
    cases (hword word words hwords).symm.trans href
    obtain ⟨p₂, own, shown, rfl, hstep, hout, rfl, -, -⟩ := hshows _ _ _ _ hrefers
    refine ⟨p, p₂, _, rfl, hrefers, by decide +kernel, hstep, ?_⟩
    rw [hout]
    decide +kernel

/-- **An element is bound to its control** unless the control is a group of
buttons: its tag shows the name of the control, whatever the prototype and
the parts. The tag for a group shows nothing, or points at the button that
the first part picks. -/
theorem compile_names_element {options : Options} {template : Text} {p : Program}
    (h : compile options template = .ok p) :
    ∃ parts, Piece.allSteps? false (Piece.ofText options.attributePrefix template) = some parts ∧
      p = Script.program options.runtimePath parts.flatten ∧
      ∀ before name d arguments written tail source after,
        Piece.ofText options.attributePrefix template =
          before ++ .tag (.element name d arguments written tail) source :: after →
        Text.sameIgnoringCase name "label".toList = false →
        "name".toList ∉ written.map (·.name) →
        ∃ former latter word words key modifiers, Arguments.words arguments = word :: words ∧
          Directive.reference? word = some (key, modifiers) ∧ former.length = before.length ∧
          parts = former ++ [.text ('<' :: name), elementStep name key modifiers written,
            .text (RawAttribute.sources written ++ tail)] :: latter ∧
          ∀ (eval : Evaluation) (p₁ : Page) (control : Control) (texts : List Text),
            Page.Refers eval p₁ key modifiers control texts →
            ∃ (p₂ : Page) (shown : Attributes),
              p₁.step eval (elementStep name key modifiers written) = .ok p₂ ∧
              p₂.out = p₁.out ++ shown.source ∧
              (("name".toList, .text control.htmlName) ∈ shown ↔
                control.kind.isRadioList = false) ∧
              (control.kind.isRadioList = false → ∃ before after : Attributes,
                p₂.out = p₁.out ++ (before.source ++
                  (" name=\"".toList ++ escape control.htmlName ++ ['"']) ++ after.source) ∧
                (control.prototype.attributes.Distinct →
                  ∀ a ∈ before ++ after, a.1 ≠ "name".toList)) ∧
              ∀ choices, control.kind = .radioList choices → shown = [] ∨
                ∃ choice ∈ choices, texts.head? = some choice.key ∧
                  shown = [("for".toList, .text (control.htmlId ++ '-' :: choice.key))] := by
  obtain ⟨parts, hparts, rfl, hall⟩ := compile_elements h
  refine ⟨parts, hparts, rfl, ?_⟩
  intro before name d arguments written tail source after hpieces hlabel hfree
  obtain ⟨former, latter, word, words, key, modifiers, hwords, href, hformer, hsplit⟩ :=
    hall _ _ _ _ _ _ _ _ hpieces
  refine ⟨former, latter, word, words, key, modifiers, hwords, href, hformer, hsplit, ?_⟩
  intro eval p₁ control texts hrefers
  obtain ⟨p₂, hstep, hout⟩ := Page.exists_step_attributes.2 ⟨control, texts, hrefers, rfl⟩
  have hcontrol : control.attributesOf (Text.sameIgnoringCase name "label".toList) texts =
      (control.render texts).attributes := by
    rw [hlabel]
    rfl
  rw [hcontrol] at hout
  refine ⟨p₂, _, hstep, hout, Control.name_mem_without_iff texts hfree, ?_, ?_⟩
  · intro hkind
    have hname := (Control.name_mem_without_iff texts hfree).2 hkind
    obtain ⟨before, after, hsplit⟩ := List.append_of_mem hname
    refine ⟨before, after, ?_, fun hdistinct => ?_⟩
    · rw [hout, hsplit, Attributes.source_append_cons]
      simp
    · have hshown := (Control.distinct_attributesOf texts hdistinct false).without
        (written.map (·.name))
      exact Attributes.Distinct.ne_of_mem (hsplit ▸ hshown)
  · intro choices hkind
    rw [Control.render_of_radioList texts hkind]
    exact Control.without_attributes_radioGroup texts choices _

/-- An element for a button of a group. -/
def buttonTag : Text := "<input n:input=g:m>".toList

/-- The element is not bound to the group; it points at the button, as its
label would. -/
theorem compile_names_element_of_button :
    ∃ p p₂ control shown, compile {} buttonTag = .ok p ∧
      Page.Refers .none controlsPage (.literal ['g']) [.literal ['m']] control [['m']] ∧
      controlsPage.step .none (elementStep "input".toList (.literal ['g']) [.literal ['m']] []) =
        .ok p₂ ∧
      p₂.out = Attributes.source shown ∧
      ("name".toList, .text control.htmlName) ∉ shown ∧
      p₂.out = " for=\"frm-f-g-m\"".toList := by
  have hisOk : (compile {} buttonTag).isOk = true := by decide +kernel
  have hpieces : Piece.ofText ({} : Options).attributePrefix buttonTag =
      [] ++ [.tag (.element "input".toList .input ['g', ':', 'm'] [] ['>']) buttonTag] := by
    decide +kernel
  have hword : ∀ word words, Arguments.words ['g', ':', 'm'] = word :: words →
      Directive.reference? word = some (.literal ['g'], [.literal ['m']]) := by
    have hwords : Arguments.words ['g', ':', 'm'] = [['g', ':', 'm']] := by decide +kernel
    rintro word words heq
    cases hwords.symm.trans heq
    decide
  have hrefers : Page.Refers .none controlsPage (.literal ['g']) [.literal ['m']]
      ((Container.root ['f']).newControl ['g'] (.radioList [⟨['m'], ['M']⟩])) [['m']] :=
    ⟨.named ['g'], ⟨['f'], [['g']]⟩, rfl, rfl, rfl, rfl⟩
  have hprinted : (controlsPage.step .none
      (elementStep "input".toList (.literal ['g']) [.literal ['m']] [])).toOption.map Page.out =
        some " for=\"frm-f-g-m\"".toList := by
    decide +kernel
  cases hok : compile {} buttonTag with
  | error e => rw [hok] at hisOk; cases hisOk
  | ok p =>
    obtain ⟨parts, -, -, hall⟩ := compile_names_element hok
    obtain ⟨former, latter, word, words, key, modifiers, hwords, href, -, -, hshows⟩ :=
      hall _ _ _ _ _ _ _ _ hpieces (by decide) (by simp)
    cases (hword word words hwords).symm.trans href
    obtain ⟨p₂, shown, hstep, hout, hname, -, -⟩ := hshows _ _ _ _ hrefers
    rw [hstep] at hprinted
    refine ⟨p, p₂, _, shown, rfl, hrefers, hstep, hout, fun hshown => ?_,
      Option.some.inj hprinted⟩
    cases hname.1 hshown

end Render

end FormTemplate
