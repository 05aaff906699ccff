import FormTemplate.Proofs.Render.ElementAttributes

/-!
# Attributes given to an input

An input of the template may be given attributes. They are merged into the
element of the control, and what is printed begins with the start tag of that
element: there each of them stands with its value
(`compile_shows_given_attributes`). The exception is an element without a
name, of which no tag is printed. A group of buttons shown as a whole is such
an element, so what is given to it is lost.
-/

namespace FormTemplate

namespace Markup

namespace Element

variable {e : Element} {m : Merge}

/-- An element is printed from its start tag on. -/
theorem exists_source_eq_startTag (e : Element) : ∃ rest, e.source = e.startTag ++ rest :=
  ⟨_, List.append_assoc ..⟩

/-- **A wrapper prints none of its attributes.** -/
theorem source_merge_of_wrapper (h : e.name = []) (m : Merge) : (e.merge m).source = e.source := by
  simp [Element.source, Element.toContent, Element.merge, Content.source, Markup.startTag, h]

end Element

end Markup

namespace Form

open Markup

namespace Control

variable {c : Control} {texts : List Text}

/-! ## Which controls are shown without a tag -/

/-- A control that is no group is an element of the name that its prototype
has. -/
theorem name_render (h : c.kind.isRadioList = false) :
    (c.render texts).name = c.prototype.name := by
  have haddressed : c.addressed.name = c.prototype.name := by
    rw [addressed]
    cases c.rules <;> rfl
  rw [render]
  cases hkind : c.kind with
  | radioList choices => rw [hkind] at h; cases h
  | _ => exact haddressed

/-- **A group as a whole has no tag of its own**, and a button of it is a
label. -/
theorem name_radioGroup (choices : List Choice) :
    (c.radioGroup choices texts).name = [] ∧
        (texts = [] ∨ (c.radioGroup choices texts).source = []) ∨
      (c.radioGroup choices texts).name = "label".toList ∧ texts ≠ [] := by
  cases texts with
  | nil =>
    refine .inl ⟨?_, .inl rfl⟩
    cases choices with
    | nil => rfl
    | cons first others => rw [radioGroup_nil_cons]
  | cons key captions =>
    rw [radioGroup_cons]
    split
    · exact .inr ⟨rfl, List.cons_ne_nil key captions⟩
    · exact .inl ⟨rfl, .inr (source_wrapper [])⟩

/-- **Which controls show something without a tag**: groups as a whole, and
those whose prototype has no name. -/
theorem name_render_eq_nil_iff (hshown : (c.render texts).source ≠ []) :
    (c.render texts).name = [] ↔
      if c.kind.isRadioList then texts = [] else c.prototype.name = [] := by
  cases hgroup : c.kind.isRadioList with
  | false => rw [name_render hgroup, if_neg (by simp)]
  | true =>
    obtain ⟨choices, hkind⟩ := Kind.isRadioList_iff.1 hgroup
    rw [render_of_radioList texts hkind] at hshown ⊢
    rw [if_pos rfl]
    rcases c.name_radioGroup choices with ⟨hname, hwhole⟩ | ⟨hname, hpart⟩
    · exact iff_of_true hname (hwhole.resolve_right hshown)
    · exact iff_of_false (by rw [hname]; simp) hpart

/-! ## Where given attributes are shown -/

/-- **How markup shows what is given to a control.** The markup is that of the
control as `texts` modify it, with `m` merged into its element. -/
structure ShowsGiven (c : Control) (texts : List Text) (m : Merge) (markup : Text) : Prop where
  /-- The tag of an element has each given value under its name, and no other;
  a flag that is off takes the name away. -/
  tag : (c.render texts).name ≠ [] → ∃ shown rest,
    markup = startTag (c.render texts).name shown ++ rest ∧
      (c.prototype.attributes.Distinct → shown.Distinct) ∧
      ∀ name value, (name, some value) ∈ m →
        if value = .flag false then ∀ a ∈ shown, a.1 ≠ name else (name, value) ∈ shown
  /-- Without a tag the markup is what it would be if nothing were given. -/
  lost : (c.render texts).name = [] → markup = (c.render texts).source
  /-- Groups as a whole are shown without a tag. -/
  lost_iff : (c.render texts).source ≠ [] →
    ((c.render texts).name = [] ↔
      if c.kind.isRadioList then texts = [] else c.prototype.name = [])

theorem showsGiven {m : Merge} (hm : (m.map Prod.fst).Nodup) (c : Control) (texts : List Text) :
    c.ShowsGiven texts m ((c.render texts).merge m).source where
  tag _ := by
    obtain ⟨rest, hrest⟩ := ((c.render texts).merge m).exists_source_eq_startTag
    refine ⟨(c.render texts).attributes.merge m, rest, hrest, fun hdistinct => ?_,
      fun name value hmem => ?_⟩
    · exact (distinct_attributesOf texts hdistinct false).merge m
    · have hget : ((c.render texts).attributes.merge m).get? name = _ :=
        Attributes.get?_merge_of_mem hm hmem
      match value with
      | .flag false => exact Attributes.ne_of_get?_eq_none hget
      | .flag true => exact Attributes.mem_of_get? hget
      | .text s => exact Attributes.mem_of_get? hget
  lost hname := Element.source_merge_of_wrapper hname m
  lost_iff := name_render_eq_nil_iff

end Control

end Form

namespace Render

open Form Markup Template

namespace Page

variable {eval : Evaluation} {p q : Page} {name : Word} {parts : List Word} {as : AttributeList}

/-! ## What the tag prints -/

/-- **A tag refers to a control and gives it attributes**: its name stands for
the control, its parts for these texts, and its attributes have these
values. -/
def RefersWith (eval : Evaluation) (p : Page) (name : Word) (parts : List Word)
    (as : AttributeList) (control : Control) (texts : List Text) (m : Merge) : Prop :=
  ∃ t place, eval.targetOf p name = .ok t ∧
    p.scope.context.resolveControl p.registry t = .ok place ∧
    controlAt p.registry place = .ok control ∧
    parts.mapM (eval.partOf (p.withInputOf name place)) = .ok texts ∧
    eval.merge ((p.withInputOf name place).mark place) as = .ok m

theorem exec_printControl_eq_ok {source : ControlSource} :
    p.exec eval (.printControl source parts as) = .ok q ↔
      ∃ place control texts m, p.controlPlace source = .ok place ∧
        controlAt p.registry place = .ok control ∧ parts.mapM (eval.partOf p) = .ok texts ∧
        eval.merge (p.mark place) as = .ok m ∧
        q = (p.mark place).print ((control.render texts).merge m).source := by
  constructor
  · intro h
    obtain ⟨place, hplace, h⟩ := exists_of_bind h
    obtain ⟨control, hcontrol, h⟩ := exists_of_bind h
    obtain ⟨texts, htexts, h⟩ := exists_of_bind h
    obtain ⟨m, hm, h⟩ := exists_of_bind h
    exact ⟨place, control, texts, m, hplace, ok_of_call hcontrol, htexts, hm,
      (Except.ok.inj h).symm⟩
  · rintro ⟨place, control, texts, m, hplace, hcontrol, htexts, hm, rfl⟩
    exact (bind_of_ok hplace _).trans ((bind_of_ok (congrArg call hcontrol) _).trans
      ((bind_of_ok htexts _).trans (bind_of_ok hm _)))

/-- **The step of such a tag** finds the control, marks it, and prints its
element with the attributes merged in. -/
theorem exists_step_input {s : Text} :
    (∃ q, p.step eval (.input name parts as) = .ok q ∧ q.out = s) ↔
      ∃ control texts m, RefersWith eval p name parts as control texts m ∧
        s = p.out ++ ((control.render texts).merge m).source := by
  have hfound : ∀ r source q, exec eval r (.printControl source parts as) = .ok q →
      ∃ place, r.controlPlace source = .ok place :=
    fun _ _ _ h => (exec_printControl_eq_ok.1 h).imp fun _ ⟨_, _, _, hplace, _⟩ => hplace
  constructor
  · rintro ⟨q, hstep, rfl⟩
    obtain ⟨t, place, ht, hplace, hprint⟩ := (foldlM_withControl_eq_ok hfound).1 hstep
    obtain ⟨place', control, texts, m, hplace', hcontrol, htexts, hm, rfl⟩ :=
      exec_printControl_eq_ok.1 hprint
    obtain rfl := Except.ok.inj ((controlPlace_withInputOf ht hplace).symm.trans hplace')
    rw [registry_withInputOf] at hcontrol
    refine ⟨control, texts, m, ⟨t, place, ht, hplace, hcontrol, htexts, hm⟩, ?_⟩
    exact congrArg (· ++ _) (out_withInputOf p name place)
  · rintro ⟨control, texts, m, ⟨t, place, ht, hplace, hcontrol, htexts, hm⟩, rfl⟩
    refine ⟨_, (foldlM_withControl_eq_ok hfound).2 ⟨t, place, ht, hplace,
      exec_printControl_eq_ok.2 ⟨place, control, texts, m, controlPlace_withInputOf ht hplace, ?_,
        htexts, hm, rfl⟩⟩, ?_⟩
    · rw [registry_withInputOf, hcontrol]
    · exact congrArg (· ++ _) (out_withInputOf p name place)

/-- An attribute that a word spells has a value. -/
theorem exists_value_of_assignment {word : Text} {given : Option AttributeValue}
    (h : eval.assignment p (AttributeList.ofWord word).2 = .ok given) :
    ∃ value, given = some value := by
  cases hword : (AttributeList.ofWord word).2 with
  | value w =>
    rw [hword] at h
    cases w with
    | literal s => cases h; exact ⟨_, rfl⟩
    | expression e =>
      obtain ⟨value, -, hvalue⟩ := exists_of_bind h
      cases hvalue
      exact ⟨value, rfl⟩
  | flag => rw [hword] at h; cases h; exact ⟨_, rfl⟩
  | absent =>
    rw [AttributeList.ofWord] at hword
    split at hword <;> cases hword

/-- **The attributes that words spell are given one value each**, under their
names and in their order. -/
theorem merge_ofWords {words : List Text} {m : Merge} (h : eval.merge p (.ofWords words) = .ok m) :
    m.map Prod.fst = (AttributeList.ofWords words).map Prod.fst ∧
      ∀ entry ∈ m, ∃ value, entry.2 = some value := by
  induction words generalizing m with
  | nil => cases h; exact ⟨rfl, nofun⟩
  | cons word words ih =>
    rw [AttributeList.ofWords, List.map_cons, Evaluation.merge, List.mapM_cons] at h
    obtain ⟨entry, hentry, h⟩ := exists_of_bind h
    obtain ⟨given, hgiven, hentry⟩ := exists_of_bind hentry
    obtain ⟨others, hothers, h⟩ := exists_of_bind h
    cases hentry
    cases h
    obtain ⟨hnames, hvalues⟩ := ih hothers
    exact ⟨congrArg _ hnames,
      List.forall_mem_cons.2 ⟨exists_value_of_assignment hgiven, hvalues⟩⟩

end Page

/-! ## Inputs of a template -/

/-- **Attributes that are given to an input are shown in its tag**, in every
template that compiles: where the template has an input, the step prints the
element of the control that the input refers to, with the attributes merged
in. If names are given once, the tag has each given value under its name. A
group of buttons as a whole has no tag, and what is given to it is lost, as it
is with a prototype without a name. -/
theorem compile_shows_given_attributes {options : Options} {template : Text} {p : Program}
    (h : compile options template = .ok p) :
    ∃ parts, Piece.allSteps? false (Piece.ofText options.attributePrefix template) = some parts ∧
      p = Script.program options.runtimePath parts.flatten ∧
      ∀ before arguments selfClosing source after,
        Piece.ofText options.attributePrefix template =
          before ++ .tag (.opening .input arguments selfClosing) source :: after →
        ∃ former latter word words key modifiers, Arguments.words arguments = word :: words ∧
          Directive.reference? word = some (key, modifiers) ∧ former.length = before.length ∧
          parts = former ++ [.input key modifiers (.ofWords words)] :: latter ∧
          ∀ (eval : Evaluation) (p₁ : Page) (control : Control) (texts : List Text) (m : Merge),
            Page.RefersWith eval p₁ key modifiers (.ofWords words) control texts m →
            ∃ (p₂ : Page) (markup : Text),
              p₁.step eval (.input key modifiers (.ofWords words)) = .ok p₂ ∧
              p₂.out = p₁.out ++ markup ∧
              m.map Prod.fst = (AttributeList.ofWords words).map Prod.fst ∧
              (∀ entry ∈ m, ∃ value, entry.2 = some value) ∧
              (((AttributeList.ofWords words).map Prod.fst).Nodup →
                control.ShowsGiven texts m markup) := by
  obtain ⟨parts, hlaidOut, rfl⟩ := laidOut_of_compile h
  refine ⟨parts, hlaidOut.allSteps?_eq, rfl, ?_⟩
  intro before arguments selfClosing source after hpieces
  have hsteps := hlaidOut.allSteps?_eq
  rw [hpieces] at hsteps
  obtain ⟨former, part, latter, hparts, hformer, -, hpart⟩ :=
    Piece.exists_of_allSteps?_append_cons hsteps
  obtain ⟨step, hstep, rfl⟩ := Option.map_eq_some_iff.1 hpart
  obtain ⟨word, words, hwords⟩ := Directive.words_of_openingStep? hstep
  rw [Directive.openingStep?, hwords] at hstep
  obtain ⟨⟨key, modifiers⟩, href, rfl⟩ := Option.map_eq_some_iff.1 hstep
  refine ⟨former, latter, word, words, key, modifiers, hwords, href, hformer, hparts, ?_⟩
  intro eval p₁ control texts m hrefers
  obtain ⟨p₂, hrun, hout⟩ := Page.exists_step_input.2 ⟨control, texts, m, hrefers, rfl⟩
  obtain ⟨_, _, _, _, _, _, hm⟩ := hrefers
  obtain ⟨hnames, hvalues⟩ := Page.merge_ofWords hm
  exact ⟨p₂, _, hrun, hout, hnames, hvalues, fun hdistinct =>
    Control.showsGiven (hnames ▸ hdistinct) control texts⟩

/-- An input for a group as a whole, with a class. -/
def groupTag : Text := "\x7binput g class=x\x7d".toList

/-- The class is lost, and an input for the one button of the group shows it. -/
theorem compile_shows_given_attributes_of_group :
    ∃ p p₂ control, compile {} groupTag = .ok p ∧
      Page.RefersWith .none controlsPage (.literal ['g']) []
        [("class".toList, .value (.literal ['x']))] control []
        [("class".toList, some (.text ['x']))] ∧
      controlsPage.step .none (.input (.literal ['g']) []
        [("class".toList, .value (.literal ['x']))]) = .ok p₂ ∧
      p₂.out = (control.render []).source ∧
      p₂.out = ("<label for=\"frm-f-g-m\"><input type=\"radio\" name=\"g\" id=\"frm-f-g-m\"" ++
        " value=\"m\">M</label><br>").toList ∧
      ((control.render [['m']]).merge [("class".toList, some (.text ['x']))]).startTag =
        "<label for=\"frm-f-g-m\" class=\"x\">".toList := by
  have hisOk : (compile {} groupTag).isOk = true := by decide +kernel
  have hpieces : Piece.ofText ({} : Options).attributePrefix groupTag =
      [] ++ [.tag (.opening .input "g class=x".toList false) groupTag] := by
    decide +kernel
  have hwords : Arguments.words "g class=x".toList = [['g'], "class=x".toList] := by decide +kernel
  have href : Directive.reference? ['g'] = some (.literal ['g'], []) := by decide
  have hgiven : AttributeList.ofWords ["class=x".toList] =
      [("class".toList, .value (.literal ['x']))] := by decide +kernel
  have hrefers : Page.RefersWith .none controlsPage (.literal ['g']) []
      [("class".toList, .value (.literal ['x']))]
      ((Container.root ['f']).newControl ['g'] (.radioList [⟨['m'], ['M']⟩])) []
      [("class".toList, some (.text ['x']))] :=
    ⟨.named ['g'], ⟨['f'], [['g']]⟩, rfl, rfl, rfl, rfl, rfl⟩
  cases hok : compile {} groupTag with
  | error e => rw [hok] at hisOk; cases hisOk
  | ok p =>
    obtain ⟨parts, -, -, hall⟩ := compile_shows_given_attributes hok
    obtain ⟨former, latter, word, words, key, modifiers, hwords', href', -, -, hshows⟩ :=
      hall _ _ _ _ _ hpieces
    cases hwords.symm.trans hwords'
    cases href.symm.trans href'
    rw [hgiven] at hshows
    obtain ⟨p₂, markup, hstep, hout, -, -, hmarkup⟩ := hshows _ _ _ _ _ hrefers
    have hlost := (hmarkup (by decide)).lost rfl
    rw [hlost] at hout
    exact ⟨p, p₂, _, rfl, hrefers, hstep, hout, hout.trans (by decide +kernel), by decide +kernel⟩

end Render

end FormTemplate
