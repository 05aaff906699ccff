import FormTemplate.Proofs.Render.Scoping

/-!
# The form that a closing tag ends

The closing tag of a form ends the form in effect. Of the forms begun
between the tags those in a container are in effect in its block only, but
the others still are at the closing tag. It therefore ends the last form
begun directly between the tags and, when there is none, the form of its
own opening tag (`EndOfForm.last`). The log of the calls that begin and end
forms tells the two apart: a form begun directly between the tags is begun
as many blocks deep as the form around it.
-/

namespace FormTemplate

namespace Render

open Form Template FormTemplate.Bracket

/-! ## Forms begun -/

/-- The form that a call begins so many blocks deep, if it begins one. -/
def FormCall.begunAt? (depth : Nat) : FormCall → Option Text
  | .begins f d => if d = depth then some f else none
  | .ends _ => none

/-- The forms that calls begin so many blocks deep, in order. -/
def begunAt (depth : Nat) (calls : List FormCall) : List Text :=
  calls.filterMap (FormCall.begunAt? depth)

/-- A form begun by a word is the one that the word names, if it names one. -/
def NamedBy (word : Word) (f : Text) : Prop := ∀ name, word = .literal name → f = name

@[simp] theorem begunAt_append (depth : Nat) (l l' : List FormCall) :
    begunAt depth (l ++ l') = begunAt depth l ++ begunAt depth l' := List.filterMap_append

/-- No form is begun where all are begun deeper. -/
theorem begunAt_eq_nil {depth : Nat} {calls : List FormCall}
    (h : ∀ f d, .begins f d ∈ calls → depth < d) : begunAt depth calls = [] := by
  rw [begunAt, List.filterMap_eq_nil_iff]
  intro c hc
  cases c with
  | ends f => rfl
  | begins f d =>
    have hd := h f d hc
    rw [FormCall.begunAt?, if_neg (by omega)]

/-! ## What a balanced run does to forms -/

variable {eval : Evaluation} {p q : Page} {s : Script} {names : List Word} {log : List FormCall}

/-- **The calls of a balanced run** and the form in effect after it. -/
structure FormRun (names : List Word) (p q : Page) (log : List FormCall) : Prop where
  /-- The calls made. -/
  calls : q.calls = p.calls ++ log
  /-- Forms are begun in the block of the run or deeper. -/
  within : ∀ f d, .begins f d ∈ log → p.outer.length ≤ d
  /-- In the block itself are begun those of the given names. -/
  names : List.Forall₂ NamedBy names (begunAt p.outer.length log)
  /-- The last of them is in effect. -/
  form : q.scope.context.form =
    (begunAt p.outer.length log).getLast?.or p.scope.context.form

/-- A step without a block begins at most one form, and that in its block. -/
theorem formRun_of_step {x : Step} (hx : x.block? = none) (h : p.step eval x = .ok q) :
    ∃ log, FormRun x.form?.toList p q log := by
  cases x with
  | enterContainer | leaveContainer => cases hx
  | beginForm name as =>
    obtain ⟨t, f, form, ht, hf, -, hcontext, -, -, hcalls⟩ := Page.step_beginForm h
    have hbegun : begunAt p.outer.length [.begins f p.outer.length] = [f] := by
      simp [begunAt, FormCall.begunAt?]
    refine ⟨_, hcalls, ?_, ?_, ?_⟩
    · intro f' d hd
      cases List.mem_singleton.1 hd
      exact Nat.le_refl _
    · rw [hbegun]
      refine .cons ?_ .nil
      rintro k rfl
      cases ht
      exact name_of_resolveForm hf
    · rw [hbegun, hcontext]
      rfl
  | endForm =>
    obtain ⟨f, form, -, -, hscope, -, -, hcalls⟩ := Page.step_endForm h
    refine ⟨_, hcalls, ?_, .nil, ?_⟩
    · intro f' d hd
      cases List.mem_singleton.1 hd
    · rw [hscope]
      rfl
  | text | label | endLabel | input | attributes =>
    have hquiet := Page.quiet_of_step rfl h
    exact ⟨[], by rw [hquiet.calls, List.append_nil], nofun, .nil, hquiet.form⟩

/-- **A balanced run begins the forms of its names** in its own block, and
the last of them stays in effect. -/
theorem formRun_of_run (hs : Balanced s names) (h : p.run eval s = .ok q) :
    ∃ log, FormRun names p q log := by
  induction hs generalizing p q with
  | nil =>
    cases h
    exact ⟨[], by rw [List.append_nil], nofun, .nil, rfl⟩
  | append hs _ ihs iht =>
    obtain ⟨r, hr, h⟩ := Page.run_append.1 h
    obtain ⟨log, hlog⟩ := ihs hr
    obtain ⟨log', hlog'⟩ := iht h
    -- The second run starts as deep as the first, so the two logs are read alike.
    have houter := Page.outer_of_run hs hr
    have hwithin := hlog'.within
    have hnames := hlog'.names
    have hform := hlog'.form
    rw [houter] at hwithin hnames hform
    refine ⟨log ++ log', ?_, ?_, ?_, ?_⟩
    · rw [hlog'.calls, hlog.calls, List.append_assoc]
    · intro f d hd
      rcases List.mem_append.1 hd with hd | hd
      · exact hlog.within f d hd
      · exact hwithin f d hd
    · rw [begunAt_append]
      exact List.rel_append hlog.names hnames
    · rw [hform, hlog.form, begunAt_append, List.getLast?_append, Option.or_assoc]
  | step hx =>
    rw [Page.run_singleton] at h
    exact formRun_of_step hx h
  | block name hs ih =>
    obtain ⟨r₁, r₂, henter, hbody, hleave⟩ := Page.run_block.1 h
    obtain ⟨log, hlog⟩ := ih hbody
    rw [Page.eq_of_block henter (Page.outer_of_run hs hbody) hleave]
    obtain ⟨place, -, -, houter, -, hcalls⟩ := Page.step_enterContainer henter
    have hwithin := hlog.within
    rw [houter, List.length_cons] at hwithin
    -- What is begun in the container is begun deeper, so the block begins nothing
    -- of its own and the form in effect is again that of before.
    have hbegun : begunAt p.outer.length log = [] := begunAt_eq_nil hwithin
    refine ⟨log, ?_, ?_, ?_, ?_⟩
    · rw [← hcalls]
      exact hlog.calls
    · intro f d hd
      exact Nat.le_of_lt (hwithin f d hd)
    · rw [hbegun]
      exact .nil
    · rw [hbegun]
      rfl

/-! ## The end of a form -/

/-- **What the closing tag of a form ends.** Pages before and after the
opening tag and before and after the closing tag; between the tags forms of
the given names are begun directly. -/
structure EndOfForm (name : Word) (names : List Word) (p₁ p₂ p₃ p₄ : Page) (begun ended : Text)
    (log : List FormCall) : Prop where
  /-- The opening tag begins a form. -/
  opening : p₂.calls = p₁.calls ++ [.begins begun p₁.outer.length]
  /-- What is begun and ended between the tags. -/
  between : p₃.calls = p₂.calls ++ log
  /-- The closing tag ends a form. -/
  closing : p₄.calls = p₃.calls ++ [.ends ended]
  /-- The form begun is the one named. -/
  name : NamedBy name begun
  /-- The forms begun directly between the tags are those named there. -/
  names : List.Forall₂ NamedBy names (begunAt p₁.outer.length log)
  /-- The form ended is the last of these, or else the one begun. -/
  last : ended = (begunAt p₁.outer.length log).getLast?.getD begun
  /-- It is the one begun exactly when the last of these, if any, is. -/
  own : ended = begun ↔ ∀ f, (begunAt p₁.outer.length log).getLast? = some f → f = begun

/-- A closing tag ends the last form begun directly before it. -/
theorem exists_endOfForm {name : Word} {as : AttributeList} {p₁ p₂ p₃ p₄ : Page}
    (hs : Balanced s names) (hbegin : p₁.step eval (.beginForm name as) = .ok p₂)
    (hbody : p₂.run eval s = .ok p₃) (hend : p₃.step eval .endForm = .ok p₄) :
    ∃ begun ended log, EndOfForm name names p₁ p₂ p₃ p₄ begun ended log := by
  obtain ⟨t, f, form, ht, hf, -, hcontext, houter, -, hopening⟩ := Page.step_beginForm hbegin
  obtain ⟨g, form', hg, -, -, -, -, hclosing⟩ := Page.step_endForm hend
  obtain ⟨log, hlog⟩ := formRun_of_run hs hbody
  have hnames := hlog.names
  have hform := hlog.form
  rw [houter] at hnames hform
  -- The form ended is the one in effect, and that is known from the log.
  have hlast : g = (begunAt p₁.outer.length log).getLast?.getD f := by
    have hcurrent : (begunAt p₁.outer.length log).getLast?.or (some f) = some g := by
      rw [← hg, hform, hcontext]
      rfl
    cases hbegun : (begunAt p₁.outer.length log).getLast? with
    | none => rw [hbegun] at hcurrent; exact (Option.some.inj hcurrent).symm
    | some f' => rw [hbegun] at hcurrent; exact (Option.some.inj hcurrent).symm
  refine ⟨f, g, log, hopening, hlog.calls, hclosing, ?_, hnames, hlast, ?_⟩
  · rintro k rfl
    cases ht
    exact name_of_resolveForm hf
  · rw [hlast]
    cases (begunAt p₁.outer.length log).getLast? with
    | none => simp
    | some f' => simp

/-- A form stays in effect when no other is begun directly in its body. -/
theorem EndOfForm.eq_of_nil {name : Word} {p₁ p₂ p₃ p₄ : Page} {begun ended : Text}
    (h : EndOfForm name [] p₁ p₂ p₃ p₄ begun ended log) : ended = begun := by
  have hnames := h.names
  have hlast := h.last
  generalize begunAt p₁.outer.length log = forms at hnames hlast
  cases hnames
  exact hlast

/-- The last of a sequence and the last of another that it matches. -/
theorem exists_getLast?_of_forall₂ {α β : Type} {R : α → β → Prop} {l : List α} {m : List β}
    (h : List.Forall₂ R l m) {a : α} (ha : l.getLast? = some a) :
    ∃ b, m.getLast? = some b ∧ R a b := by
  rw [← List.head?_reverse] at ha
  obtain ⟨l', hl⟩ := List.head?_eq_some_iff.1 ha
  have hreverse := List.forall₂_reverse_iff.2 h
  rw [hl] at hreverse
  generalize hm : m.reverse = m' at hreverse
  cases hreverse with
  | @cons _ b _ m' hab _ => exact ⟨b, by rw [← List.head?_reverse, hm, List.head?_cons], hab⟩

/-- Where the last form begun directly in the body is named, that one is
ended. -/
theorem EndOfForm.eq_of_getLast? {name : Word} {p₁ p₂ p₃ p₄ : Page} {begun ended : Text}
    (h : EndOfForm name names p₁ p₂ p₃ p₄ begun ended log) {k : Text}
    (hk : names.getLast? = some (.literal k)) : ended = k := by
  obtain ⟨f, hf, hname⟩ := exists_getLast?_of_forall₂ h.names hk
  rw [h.last, hf]
  exact hname k rfl

/-- **Which form a closing tag ends**, in every template that compiles: of
the forms begun directly between the tags the last one, if there is any,
and else the form that its own opening tag began. -/
theorem compile_ends_last_form {options : Options} {template : Text} {p : Program}
    (h : compile options template = .ok p) :
    ∃ parts, List.Forall₂ Placed (Piece.ofText options.attributePrefix template) parts ∧
      p = Script.program options.runtimePath parts.flatten ∧
      Nested (Script.brackets parts.flatten) ∧
      ∀ eval start s name as body t p₁ p₂ p₃ p₄,
        parts.flatten = s ++ (.beginForm name as :: body ++ .endForm :: t) →
        Nested (Script.brackets body) → Page.run eval start s = .ok p₁ →
        p₁.step eval (.beginForm name as) = .ok p₂ → p₂.run eval body = .ok p₃ →
        p₃.step eval .endForm = .ok p₄ →
        ∃ names begun ended log, Balanced body names ∧
          EndOfForm name names p₁ p₂ p₃ p₄ begun ended log ∧
          (names = [] → ended = begun) ∧
          (∀ k, names.getLast? = some (.literal k) → ended = k) := by
  obtain ⟨parts, hlaidOut, rfl⟩ := laidOut_of_compile h
  refine ⟨parts, hlaidOut.placed, rfl, hlaidOut.nested_brackets, ?_⟩
  intro eval start s name as body t p₁ p₂ p₃ p₄ _ hbody _ hbegin hrun hend
  obtain ⟨names, hbalanced⟩ := exists_balanced_of_nested (nested_blocks_of_brackets hbody)
  obtain ⟨begun, ended, log, hform⟩ := exists_endOfForm hbalanced hbegin hrun hend
  refine ⟨names, begun, ended, log, hbalanced, hform, ?_, fun k hk => hform.eq_of_getLast? hk⟩
  rintro rfl
  exact hform.eq_of_nil

theorem flatten_of_nested_forms {parts : List Script} {s₁ s₂ s₃ s₄ : Text}
    (h : List.Forall₂ Placed
      [.tag (.opening .form ['a'] false) s₁, .tag (.opening .form ['b'] false) s₂,
        .tag (.closing .form) s₃, .tag (.closing .form) s₄] parts) :
    parts.flatten =
      [.beginForm (.literal ['a']) [], .beginForm (.literal ['b']) [], .endForm, .endForm] := by
  have ha : ∀ hasBody, Directive.form.openingStep? ['a'] hasBody =
      some (.beginForm (.literal ['a']) []) := by decide +kernel
  have hb : ∀ hasBody, Directive.form.openingStep? ['b'] hasBody =
      some (.beginForm (.literal ['b']) []) := by decide +kernel
  obtain _ | ⟨h₁, _ | ⟨h₂, _ | ⟨h₃, _ | ⟨h₄, ⟨⟩⟩⟩⟩⟩ := h
  cases h₁ with
  | opening hasBody hstep =>
    cases (ha hasBody).symm.trans hstep
    cases h₂ with
    | opening hasBody hstep =>
      cases (hb hasBody).symm.trans hstep
      cases h₃
      cases h₄
      rfl

/-- A form in a form is ended twice, and the form around it never. -/
theorem compile_ends_last_form_of_nested :
    ∃ p names p₁ p₂ p₃ p₄ log,
      compile {} "\x7bform a\x7d\x7bform b\x7d\x7b/form\x7d\x7b/form\x7d".toList = .ok p ∧
      p₄.calls = [.begins ['a'] 0, .begins ['b'] 0, .ends ['b'], .ends ['b']] ∧
      EndOfForm (.literal ['a']) names p₁ p₂ p₃ p₄ ['a'] ['b'] log := by
  have hisOk :
      (compile {} "\x7bform a\x7d\x7bform b\x7d\x7b/form\x7d\x7b/form\x7d".toList).isOk = true := by
    rw [Text.toList_eq (by rfl)]
    decide +kernel
  have hpieces :
      Piece.ofText "n:".toList "\x7bform a\x7d\x7bform b\x7d\x7b/form\x7d\x7b/form\x7d".toList =
        [.tag (.opening .form ['a'] false) "\x7bform a\x7d".toList,
          .tag (.opening .form ['b'] false) "\x7bform b\x7d".toList,
          .tag (.closing .form) "\x7b/form\x7d".toList,
          .tag (.closing .form) "\x7b/form\x7d".toList] := by
    repeat rw [Text.toList_eq (by rfl)]
    decide +kernel
  have hcalls :
      (Page.run .none { registry := [Form.create ['a'], Form.create ['b']] }
        [.beginForm (.literal ['a']) [], .beginForm (.literal ['b']) [], .endForm,
          .endForm]).toOption.map Page.calls =
        some [.begins ['a'] 0, .begins ['b'] 0, .ends ['b'], .ends ['b']] := by
    decide +kernel
  cases hok : compile {} "\x7bform a\x7d\x7bform b\x7d\x7b/form\x7d\x7b/form\x7d".toList with
  | error e => rw [hok] at hisOk; cases hisOk
  | ok p =>
    obtain ⟨p₄, hrun, hcalls⟩ := Option.map_eq_some_iff.1 hcalls
    have hrun' : Page.run .none { registry := [Form.create ['a'], Form.create ['b']] }
        [.beginForm (.literal ['a']) [], .beginForm (.literal ['b']) [], .endForm, .endForm] =
          .ok p₄ := by
      generalize Page.run _ _ _ = x at hrun
      cases x with
      | error e => cases hrun
      | ok q => cases hrun; rfl
    obtain ⟨p₂, hbegin, hrest⟩ := Page.run_cons.1 hrun'
    obtain ⟨p₃, hbody, hend⟩ :=
      (Page.run_append (s := [.beginForm (.literal ['b']) [], .endForm])).1 hrest
    rw [Page.run_singleton] at hend
    obtain ⟨parts, hplaced, -, -, hends⟩ := compile_ends_last_form hok
    have hflatten := flatten_of_nested_forms (hpieces ▸ hplaced)
    obtain ⟨names, begun, ended, log, -, hform, -⟩ :=
      hends .none _ [] _ _ [.beginForm (.literal ['b']) [], .endForm] [] _ p₂ p₃ p₄ hflatten
        (.pair _ .nil) rfl hbegin hbody hend
    have hall := hform.closing
    rw [hform.between, hform.opening, hcalls] at hall
    obtain rfl : begun = ['a'] := by simpa using (congrArg List.head? hall).symm
    obtain rfl : ended = ['b'] := by
      have hlast := congrArg List.getLast? hall
      rw [List.getLast?_concat] at hlast
      cases hlast
      rfl
    exact ⟨p, names, _, p₂, p₃, p₄, log, rfl, hcalls, hform⟩

end Render

end FormTemplate
