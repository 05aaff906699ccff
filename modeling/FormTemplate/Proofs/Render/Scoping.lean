import FormTemplate.Proofs.Render.Execution
import FormTemplate.Proofs.Template.Blocks

/-!
# Bindings and contexts

While a template is compiled the bindings say which form and container each
place refers to; when the generated code runs, the context does. The two
keep in step. A saved binding stands for a scope that the end of a block
brings back, one for one (`Agree`), and both are what looking back from the
place finds: the form begun last, outside of the blocks closed since, and
the containers entered on the way (`Script.locus?`). A step keeps that up
(`Agree.step`), so every run does (`Agree.run`).
-/

namespace FormTemplate

namespace Render

open Form Template FormTemplate.Bracket

namespace Page

variable {eval : Evaluation} {p q : Page} {s : Script}

/-! ## Running through blocks -/

/-- A step without a block leaves the open blocks alone. -/
theorem outer_of_step {x : Step} (hx : x.block? = none) (h : p.step eval x = .ok q) :
    q.outer = p.outer := by
  cases x with
  | enterContainer | leaveContainer => cases hx
  | beginForm name as =>
    obtain ⟨t, f, form, -, -, -, -, houter, -⟩ := step_beginForm h
    exact houter
  | endForm =>
    obtain ⟨f, form, -, -, -, houter, -⟩ := step_endForm h
    exact houter
  | text | label | endLabel | input | attributes => exact (quiet_of_step rfl h).outer

theorem run_block {name : Word} :
    p.run eval (.enterContainer name :: s ++ [.leaveContainer]) = .ok q ↔
      ∃ r₁ r₂, p.step eval (.enterContainer name) = .ok r₁ ∧ r₁.run eval s = .ok r₂ ∧
        r₂.step eval .leaveContainer = .ok q := by
  rw [List.cons_append, run_cons]
  refine exists_congr fun r₁ => ?_
  rw [run_append, exists_and_left]
  simp only [run_singleton]

/-- What a container block brings back at its end, when the steps in it
leave the open blocks alone. -/
theorem eq_of_block {name : Word} {r₁ r₂ : Page}
    (henter : p.step eval (.enterContainer name) = .ok r₁) (hbody : r₂.outer = r₁.outer)
    (hleave : r₂.step eval .leaveContainer = .ok q) :
    q = { r₂ with scope := p.scope, outer := p.outer } := by
  obtain ⟨place, -, -, houter, -⟩ := step_enterContainer henter
  obtain ⟨scope, outer, hr₂, rfl⟩ := step_leaveContainer hleave
  rw [hbody, houter] at hr₂
  obtain ⟨rfl, rfl⟩ := List.cons.inj hr₂
  rfl

/-- **A balanced run leaves the open blocks alone.** -/
theorem outer_of_run {names : List Word} (hs : Balanced s names) (h : p.run eval s = .ok q) :
    q.outer = p.outer := by
  induction hs generalizing p q with
  | nil => cases h; rfl
  | append _ _ ihs iht =>
    obtain ⟨r, hr, h⟩ := run_append.1 h
    exact (iht h).trans (ihs hr)
  | step hx =>
    rw [run_singleton] at h
    exact outer_of_step hx h
  | block name _ ih =>
    obtain ⟨r₁, r₂, henter, hbody, hleave⟩ := run_block.1 h
    rw [eq_of_block henter (ih hbody) hleave]

/-- **A container block leaves every variable as it was.** -/
theorem scope_of_block {name : Word} {names : List Word} (hs : Balanced s names)
    (h : p.run eval (.enterContainer name :: s ++ [.leaveContainer]) = .ok q) :
    q.scope = p.scope := by
  obtain ⟨r₁, r₂, henter, hbody, hleave⟩ := run_block.1 h
  rw [eq_of_block henter (outer_of_run hs hbody) hleave]

end Page

end Render

/-! ## Looking back -/

namespace Template

/-- Where a place of a template is: the form begun, and the containers
entered since, the outermost first. -/
structure Locus where
  /-- The form. -/
  form : Word
  /-- The containers. -/
  containers : List Word := []
deriving Repr, DecidableEq

/-- **Looks back over steps**, the latest first, for the form begun last and
the containers entered since, as they are so many blocks further out. What
is in a closed block does not count. -/
def Script.locus? : Script → Nat → Option Locus
  | [], _ => none
  | .beginForm name _ :: _, 0 => some { form := name }
  | .enterContainer name :: s, 0 =>
    (locus? s 0).map fun l => { l with containers := l.containers ++ [name] }
  | .enterContainer _ :: s, depth + 1 => locus? s depth
  | .leaveContainer :: s, depth => locus? s (depth + 1)
  | _ :: s, depth => locus? s depth

/-- Steps that name their form or container by a literal, if they name one. -/
def Step.isLiteral : Step → Bool
  | .beginForm name _ | .enterContainer name => !name.isExpression
  | _ => true

end Template

namespace Render

open Form Template FormTemplate.Bracket

/-! ## Keeping in step -/

/-- **A context is at a form and a container** of the registry. -/
structure Context.At (r : Registry) (c : Context) (f : Text) (path : List Text) : Prop where
  /-- The form is in effect. -/
  form : c.form = some f
  /-- The container is in effect. -/
  container : c.container = some ⟨f, path⟩
  /-- They are in the registry. -/
  exists_container : ∃ d, containerAt r ⟨f, path⟩ = .ok d

/-- **Bindings agree with scopes**, the innermost first, and both with what
looking back finds at each depth. -/
inductive Agree (r : Registry) : (Nat → Option Locus) → List Binding → List Scope → Prop
  /-- No more bindings are saved. -/
  | nil {back : Nat → Option Locus} {scopes : List Scope} : Agree r back [] scopes
  /-- A binding and the scope that it stands for. -/
  | cons {back : Nat → Option Locus} {b : Binding} {saved : List Binding} {scope : Scope}
      {outer : List Scope} :
    b.form = (back 0).map Locus.form →
    (∀ l, back 0 = some l → ∃ f path,
      l = ⟨.literal f, path.map .literal⟩ ∧ scope.context.At r f path) →
    Agree r (fun depth => back (depth + 1)) saved outer →
    Agree r back (b :: saved) (scope :: outer)

variable {r r' : Registry} {c : Context} {f : Text} {path : List Text}

/-- Marks do not matter to where a context is. -/
theorem Context.At.of_unmarked (h : c.At r f path) (hr : r.unmarked = r'.unmarked) :
    c.At r' f path := by
  obtain ⟨d, hd⟩ := h.exists_container
  exact ⟨h.form, h.container, exists_containerAt_of_unmarked hr hd⟩

theorem Agree.of_unmarked {back : Nat → Option Locus} {bindings : List Binding}
    {scopes : List Scope} (h : Agree r back bindings scopes) (hr : r.unmarked = r'.unmarked) :
    Agree r' back bindings scopes := by
  induction h with
  | nil => exact .nil
  | cons hform hat _ ih =>
    refine .cons hform (fun l hl => ?_) ih
    obtain ⟨f, path, rfl, h⟩ := hat l hl
    exact ⟨f, path, rfl, h.of_unmarked hr⟩

theorem name_of_formNamed {form : Form} (h : formNamed r f = .ok form) : form.name = f := by
  rw [formNamed, Registry.form] at h
  split at h
  · next g hg =>
    cases h
    simpa using List.find?_some hg
  · cases h

theorem name_of_resolveForm {name : Text} (h : Context.resolveForm r (.named name) = .ok f) :
    f = name := by
  change (formNamed r name >>= fun form => pure form.name) = .ok f at h
  cases hform : formNamed r name with
  | error e => rw [hform] at h; cases h
  | ok form =>
    rw [hform] at h
    cases h
    exact name_of_formNamed hform

/-- A context that a form is entered in is at its root. -/
theorem Context.at_enterForm {form : Form} (h : formNamed r f = .ok form) (c : Context) :
    (c.enterForm f).At r f [] :=
  ⟨rfl, rfl, form.root, containerAt_eq_ok.2 ⟨form, h, rfl⟩⟩

theorem containerAt_append_singleton {c d e : Container} {name : Text}
    (hd : c.containerAt path = .ok d) (he : d.container name = .ok e) :
    c.containerAt (path ++ [name]) = .ok e := by
  induction path generalizing c with
  | nil =>
    cases hd
    rw [List.nil_append, Container.containerAt, he]
    rfl
  | cons next path ih =>
    rw [List.cons_append, Container.containerAt]
    rw [Container.containerAt] at hd
    cases hnext : c.container next with
    | error e => rw [hnext] at hd; cases hd
    | ok c' =>
      rw [hnext] at hd
      exact ih hd

/-- What a container that is found by its name is. -/
theorem Context.containerNamed_eq_ok {name : Text} {place : Place}
    (h : c.containerNamed r name = .ok place) {p : Place} {d : Container}
    (hp : c.container = some p) (hd : containerAt r p = .ok d) :
    place = p.child name ∧ ∃ e, d.container name = .ok e := by
  rw [containerNamed, currentContainer, hp] at h
  change (containerAt r p >>= fun d => ofLookup (d.container name) >>= fun _ =>
    pure (p.child name)) = .ok place at h
  rw [hd] at h
  change (ofLookup (d.container name) >>= fun _ => pure (p.child name)) = .ok place at h
  cases hname : d.container name with
  | error e => rw [hname] at h; cases h
  | ok e =>
    rw [hname] at h
    cases h
    exact ⟨rfl, e, rfl⟩

/-- A context that a container is entered in is at that container. -/
theorem Context.At.enterContainer (h : c.At r f path) {name : Text} {place : Place}
    (hplace : c.containerNamed r name = .ok place) :
    (c.enterContainer place).At r f (path ++ [name]) := by
  obtain ⟨d, hd⟩ := h.exists_container
  obtain ⟨rfl, e, he⟩ := containerNamed_eq_ok hplace h.container hd
  obtain ⟨form, hform, hroot⟩ := containerAt_eq_ok.1 hd
  exact ⟨h.form, rfl, e,
    containerAt_eq_ok.2 ⟨form, hform, containerAt_append_singleton hroot he⟩⟩

/-! ## Steps and runs -/

variable {eval : Evaluation} {p q : Page} {b b' : BindingStack} {s t : Script}

/-- The bindings and scopes of a page agree. -/
def Agreement (s : Script) (b : BindingStack) (p : Page) : Prop :=
  Agree p.registry (Script.locus? s) (b.current :: b.saved) (p.scope :: p.outer)

/-- A step that leaves form and container alone keeps agreement up. -/
theorem Agreement.quiet {s' : Script} (h : Agreement s b p) (hq : Page.Quiet p q)
    (hback : Script.locus? s' = Script.locus? s) : Agreement s' b q := by
  cases h with
  | cons hform hat hsaved =>
    rw [Agreement, hback]
    refine .cons hform (fun l hl => ?_) ?_
    · obtain ⟨f, path, rfl, h⟩ := hat l hl
      have h' := h.of_unmarked hq.registry.symm
      exact ⟨f, path, rfl, hq.form.trans h'.form, hq.container.trans h'.container,
        h'.exists_container⟩
    · rw [hq.outer]
      exact hsaved.of_unmarked hq.registry.symm

/-- **A step keeps agreement up.** -/
theorem Agreement.step {x : Step} (h : Agreement s b p) (hx : x.isLiteral = true)
    (hbind : x.bind b = .ok b') (hstep : p.step eval x = .ok q) : Agreement (x :: s) b' q := by
  -- One case for each step: the bindings change only where the context does.
  cases x with
  | text | label | endLabel | input | attributes =>
    cases hbind
    exact h.quiet (Page.quiet_of_step rfl hstep) rfl
  | beginForm name as =>
    cases hbind
    cases name with
    | expression e => cases hx
    | literal k =>
      obtain ⟨t, f, form, ht, hf, hform, hcontext, houter, hregistry, -⟩ :=
        Page.step_beginForm hstep
      cases ht
      obtain rfl : f = k := name_of_resolveForm hf
      -- Whatever was bound here before, the new form is at its own root.
      cases h with
      | cons _ _ hsaved =>
        rw [Agreement, hregistry, houter]
        refine .cons rfl (fun l hl => ?_) hsaved
        cases hl
        rw [hcontext]
        exact ⟨f, [], rfl, Context.at_enterForm hform _⟩
  | endForm =>
    cases hbind
    obtain ⟨f, form, -, -, hscope, houter, hregistry, -⟩ := Page.step_endForm hstep
    rw [Agreement, hscope, houter, hregistry]
    exact h.of_unmarked (Registry.unmarked_modify Form.unmarked_afterEnd p.registry).symm
  | enterContainer name =>
    cases hbind
    cases name with
    | expression e => cases hx
    | literal k =>
      obtain ⟨place, hplace, hcontext, houter, hregistry, -⟩ := Page.step_enterContainer hstep
      -- All that agreed is saved, and its innermost part is where the container is looked up.
      have hsaved := h
      cases h with
      | cons hform hat _ =>
        rw [Agreement, hregistry, houter]
        refine .cons ?_ (fun l hl => ?_) hsaved
        · rw [Script.locus?, Option.map_map]
          exact hform
        · obtain ⟨outer, hl', rfl⟩ := Option.map_eq_some_iff.1 hl
          obtain ⟨f, path, rfl, hc⟩ := hat outer hl'
          rw [hcontext]
          exact ⟨f, path ++ [k], by simp, hc.enterContainer (hplace k rfl)⟩
  | leaveContainer =>
    obtain ⟨scope, outer, houter, rfl⟩ := Page.step_leaveContainer hstep
    obtain ⟨current, saved⟩ := b
    cases saved with
    | nil => cases hbind
    | cons binding saved =>
      cases hbind
      -- What is left agrees already: looking back from the end of the block
      -- is looking back one block further out.
      cases h with
      | cons _ _ hsaved =>
        rw [houter] at hsaved
        exact hsaved

/-- **A run keeps agreement up.** -/
theorem Agreement.run (h : Agreement s b p) (ht : ∀ x ∈ t, x.isLiteral = true)
    (hbind : Script.bindings t b = .ok b') (hrun : p.run eval t = .ok q) :
    Agreement (t.reverse ++ s) b' q := by
  induction t generalizing s b p with
  | nil => cases hbind; cases hrun; exact h
  | cons x t ih =>
    obtain ⟨r, hr, hrun⟩ := Page.run_cons.1 hrun
    rw [Script.bindings, List.foldlM_cons] at hbind
    cases hb : x.bind b with
    | error e => rw [hb] at hbind; cases hbind
    | ok b₁ =>
      rw [hb] at hbind
      rw [List.reverse_cons, List.append_assoc]
      exact ih (h.step (ht x (by simp)) hb hr) (fun y hy => ht y (by simp [hy])) hbind hrun

/-! ## Whole templates -/

/-- **Blocks, bindings and contexts in step**, over all places of a compiled
template. The steps are those of the template, piece by piece. -/
structure InStep (options : Options) (template : Text) (p : Program) (parts : List Script) :
    Prop where
  /-- Each piece has its steps. -/
  placed : List.Forall₂ Placed (Piece.ofText options.attributePrefix template) parts
  /-- The program is that of the steps. -/
  program : p = Script.program options.runtimePath parts.flatten
  /-- Between two pieces the compiler has the bindings that the steps leave. -/
  bindings : ∀ before after, Piece.ofText options.attributePrefix template = before ++ after →
    ∃ c, before.foldlM (Compilation.piece options) {} = .ok c ∧
      Script.bindings (parts.take before.length).flatten {} = .ok c.bindings
  /-- The blocks are properly nested. -/
  nested : Nested p.blocks
  /-- Before each segment as many blocks are open as containers are entered. -/
  depth : ∀ q r, p = q ++ r → ∃ s t b, parts.flatten = s ++ t ∧
    Script.program options.runtimePath s = q ∧ Script.bindings s {} = .ok b ∧
    (opened (Program.blocks q) []).length = b.depth
  /-- A container block leaves every variable as it was. -/
  restored : ∀ eval start s name body t p₁ p₂,
    parts.flatten = s ++ (.enterContainer name :: body ++ [.leaveContainer]) ++ t →
    Nested (Script.blocks body) → Page.run eval start s = .ok p₁ →
    Page.run eval start (s ++ (.enterContainer name :: body ++ [.leaveContainer])) = .ok p₂ →
    p₂.scope = p₁.scope
  /-- The form that is bound is the one begun last, outside of the blocks
  closed since; right behind the tag of a form it is that form. Where a form
  is bound, the context has that form, and the container that the names
  entered since lead to from its root. -/
  context : (∀ x ∈ parts.flatten, x.isLiteral = true) →
    ∀ eval start s t q, parts.flatten = s ++ t → Page.run eval start s = .ok q →
      ∃ b, Script.bindings s {} = .ok b ∧
        b.current.form = (Script.locus? s.reverse 0).map Locus.form ∧
        (∀ before name as, s = before ++ [.beginForm name as] → b.current.form = some name) ∧
        ∀ word, b.current.form = some word →
          ∃ f path form container, word = .literal f ∧
            Script.locus? s.reverse 0 = some ⟨word, path.map .literal⟩ ∧
            q.registry.form f = .ok form ∧ form.root.containerAt path = .ok container ∧
            q.scope.context.currentForm = .ok f ∧
            q.scope.context.currentContainer = .ok ⟨f, path⟩

theorem Agreement.start (start : Page) : Agreement [] {} start :=
  .cons rfl nofun .nil

/-- **Bindings and contexts keep in step** in every template that compiles:
the blocks of the generated code are properly nested and as deep as the
bindings saved, a container block leaves the context as it was, and, when
forms and containers are named by literals, every run without error is at
the form and the container that the bindings say. -/
theorem compile_keeps_in_step {options : Options} {template : Text} {p : Program}
    (h : compile options template = .ok p) : ∃ parts, InStep options template p parts := by
  obtain ⟨parts, hlaidOut, rfl⟩ := laidOut_of_compile h
  have hplaced := hlaidOut.placed
  obtain ⟨c, -, hall⟩ := exists_bindings_of_compile h hplaced (List.append_nil _).symm
  rw [hplaced.length_eq, List.take_length] at hall
  -- The steps as a whole have bindings, so any beginning of them has.
  have hbindings : ∀ s t, parts.flatten = s ++ t → ∃ b, Script.bindings s {} = .ok b := by
    intro s t hcut
    rw [hcut, Script.bindings, List.foldlM_append] at hall
    cases hs : s.foldlM Step.bind {} with
    | error e => rw [hs] at hall; cases hall
    | ok b => exact ⟨b, hs⟩
  refine ⟨parts, hplaced, rfl, ?_, ?_, ?_, ?_, ?_⟩
  · intro before after hcut
    exact exists_bindings_of_compile h hplaced hcut
  · rw [blocks_program]
    exact nested_blocks_of_brackets hlaidOut.nested_brackets
  -- A beginning of the program is that of a beginning of the steps.
  · intro q r hq
    obtain ⟨l, m, hlm, hl⟩ := Program.exists_prefix_of_ofSegments hq
    obtain ⟨s, t, hcut, rfl, -⟩ := List.map_eq_append_iff.1 hlm
    obtain ⟨b, hb⟩ := hbindings s t hcut
    refine ⟨s, t, b, hcut, hl, hb, ?_⟩
    rw [← hl]
    change (opened (Program.blocks (Script.program options.runtimePath s)) []).length = _
    rw [blocks_program]
    exact depth_of_bindings hb rfl
  · intro eval start s name body t p₁ p₂ _ hbody hs hrun
    obtain ⟨p₁', hs', hblock⟩ := Page.run_append.1 hrun
    cases hs.symm.trans hs'
    obtain ⟨names, hbalanced⟩ := exists_balanced_of_nested hbody
    exact Page.scope_of_block hbalanced hblock
  · intro hliteral eval start s t q hcut hrun
    obtain ⟨b, hb⟩ := hbindings s t hcut
    have hagree := (Agreement.start start).run (fun x hx => hliteral x (by simp [hcut, hx])) hb hrun
    rw [List.append_nil] at hagree
    cases hagree with
    | cons hform hat _ =>
      refine ⟨b, hb, hform, ?_, fun word hword => ?_⟩
      · rintro before name as rfl
        rw [hform, List.reverse_append]
        rfl
      obtain ⟨l, hl, rfl⟩ := Option.map_eq_some_iff.1 (hform.symm.trans hword)
      obtain ⟨f, path, rfl, hc⟩ := hat l hl
      obtain ⟨d, hd⟩ := hc.exists_container
      obtain ⟨form, hform, hroot⟩ := containerAt_eq_ok.1 hd
      refine ⟨f, path, form, d, rfl, hl, ofLookup_eq_ok.1 hform, hroot, ?_, ?_⟩
      · rw [Context.currentForm, hc.form]
      · rw [Context.currentContainer, hc.container]

theorem flatten_of_container {parts : List Script} {s₁ s₂ s₃ : Text}
    (h : List.Forall₂ Placed
      [.tag (.opening .form ['a'] false) s₁, .tag (.opening .formContainer ['b'] true) s₂,
        .tag (.closing .form) s₃] parts) :
    parts.flatten =
      [.beginForm (.literal ['a']) [], .enterContainer (.literal ['b'])] ++
        [.leaveContainer, .endForm] := by
  have ha : ∀ hasBody, Directive.form.openingStep? ['a'] hasBody =
      some (.beginForm (.literal ['a']) []) := by decide +kernel
  have hb : ∀ hasBody, Directive.formContainer.openingStep? ['b'] hasBody =
      some (.enterContainer (.literal ['b'])) := by decide +kernel
  obtain _ | ⟨h₁, _ | ⟨h₂, _ | ⟨h₃, ⟨⟩⟩⟩⟩ := h
  cases h₁ with
  | opening hasBody hstep =>
    cases (ha hasBody).symm.trans hstep
    cases h₂ with
    | opening hasBody hstep =>
      cases (hb hasBody).symm.trans hstep
      cases h₃
      rfl

/-- A form with a container. -/
def holdingForm : Form where
  root := (Container.root ['a']).insert ((Container.root ['a']).newContainer ['b']).toComponent
  element := (Form.create ['a']).element

/-- A container in a form makes one block, and inside of it the page is at the
container in the form. -/
theorem compile_keeps_in_step_of_container :
    ∃ p parts s t b q,
      compile {} "\x7bform a\x7d\x7bformContainer b /\x7d\x7b/form\x7d".toList = .ok p ∧
      Program.blocks p = [.opening (), .closing ()] ∧
      InStep {} "\x7bform a\x7d\x7bformContainer b /\x7d\x7b/form\x7d".toList p parts ∧
      s = [.beginForm (.literal ['a']) [], .enterContainer (.literal ['b'])] ∧
      parts.flatten = s ++ t ∧ Page.run .none { registry := [holdingForm] } s = .ok q ∧
      Script.bindings s {} = .ok b ∧ b.current.form = some (.literal ['a']) ∧
      q.scope.context.currentForm = .ok ['a'] ∧
      q.scope.context.currentContainer = .ok ⟨['a'], [['b']]⟩ := by
  have hblocks :
      (compile {} "\x7bform a\x7d\x7bformContainer b /\x7d\x7b/form\x7d".toList).toOption.map
        Program.blocks = some [.opening (), .closing ()] := by
    rw [Text.toList_eq (by rfl)]
    decide +kernel
  have hpieces :
      Piece.ofText "n:".toList "\x7bform a\x7d\x7bformContainer b /\x7d\x7b/form\x7d".toList =
        [.tag (.opening .form ['a'] false) "\x7bform a\x7d".toList,
          .tag (.opening .formContainer ['b'] true) "\x7bformContainer b /\x7d".toList,
          .tag (.closing .form) "\x7b/form\x7d".toList] := by
    repeat rw [Text.toList_eq (by rfl)]
    decide +kernel
  have hisOk : (Page.run .none { registry := [holdingForm] }
      [.beginForm (.literal ['a']) [], .enterContainer (.literal ['b'])]).isOk = true := by
    decide +kernel
  obtain ⟨p, hp, hblocks⟩ := Option.map_eq_some_iff.1 hblocks
  cases hok : compile {} "\x7bform a\x7d\x7bformContainer b /\x7d\x7b/form\x7d".toList with
  | error e => rw [hok] at hp; cases hp
  | ok p' =>
    rw [hok] at hp
    cases hp
    obtain ⟨parts, hparts⟩ := compile_keeps_in_step hok
    have hflatten := flatten_of_container (hpieces ▸ hparts.placed)
    cases hrun : Page.run .none { registry := [holdingForm] }
        [.beginForm (.literal ['a']) [], .enterContainer (.literal ['b'])] with
    | error e => rw [hrun] at hisOk; cases hisOk
    | ok q =>
      obtain ⟨b, hb, hbound, -, hcontext⟩ :=
        hparts.context (by rw [hflatten]; decide) .none _ _ _ q hflatten hrun
      have hform : b.current.form = some (.literal ['a']) := hbound.trans (by decide)
      obtain ⟨f, path, form, container, hf, hlocus, -, -, hcurrent, hcontainer⟩ :=
        hcontext _ hform
      cases hf
      have hpath : [Word.literal ['b']] = path.map .literal :=
        congrArg Locus.containers (Option.some.inj hlocus)
      obtain ⟨name, rfl, hname⟩ := List.map_eq_singleton_iff.1 hpath.symm
      cases hname
      exact ⟨p, parts, _, _, b, q, rfl, hblocks, hparts, rfl, hflatten, hrun, hb, hform,
        hcurrent, hcontainer⟩

end Render

end FormTemplate
