import FormTemplate.Proofs.Form.Marking
import FormTemplate.Proofs.Template.Statement

/-!
# Running the generated code

A statement of the generated code is a call of the rendering library, a
local variable, or a block. `Statement.run` runs one on a `Page`: the
registry, the variables in scope, the scopes that the end of each block
brings back, and what has been printed. What the expressions of a template
evaluate to is not the library's affair, so it is a parameter, `Evaluation`.
Each step that begins or ends a form or a container has a lemma that says
all it does to the context (`step_beginForm` to `step_leaveContainer`), and
one lemma says that the others do nothing to it (`quiet_of_step`); later
proofs look at no statement again.
-/

namespace FormTemplate

namespace Render

open Form Markup Template

/-! ## Pages -/

/-- The variables of the generated code. -/
structure Scope where
  /-- The context, `ctx`. -/
  context : Context := {}
  /-- The name of the form that is `form`. -/
  form : Option Text := none
  /-- The place of the container that is `form_container`. -/
  container : Option Place := none
  /-- The place of the control that is `input`. -/
  input : Option Place := none

/-- A call that begins or ends a form. -/
inductive FormCall where
  /-- Begins the form of a name, so many blocks deep. -/
  | begins (form : Text) (depth : Nat)
  /-- Ends the form of a name. -/
  | ends (form : Text)
deriving Repr, DecidableEq

/-- A page that is being rendered. -/
structure Page where
  /-- The forms. -/
  registry : Registry
  /-- The variables in scope. -/
  scope : Scope := {}
  /-- The variables that the ends of the open blocks bring back, those of the
  innermost first. -/
  outer : List Scope := []
  /-- What has been printed. -/
  out : Text := []
  /-- The forms begun and ended so far. -/
  calls : List FormCall := []

/-- Why a statement does not run. -/
inductive Failure where
  /-- A call of the library fails. -/
  | render (error : RenderError)
  /-- An expression has no value. -/
  | expression
  /-- A variable is not bound, or a block ends that did not begin. -/
  | unbound
deriving Repr, DecidableEq

/-- **What the expressions of a template evaluate to**, where they stand. -/
structure Evaluation where
  /-- A form, container or control, or the name of one. -/
  target : Text → Page → Except Failure Target
  /-- A part of a control. -/
  part : Text → Page → Except Failure Text
  /-- The value of an attribute. -/
  value : Text → Page → Except Failure AttributeValue

/-! ## Values -/

/-- The result of a call of the library. -/
def call {α : Type} : Found α → Except Failure α
  | .ok a => .ok a
  | .error e => .error (.render e)

/-- The value of a variable. -/
def bound {α : Type} : Option α → Except Failure α
  | some a => .ok a
  | none => .error .unbound

namespace Evaluation

variable (eval : Evaluation) (p : Page)

/-- What a word that names a component stands for. -/
def targetOf : Word → Except Failure Target
  | .literal name => .ok (.named name)
  | .expression e => eval.target e p

/-- A part of a control. -/
def partOf : Word → Except Failure Text
  | .literal s => .ok s
  | .expression e => eval.part e p

/-- What an attribute is set to. -/
def assignment : Assignment → Except Failure (Option AttributeValue)
  | .value (.literal s) => .ok (some (.text s))
  | .value (.expression e) => do return some (← eval.value e p)
  | .flag => .ok (some (.flag true))
  | .absent => .ok none

/-- The attributes to be merged. -/
def merge (as : AttributeList) : Except Failure Merge :=
  as.mapM fun a => do return (a.1, ← eval.assignment p a.2)

/-- No expression has a value. -/
def none : Evaluation where
  target := fun _ _ => .error .expression
  part := fun _ _ => .error .expression
  value := fun _ _ => .error .expression

end Evaluation

namespace Page

/-- The page with another context. -/
def withContext (p : Page) (c : Context) : Page := { p with scope.context := c }

/-- The page with more printed. -/
def print (p : Page) (s : Text) : Page := { p with out := p.out ++ s }

/-- The place of the control that a statement is about. -/
def controlPlace (p : Page) : ControlSource → Except Failure Place
  | .key k => call (p.scope.context.controlNamed p.registry k)
  | .bound => call p.scope.context.currentInput

/-- The page with the control at a place shown. -/
def mark (p : Page) (place : Place) : Page :=
  { p with registry := markAt place true p.registry }

/-- **Runs a statement.** -/
def exec (eval : Evaluation) (p : Page) : Statement → Except Failure Page
  | .print s => .ok (p.print s)
  | .letForm name => do
    let form ← call (Context.resolveForm p.registry (← eval.targetOf p name))
    return { p with scope.form := some form }
  | .enterForm => do
    return p.withContext (p.scope.context.enterForm (← bound p.scope.form))
  | .beginForm as => do
    let name ← bound p.scope.form
    let form ← call (formNamed p.registry name)
    let p := p.print (form.renderBegin (← eval.merge p as))
    return { p with calls := p.calls ++ [.begins name p.outer.length] }
  | .endForm => do
    let name ← call p.scope.context.currentForm
    let form ← call (formNamed p.registry name)
    let p := p.print form.renderEnd
    return { p with
      registry := p.registry.modify name Form.afterEnd
      calls := p.calls ++ [.ends name] }
  | .openBlock => .ok { p with outer := p.scope :: p.outer }
  | .closeBlock =>
    match p.outer with
    | [] => .error .unbound
    | scope :: outer => .ok { p with scope, outer }
  | .letContainer name => do
    let place ← call
      (p.scope.context.resolveContainer p.registry (← eval.targetOf p name))
    return { p with scope.container := some place }
  | .enterContainer => do
    return p.withContext (p.scope.context.enterContainer (← bound p.scope.container))
  | .letInput e => do
    let place ← call (p.scope.context.resolveControl p.registry (← eval.target e p))
    return { p with scope.input := some place }
  | .withInput => do
    return p.withContext (p.scope.context.withInput (← bound p.scope.input))
  | .withLabel k => do
    let place ← p.controlPlace (.key k)
    let control ← call (controlAt p.registry place)
    return p.withContext (p.scope.context.withLabel (control.label none))
  | .withInputAndLabel => do
    let place ← bound p.scope.input
    let control ← call (controlAt p.registry place)
    return p.withContext ((p.scope.context.withInput place).withLabel (control.label none))
  | .printLabel as whole =>
    match p.scope.context.label with
    | none => .ok p
    | some label => do
      let label := label.merge (← eval.merge p as)
      return p.print (if whole then label.source else label.startTag)
  | .printControl source parts as => do
    let place ← p.controlPlace source
    let control ← call (controlAt p.registry place)
    let element := control.render (← parts.mapM (eval.partOf p))
    let p := p.mark place
    return p.print (element.merge (← eval.merge p as)).source
  | .printAttributes source ofLabel parts as => do
    let place ← p.controlPlace source
    let control ← call (controlAt p.registry place)
    let parts ← parts.mapM (eval.partOf p)
    let element := if ofLabel then control.labelOf parts else control.render parts
    let p := if ofLabel then p else p.mark place
    return p.print (element.merge (← eval.merge p as)).attributes.source

/-- Runs the statements of a step. -/
def step (eval : Evaluation) (p : Page) (s : Step) : Except Failure Page :=
  s.statements.foldlM (exec eval) p

/-- **Runs the steps of a template.** -/
def run (eval : Evaluation) (p : Page) (s : Script) : Except Failure Page :=
  s.foldlM (step eval) p

variable {eval : Evaluation} {p q : Page} {s t : Script}

/-- What comes of one computation after another. -/
theorem exists_of_bind {α β : Type} {x : Except Failure α} {f : α → Except Failure β} {b : β}
    (h : x >>= f = .ok b) : ∃ a, x = .ok a ∧ f a = .ok b := by
  cases x with
  | error e => cases h
  | ok a => exact ⟨a, rfl, h⟩

theorem ok_of_call {α : Type} {x : Found α} {a : α} (h : call x = .ok a) : x = .ok a := by
  cases x with
  | error e => cases h
  | ok b => cases h; rfl

/-- **A run is cut at any place.** -/
theorem run_append : p.run eval (s ++ t) = .ok q ↔
    ∃ r, p.run eval s = .ok r ∧ r.run eval t = .ok q := by
  rw [run, List.foldlM_append]
  constructor
  · exact exists_of_bind
  · rintro ⟨r, hr, hq⟩
    rw [run] at hr
    rw [hr]
    exact hq

theorem run_cons {x : Step} : p.run eval (x :: s) = .ok q ↔
    ∃ r, p.step eval x = .ok r ∧ r.run eval s = .ok q := by
  rw [run, List.foldlM_cons]
  constructor
  · exact exists_of_bind
  · rintro ⟨r, hr, hq⟩
    rw [hr]
    exact hq

theorem run_singleton {x : Step} : p.run eval [x] = p.step eval x := by
  rw [run, List.foldlM_cons]
  cases p.step eval x <;> rfl

/-! ## What a statement leaves as it was -/

/-- **Two pages with the same forms and containers in effect**: same
blocks, same calls, and registries alike but for marks. -/
structure Quiet (p q : Page) : Prop where
  /-- The form in effect. -/
  form : q.scope.context.form = p.scope.context.form
  /-- The container in effect. -/
  container : q.scope.context.container = p.scope.context.container
  /-- The open blocks. -/
  outer : q.outer = p.outer
  /-- The forms begun and ended. -/
  calls : q.calls = p.calls
  /-- The registry. -/
  registry : q.registry.unmarked = p.registry.unmarked

theorem Quiet.refl (p : Page) : Quiet p p := ⟨rfl, rfl, rfl, rfl, rfl⟩

theorem Quiet.trans {r : Page} (h : Quiet p q) (h' : Quiet q r) : Quiet p r where
  form := h'.form.trans h.form
  container := h'.container.trans h.container
  outer := h'.outer.trans h.outer
  calls := h'.calls.trans h.calls
  registry := h'.registry.trans h.registry

theorem quiet_print (p : Page) (s : Text) : Quiet p (p.print s) := ⟨rfl, rfl, rfl, rfl, rfl⟩

theorem quiet_mark (p : Page) (place : Place) : Quiet p (p.mark place) :=
  ⟨rfl, rfl, rfl, rfl, unmarked_markAt place true p.registry⟩

/-- Statements that begin and end no form and no block, and bind neither
form nor container. -/
def isQuiet : Statement → Bool
  | .enterForm | .beginForm _ | .endForm | .openBlock | .closeBlock | .enterContainer => false
  | _ => true

/-- **Such a statement leaves form and container alone.** -/
theorem quiet_of_exec {x : Statement} (hx : isQuiet x = true) (h : p.exec eval x = .ok q) :
    Quiet p q := by
  -- Variables and the output may change, and showing a control marks it.
  cases x with
  | enterForm | beginForm | endForm | openBlock | closeBlock | enterContainer => cases hx
  | print s => cases h; exact quiet_print p s
  | letForm name =>
    obtain ⟨t, -, h⟩ := exists_of_bind h
    obtain ⟨f, -, h⟩ := exists_of_bind h
    cases h; exact ⟨rfl, rfl, rfl, rfl, rfl⟩
  | letContainer name =>
    obtain ⟨t, -, h⟩ := exists_of_bind h
    obtain ⟨f, -, h⟩ := exists_of_bind h
    cases h; exact ⟨rfl, rfl, rfl, rfl, rfl⟩
  | letInput e =>
    obtain ⟨t, -, h⟩ := exists_of_bind h
    obtain ⟨f, -, h⟩ := exists_of_bind h
    cases h; exact ⟨rfl, rfl, rfl, rfl, rfl⟩
  | withInput =>
    obtain ⟨place, -, h⟩ := exists_of_bind h
    cases h; exact ⟨rfl, rfl, rfl, rfl, rfl⟩
  | withLabel k =>
    obtain ⟨place, -, h⟩ := exists_of_bind h
    obtain ⟨control, -, h⟩ := exists_of_bind h
    cases h; exact ⟨rfl, rfl, rfl, rfl, rfl⟩
  | withInputAndLabel =>
    obtain ⟨place, -, h⟩ := exists_of_bind h
    obtain ⟨control, -, h⟩ := exists_of_bind h
    cases h; exact ⟨rfl, rfl, rfl, rfl, rfl⟩
  | printLabel as whole =>
    rw [exec] at h
    split at h
    · cases h; exact .refl _
    · obtain ⟨m, -, h⟩ := exists_of_bind h
      cases h; exact quiet_print p _
  | printControl source parts as =>
    obtain ⟨place, -, h⟩ := exists_of_bind h
    obtain ⟨control, -, h⟩ := exists_of_bind h
    obtain ⟨texts, -, h⟩ := exists_of_bind h
    obtain ⟨m, -, h⟩ := exists_of_bind h
    cases h; exact (quiet_mark p place).trans (quiet_print _ _)
  | printAttributes source ofLabel parts as =>
    obtain ⟨place, -, h⟩ := exists_of_bind h
    obtain ⟨control, -, h⟩ := exists_of_bind h
    obtain ⟨texts, -, h⟩ := exists_of_bind h
    obtain ⟨m, -, h⟩ := exists_of_bind h
    cases h
    cases ofLabel with
    | true => exact quiet_print p _
    | false => exact (quiet_mark p place).trans (quiet_print _ _)

theorem quiet_of_foldlM {l : List Statement} (hl : ∀ x ∈ l, isQuiet x = true)
    (h : l.foldlM (exec eval) p = .ok q) : Quiet p q := by
  induction l generalizing p with
  | nil => cases h; exact .refl _
  | cons x l ih =>
    rw [List.foldlM_cons] at h
    obtain ⟨r, hr, h⟩ := exists_of_bind h
    exact (quiet_of_exec (hl x (by simp)) hr).trans (ih (fun y hy => hl y (by simp [hy])) h)

/-! ## What a step does to the context -/

/-- Steps that begin and end neither a form nor a container. -/
def isQuietStep : Step → Bool
  | .beginForm .. | .endForm | .enterContainer _ | .leaveContainer => false
  | _ => true

/-- **Such a step leaves form and container alone.** -/
theorem quiet_of_step {x : Step} (hx : isQuietStep x = true) (h : p.step eval x = .ok q) :
    Quiet p q := by
  refine quiet_of_foldlM (fun y hy => ?_) h
  cases x with
  | beginForm | endForm | enterContainer | leaveContainer => cases hx
  | text s | endLabel =>
    simp only [Step.statements, List.mem_singleton] at hy
    subst hy
    rfl
  | label name as whole =>
    cases name <;>
    · simp only [Step.statements, List.mem_cons, List.not_mem_nil, or_false] at hy
      rcases hy with rfl | rfl | rfl <;> rfl
  | input name parts as =>
    cases name <;>
    · simp only [Step.statements, Step.withControl, List.mem_cons, List.not_mem_nil,
        or_false] at hy
      rcases hy with rfl | rfl | rfl <;> rfl
  | attributes ofLabel name parts written =>
    cases name <;>
    · simp only [Step.statements, Step.withControl, List.mem_cons, List.not_mem_nil,
        or_false] at hy
      rcases hy with rfl | rfl | rfl <;> rfl

/-- **The beginning of a form** binds the form that its name stands for. -/
theorem step_beginForm {name : Word} {as : AttributeList}
    (h : p.step eval (.beginForm name as) = .ok q) :
    ∃ t f form, eval.targetOf p name = .ok t ∧ Context.resolveForm p.registry t = .ok f ∧
      formNamed p.registry f = .ok form ∧ q.scope.context = p.scope.context.enterForm f ∧
      q.outer = p.outer ∧ q.registry = p.registry ∧
      q.calls = p.calls ++ [.begins f p.outer.length] := by
  obtain ⟨r, hlet, h⟩ := exists_of_bind h
  obtain ⟨t, ht, hlet⟩ := exists_of_bind hlet
  obtain ⟨f, hf, hlet⟩ := exists_of_bind hlet
  cases hlet
  obtain ⟨r, henter, h⟩ := exists_of_bind h
  cases henter
  obtain ⟨r, hbegin, h⟩ := exists_of_bind h
  cases h
  obtain ⟨n, hn, hbegin⟩ := exists_of_bind hbegin
  cases hn
  obtain ⟨form, hform, hbegin⟩ := exists_of_bind hbegin
  obtain ⟨m, -, hbegin⟩ := exists_of_bind hbegin
  cases hbegin
  exact ⟨t, f, form, ht, ok_of_call hf, ok_of_call hform, rfl, rfl, rfl, rfl⟩

/-- **The end of a form** ends the form in effect. -/
theorem step_endForm (h : p.step eval .endForm = .ok q) :
    ∃ f form, p.scope.context.form = some f ∧ formNamed p.registry f = .ok form ∧
      q.scope = p.scope ∧ q.outer = p.outer ∧
      q.registry = p.registry.modify f Form.afterEnd ∧ q.calls = p.calls ++ [.ends f] := by
  obtain ⟨r, hend, h⟩ := exists_of_bind h
  cases h
  obtain ⟨f, hf, hend⟩ := exists_of_bind hend
  obtain ⟨form, hform, hend⟩ := exists_of_bind hend
  cases hend
  refine ⟨f, form, ?_, ok_of_call hform, rfl, rfl, rfl, rfl⟩
  have hcurrent := ok_of_call hf
  rw [Context.currentForm] at hcurrent
  split at hcurrent
  · next heq => cases hcurrent; exact heq
  · cases hcurrent

/-- **The beginning of a container** opens a block and binds the container
in it. -/
theorem step_enterContainer {name : Word} (h : p.step eval (.enterContainer name) = .ok q) :
    ∃ place, (∀ k, name = .literal k →
        p.scope.context.containerNamed p.registry k = .ok place) ∧
      q.scope.context = p.scope.context.enterContainer place ∧
      q.outer = p.scope :: p.outer ∧ q.registry = p.registry ∧ q.calls = p.calls := by
  obtain ⟨r, hopen, h⟩ := exists_of_bind h
  cases hopen
  obtain ⟨r, hlet, h⟩ := exists_of_bind h
  obtain ⟨t, ht, hlet⟩ := exists_of_bind hlet
  obtain ⟨place, hplace, hlet⟩ := exists_of_bind hlet
  cases hlet
  obtain ⟨r, henter, h⟩ := exists_of_bind h
  cases henter
  cases h
  refine ⟨place, ?_, rfl, rfl, rfl, rfl⟩
  rintro k rfl
  cases ht
  exact ok_of_call hplace

/-- **The end of a container** brings back what was in scope before the
block. -/
theorem step_leaveContainer (h : p.step eval .leaveContainer = .ok q) :
    ∃ scope outer, p.outer = scope :: outer ∧ q = { p with scope, outer } := by
  obtain ⟨r, hclose, h⟩ := exists_of_bind h
  cases h
  rw [exec] at hclose
  split at hclose
  · cases hclose
  · next scope outer heq => cases hclose; exact ⟨scope, outer, heq, rfl⟩

end Page

end Render

end FormTemplate
