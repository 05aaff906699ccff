import FormTemplate.Proofs.Template.Generation
import Mathlib.Data.List.Infix

/-!
# Saved bindings

A template changes its bindings in three ways: a form is bound, a container
is entered, and the innermost container is left. `BindingStack.perform` is
one such change together with its answer, and a change that is refused
leaves the stack alone. What a run does to the stack is counted: the depth
is what was entered less what was left (`depth_performAll`), and what lies
below the containers that a run enters itself is not touched
(`exists_saved_performAll`). So leaving a container brings back the stack
from before it was entered, whatever was bound in between.
-/

namespace FormTemplate

namespace Template

open GenerateM

/-- A change to the bindings. -/
inductive BindingChange where
  /-- Binds a form. -/
  | bindForm (form : Word)
  /-- Enters a container. -/
  | enter (container : Word)
  /-- Leaves the innermost container. -/
  | leave
deriving Repr, DecidableEq

namespace BindingChange

variable {c : BindingChange} {cs : List BindingChange}

/-- Whether a container is entered. -/
def isEnter : BindingChange → Bool
  | enter _ => true
  | bindForm _ | leave => false

/-- How many containers some changes enter. -/
def entered (cs : List BindingChange) : Nat := cs.countP isEnter

@[simp] theorem entered_nil : entered [] = 0 := rfl

@[simp] theorem entered_cons : entered (c :: cs) = entered cs + c.isEnter.toNat := by
  unfold entered
  rw [List.countP_cons]
  cases c.isEnter <;> rfl

/-- **Changes that leave the containers they enter**: no beginning of them
leaves more containers than it enters, and all of them leave as many. -/
structure Paired (cs : List BindingChange) : Prop where
  /-- At no point more are left than were entered. -/
  count_le : ∀ front, front <+: cs → front.count leave ≤ entered front
  /-- In the end as many. -/
  count_eq : cs.count leave = entered cs

end BindingChange

namespace BindingStack

open BindingChange

variable {c : BindingChange} {cs cs' : List BindingChange} {s : BindingStack}
variable {top bottom : List Binding}

/-! ## Changes and runs of them -/

/-- **What a change answers, and the stack after it.** -/
def perform (s : BindingStack) : BindingChange → Except CompileError Unit × BindingStack
  | .bindForm form => (.ok (), s.bindForm form)
  | .enter container => (.ok (), s.enter container)
  | .leave =>
    match s.leave with
    | .ok s => (.ok (), s)
    | .error e => (.error e, s)

/-- The stack after some changes, the refused ones among them. -/
def performAll (s : BindingStack) (cs : List BindingChange) : BindingStack :=
  cs.foldl (fun s c => (s.perform c).2) s

/-- What some changes answer, in order. -/
def answers (s : BindingStack) : List BindingChange → List (Except CompileError Unit)
  | [] => []
  | c :: cs => (s.perform c).1 :: answers (s.perform c).2 cs

/-- How many containers some changes leave, which is not counted where it is
refused. -/
def left (s : BindingStack) (cs : List BindingChange) : Nat :=
  (cs.zip (s.answers cs)).countP fun p => p.1 = .leave && p.2.isOk

@[simp] theorem performAll_nil : s.performAll [] = s := rfl

@[simp] theorem performAll_cons : s.performAll (c :: cs) = (s.perform c).2.performAll cs := rfl

@[simp] theorem performAll_append :
    s.performAll (cs ++ cs') = (s.performAll cs).performAll cs' := List.foldl_append

@[simp] theorem answers_append :
    s.answers (cs ++ cs') = s.answers cs ++ (s.performAll cs).answers cs' := by
  induction cs generalizing s with
  | nil => rfl
  | cons c cs ih => simp only [List.cons_append, answers, ih, performAll_cons]

@[simp] theorem left_nil : s.left [] = 0 := rfl

@[simp] theorem left_cons :
    s.left (c :: cs) =
      (s.perform c).2.left cs + (decide (c = .leave) && (s.perform c).1.isOk).toNat := by
  unfold left
  rw [answers, List.zip_cons_cons, List.countP_cons]
  cases decide (c = .leave) && (s.perform c).1.isOk <;> rfl

/-- Nothing is left where nothing is saved, and the stack stays as it is. -/
theorem perform_leave_of_nil (h : s.saved = []) :
    s.perform .leave = (.error (.internal .containerUnderflow), s) := by
  unfold perform leave
  rw [h]

/-- What was saved last is in effect again. -/
theorem perform_leave_of_cons {binding : Binding} (h : s.saved = binding :: bottom) :
    s.perform .leave = (.ok (), { current := binding, saved := bottom }) := by
  unfold perform leave
  rw [h]

/-- The closing tag of a container performs the change, and writes its code
only if it is not refused. -/
theorem generateClosing_run_eq (w : Work) :
    ContainerDirective.generateClosing.run w =
      match w.bindings.perform .leave with
      | (.ok (), b) => (.ok (), {
          occurrence := { w.occurrence with closing := ContainerDirective.closing }
          bindings := b })
      | (.error e, b) => (.error e, { w with bindings := b }) := by
  rw [ContainerDirective.generateClosing, run_bind_ok (run_get w)]
  unfold perform
  cases w.bindings.leave <;> rfl

/-! ## What a run keeps -/

/-- **The depth is counted**: each container entered adds one, and each left
takes one away. -/
theorem depth_performAll (s : BindingStack) (cs : List BindingChange) :
    (s.performAll cs).depth + s.left cs = s.depth + entered cs := by
  induction cs generalizing s with
  | nil => rfl
  | cons c cs ih =>
    have hrest := ih (s.perform c).2
    rw [performAll_cons, left_cons, entered_cons]
    cases c with
    | bindForm form =>
      have hdepth : (s.perform (.bindForm form)).2.depth = s.depth := rfl
      simp only [isEnter, reduceCtorEq, decide_false, Bool.false_and, Bool.toNat_false]
      omega
    | enter container =>
      have hdepth : (s.perform (.enter container)).2.depth = s.depth + 1 := rfl
      simp only [isEnter, reduceCtorEq, decide_false, Bool.false_and, Bool.toNat_false,
        Bool.toNat_true]
      omega
    | leave =>
      cases hsaved : s.saved with
      | nil =>
        rw [perform_leave_of_nil hsaved] at hrest ⊢
        simp only [isEnter, Except.isOk, Except.toBool, Bool.and_false, Bool.toNat_false]
        omega
      | cons binding bottom =>
        have hdepth : s.depth = bottom.length + 1 := by rw [depth, hsaved, List.length_cons]
        have hbottom : ({ current := binding, saved := bottom } : BindingStack).depth =
            bottom.length := rfl
        rw [perform_leave_of_cons hsaved] at hrest ⊢
        simp only [isEnter, Except.isOk, Except.toBool, decide_true, Bool.and_true, Bool.toNat_true,
          Bool.toNat_false] at hrest ⊢
        omega

/-- **What lies below is not touched.** A run that never leaves more
containers than it has entered, and the `top` ones before it, is not refused
anything and keeps what was saved below those. -/
theorem exists_saved_performAll (hsaved : s.saved = top ++ bottom)
    (hcount : ∀ front, front <+: cs → front.count .leave ≤ top.length + entered front) :
    (∀ answer ∈ s.answers cs, answer = .ok ()) ∧
      ∃ top', (s.performAll cs).saved = top' ++ bottom ∧
        top'.length + cs.count .leave = top.length + entered cs := by
  induction cs generalizing s top with
  | nil => exact ⟨nofun, top, hsaved, rfl⟩
  | cons c cs ih =>
    have hfront : ∀ front, front <+: cs →
        (c :: front).count .leave ≤ top.length + entered (c :: front) := fun front hprefix =>
      hcount (c :: front) ((List.prefix_cons_inj c).2 hprefix)
    cases c with
    | bindForm form =>
      have hkept : (s.perform (.bindForm form)).2.saved = top ++ bottom := hsaved
      obtain ⟨hanswers, top', hrest, hlength⟩ := ih hkept fun front hprefix => by
        have := hfront front hprefix
        simpa [isEnter] using this
      refine ⟨?_, top', hrest, by simpa [isEnter] using hlength⟩
      rw [answers, List.forall_mem_cons]
      exact ⟨rfl, hanswers⟩
    | enter container =>
      have hpushed : (s.perform (.enter container)).2.saved = (s.current :: top) ++ bottom := by
        rw [List.cons_append, ← hsaved]
        rfl
      obtain ⟨hanswers, top', hrest, hlength⟩ := ih hpushed fun front hprefix => by
        have := hfront front hprefix
        simp only [isEnter, entered_cons, Bool.toNat_true, List.length_cons, List.count_cons,
          beq_iff_eq, reduceCtorEq, if_false] at this ⊢
        omega
      refine ⟨?_, top', hrest, ?_⟩
      · rw [answers, List.forall_mem_cons]
        exact ⟨rfl, hanswers⟩
      · simp only [isEnter, entered_cons, Bool.toNat_true, List.length_cons, List.count_cons,
          beq_iff_eq, reduceCtorEq, if_false] at hlength ⊢
        omega
    | leave =>
      -- The first change already leaves a container, so one of the top ones is there.
      cases top with
      | nil =>
        have := hfront [] (List.nil_prefix)
        simp [isEnter] at this
      | cons binding top =>
        rw [performAll_cons, answers, perform_leave_of_cons hsaved]
        obtain ⟨hanswers, top', hrest, hlength⟩ :=
          ih (s := { current := binding, saved := top ++ bottom }) rfl fun front hprefix => by
            have := hfront front hprefix
            simp only [isEnter, entered_cons, Bool.toNat_false, List.length_cons,
              List.count_cons_self] at this
            omega
        refine ⟨?_, top', hrest, ?_⟩
        · rw [List.forall_mem_cons]
          exact ⟨rfl, hanswers⟩
        · simp only [isEnter, entered_cons, Bool.toNat_false, List.length_cons,
            List.count_cons_self] at hlength ⊢
          omega

/-- **Entering a container and leaving it again restores the stack**, when
what happens in between leaves the containers it enters. -/
theorem performAll_enter_leave (s : BindingStack) (container : Word) (h : Paired cs) :
    s.performAll (.enter container :: cs ++ [.leave]) = s ∧
      ∀ answer ∈ s.answers (.enter container :: cs ++ [.leave]), answer = .ok () := by
  have hpushed : (s.enter container).saved = [] ++ (s.current :: s.saved) := rfl
  have hfront : ∀ front, front <+: cs →
      front.count .leave ≤ ([] : List Binding).length + entered front := by
    intro front hprefix
    rw [List.length_nil, Nat.zero_add]
    exact h.count_le front hprefix
  obtain ⟨hanswers, top, hsaved, hlength⟩ := exists_saved_performAll hpushed hfront
  have hcount := h.count_eq
  have htop : top = [] := by
    rw [List.length_nil] at hlength
    exact List.length_eq_zero_iff.1 (by omega)
  rw [htop, List.nil_append] at hsaved
  have hleave := perform_leave_of_cons hsaved
  constructor
  · have hrun : s.performAll (.enter container :: cs ++ [.leave]) =
        (((s.enter container).performAll cs).perform .leave).2 := by
      rw [performAll_append]
      rfl
    rw [hrun, hleave]
  · intro answer hanswer
    rw [answers_append, List.mem_append, answers, answers, answers, List.mem_cons,
      List.mem_singleton] at hanswer
    rcases hanswer with (rfl | hinner) | rfl
    · rfl
    · exact hanswers answer hinner
    · rw [performAll_cons]
      exact congrArg Prod.fst hleave

/-- After any run from the start, nothing is saved exactly when everything
entered has been left. -/
theorem saved_performAll_eq_nil_iff (cs : List BindingChange) :
    (({} : BindingStack).performAll cs).saved = [] ↔ entered cs = left {} cs := by
  have hdepth := depth_performAll {} cs
  have hempty : ({} : BindingStack).depth = 0 := rfl
  rw [← List.length_eq_zero_iff, ← depth]
  omega

/-- **A container gives back the bindings that it found.** Entering a
container, any changes that leave the containers they enter, and leaving it
give back the stack, whatever forms are bound in between, and nothing of it is
refused. In any run at all a container is left unless all that were entered
have been left; a change that is refused changes nothing, neither the stack
nor, at the closing tag of a container, anything else; and the run may end
when as many have been left as were entered. -/
theorem enter_leave_restores :
    (∀ (s : BindingStack) (container : Word) (cs : List BindingChange), Paired cs →
      s.performAll (.enter container :: cs ++ [.leave]) = s ∧
        ∀ answer ∈ s.answers (.enter container :: cs ++ [.leave]), answer = .ok ()) ∧
    (∀ cs : List BindingChange,
      let s := ({} : BindingStack).performAll cs
      s.depth + left {} cs = entered cs ∧
      ((s.perform .leave).1 = .error (.internal .containerUnderflow) ↔
        entered cs = left {} cs) ∧
      ((s.perform .leave).1 = .ok () ↔ entered cs ≠ left {} cs) ∧
      (s.finish = .ok () ↔ entered cs = left {} cs)) ∧
    (∀ (s : BindingStack) (c : BindingChange) (e : CompileError),
      (s.perform c).1 = .error e → c = .leave ∧ (s.perform c).2 = s) ∧
    ∀ w : Work, (∃ e, (w.bindings.perform .leave).1 = .error e) →
      ContainerDirective.generateClosing.run w = (.error (.internal .containerUnderflow), w) := by
  refine ⟨fun s container cs h => performAll_enter_leave s container h, fun cs => ?_, ?_, ?_⟩
  · have hiff := saved_performAll_eq_nil_iff cs
    have hdepth := depth_performAll {} cs
    have hempty : ({} : BindingStack).depth = 0 := rfl
    rw [hempty, Nat.zero_add] at hdepth
    refine ⟨hdepth, ?_⟩
    cases hsaved : (({} : BindingStack).performAll cs).saved with
    | nil =>
      have heq := hiff.1 hsaved
      rw [perform_leave_of_nil hsaved, finish, hsaved]
      simp [heq]
    | cons binding bottom =>
      have hne : entered cs ≠ left {} cs := fun heq => by
        rw [hiff.2 heq] at hsaved
        cases hsaved
      rw [perform_leave_of_cons hsaved, finish, hsaved]
      simp [hne]
  · intro s c e h
    cases c with
    | bindForm form => cases h
    | enter container => cases h
    | leave =>
      cases hsaved : s.saved with
      | nil => exact ⟨rfl, by rw [perform_leave_of_nil hsaved]⟩
      | cons binding bottom =>
        rw [perform_leave_of_cons hsaved] at h
        cases h
  · rintro w ⟨e, h⟩
    rw [generateClosing_run_eq]
    cases hsaved : w.bindings.saved with
    | nil => rw [perform_leave_of_nil hsaved]
    | cons binding bottom =>
      rw [perform_leave_of_cons hsaved] at h
      cases h

/-- A stack in which a form is bound inside a container. -/
def stackInContainer : BindingStack where
  current := { form := some (.literal ['f']), container := some (.literal ['c']) }
  saved := [{ form := some (.literal ['f']) }]

/-- Forms bound inside, around and behind another container. -/
def changesInside : List BindingChange :=
  [.bindForm (.literal ['g']), .enter (.expression ['d']), .bindForm (.literal ['h']), .leave,
    .bindForm (.literal ['i'])]

/-- The stack comes back; a closing tag too many, before or after, is refused. -/
theorem enter_leave_restores_of_forms :
    stackInContainer.performAll
        (.enter (.literal ['b']) :: changesInside ++ [.leave]) = stackInContainer ∧
    ((({} : BindingStack).performAll (.leave :: changesInside)).perform .leave).1 =
      .error (.internal .containerUnderflow) ∧
    (({} : BindingStack).performAll (.leave :: changesInside)).finish = .ok () ∧
    (({} : BindingStack).perform .leave).2 = {} ∧
    ContainerDirective.generateClosing.run
        ⟨{ name := "formContainer".toList, arguments := .ofText [], line := 1 }, {}⟩ =
      (.error (.internal .containerUnderflow),
        ⟨{ name := "formContainer".toList, arguments := .ofText [], line := 1 }, {}⟩) := by
  have hpaired : Paired changesInside := by
    refine ⟨fun front hprefix => ?_, by decide⟩
    have hall : ∀ front ∈ changesInside.inits, front.count .leave ≤ entered front := by decide
    exact hall front ((List.mem_inits _ _).2 hprefix)
  obtain ⟨hrestores, hcounts, hkept, hclosing⟩ := enter_leave_restores
  obtain ⟨-, hrefused, -, hfinish⟩ := hcounts (.leave :: changesInside)
  exact ⟨(hrestores _ _ _ hpaired).1, hrefused.2 (by decide), hfinish.2 (by decide),
    (hkept {} .leave _ rfl).2, hclosing _ ⟨_, rfl⟩⟩

end BindingStack

end Template

end FormTemplate
