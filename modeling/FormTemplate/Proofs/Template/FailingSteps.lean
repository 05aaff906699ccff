import FormTemplate.Proofs.Template.Expansion
import FormTemplate.Proofs.Template.SavedBindings

/-!
# Steps that fail

A form or a container is bound before the code of its opening tag is written,
so a pattern that failed would leave behind bindings of a directive that
generates nothing. No such pattern fails. An opening tag is refused for want of
a name or it is done (`RefusedOrDone`): where a name was read, the arguments
have a word again when they start over, whichever word the name was
(`words_source_ne_nil`), and one word is all that the patterns ask for. A
closing tag fails before it changes anything. So a step that fails has read on
in the arguments, and has done nothing else.
-/

namespace FormTemplate

namespace Template

open GenerateM

/-- The steps of a directive. -/
inductive Phase where
  /-- At the opening tag. -/
  | opening
  /-- At the closing tag. -/
  | closing
  /-- At a start tag that carries the directive. -/
  | carried
deriving Repr, DecidableEq

/-- **A step of a directive.** -/
def Directive.generate (options : Options) (d : Directive) : Phase → GenerateM Unit
  | .opening => d.generateOpening options
  | .closing => d.generateClosing options
  | .carried => d.generateAttribute options

namespace Work

/-- The work with its arguments read up to `rest`. -/
def readTo (w : Work) (rest : Text) : Work := { w with occurrence.arguments.rest := rest }

/-- The work after some steps, the failing ones among them. -/
def after (options : Options) (w : Work) (steps : List (Directive × Phase)) : Work :=
  steps.foldl (fun w s => ((s.1.generate options s.2).run w).2) w

end Work

/-! ## Patterns that cannot fail -/

namespace Pattern

variable {part : PatternPart} {p : Pattern} {given : List PatternArgument} {a : Arguments}
variable {code s : Text} {l : AttributeList} {index : Nat} {form : ArgumentForm}

/-- **A pattern in which nothing can be lacking**, whatever words are left. -/
def Complete (given : List PatternArgument) (p : Pattern) : Prop :=
  ∀ part ∈ p, ∀ ws, ¬ part.Lacks given ws

theorem complete_nil : Complete given [] := nofun

theorem complete_cons :
    Complete given (part :: p) ↔ (∀ ws, ¬ part.Lacks given ws) ∧ Complete given p :=
  List.forall_mem_cons

theorem Complete.plain (h : Complete given p) : Complete given (.plain code :: p) :=
  complete_cons.2 ⟨fun _ => id, h⟩

theorem Complete.runtime (h : Complete given p) : Complete given (.runtime :: p) :=
  complete_cons.2 ⟨fun _ => id, h⟩

theorem Complete.remainingWords (h : Complete given p) : Complete given (.remainingWords :: p) :=
  complete_cons.2 ⟨fun _ => id, h⟩

/-- A text can be asked for in any form. -/
theorem Complete.text (h : Complete given p) (hgiven : given[index]? = some (.text s)) :
    Complete given (.argument index form :: p) := by
  refine complete_cons.2 ⟨fun ws hlacks => ?_, h⟩
  rcases hlacks with hle | ⟨-, l, hl⟩
  · rw [List.getElem?_eq_none hle] at hgiven
    cases hgiven
  · rw [hgiven] at hl
    cases hl

/-- Attributes can be asked for in any form but that of a word. -/
theorem Complete.attributes (h : Complete given p)
    (hgiven : given[index]? = some (.attributes l)) (hform : form ≠ .word) :
    Complete given (.argument index form :: p) := by
  refine complete_cons.2 ⟨fun ws hlacks => ?_, h⟩
  rcases hlacks with hle | ⟨hword, -⟩
  · rw [List.getElem?_eq_none hle] at hgiven
    cases hgiven
  · exact hform hword

variable (runtimePath : Text)

theorem exists_expand_eq_ok
    (h : ∀ (i : Nat) (part : PatternPart), p[i]? = some part →
      ¬ part.Lacks given (wordsLeft (p.take i) (Arguments.words a.rest))) :
    ∃ code a', p.expand runtimePath given a = (.ok code, a') := by
  rcases hexpand : p.expand runtimePath given a with ⟨e | code, a'⟩
  · obtain ⟨i, part, hpart, hlacks⟩ := (expand_eq_error_iff runtimePath given p a).1
      ⟨e, congrArg Prod.fst hexpand⟩
    exact absurd hlacks (h i part hpart)
  · exact ⟨code, a', rfl⟩

theorem Complete.exists_expand (h : Complete given p) :
    ∃ code a', p.expand runtimePath given a = (.ok code, a') :=
  exists_expand_eq_ok runtimePath fun _ part hpart => h part (List.mem_of_getElem? hpart) _

/-- **A pattern that takes the name of a directive**: the first word, and
nothing that can be lacking then. -/
def TakesName (p : Pattern) : Prop :=
  ∃ code rest, p = .plain code :: .nextWord :: rest ∧ Complete [] rest

/-- It cannot fail if there is a word. -/
theorem TakesName.exists_expand (h : p.TakesName) (hwords : Arguments.words a.rest ≠ []) :
    ∃ code a', p.expand runtimePath [] a = (.ok code, a') := by
  obtain ⟨code, rest, rfl, hrest⟩ := h
  refine exists_expand_eq_ok runtimePath fun i part hpart hlacks => ?_
  match i with
  | 0 =>
    cases hpart
    exact hlacks
  | 1 =>
    cases hpart
    exact hwords hlacks
  | i + 2 => exact hrest part (List.mem_of_getElem? hpart) _ hlacks

end Pattern

open Pattern

theorem FormDirective.takesName (b : Bool) :
    (Pattern.ofText (if b then byExpression else byKey).toList).TakesName := by
  cases b with
  | false => exact ⟨_, _, ofText_byKey, complete_nil.plain.remainingWords.plain.runtime.plain⟩
  | true => exact ⟨_, _, ofText_byExpression, complete_nil.plain.remainingWords.plain.runtime.plain⟩

theorem ContainerDirective.takesName (b : Bool) :
    (Pattern.ofText (if b then byExpression else byKey).toList).TakesName := by
  cases b with
  | false => exact ⟨_, _, ofText_byKey, complete_nil.plain⟩
  | true => exact ⟨_, _, ofText_byExpression, complete_nil.plain⟩

theorem LabelDirective.takesName (b : Bool) :
    (Pattern.ofText (if b then byExpression else byKey).toList).TakesName := by
  cases b with
  | false => exact ⟨_, _, ofText_byKey, complete_nil.plain.remainingWords.plain⟩
  | true => exact ⟨_, _, ofText_byExpression, complete_nil.plain.remainingWords.plain⟩

namespace InputDirective

variable (r : Reference)

/-- The patterns of an input ask for the name and the modifiers, and both are
given. -/
theorem complete_opening :
    Complete [.text r.name, .text r.modifiers]
      (Pattern.ofText (if r.isExpression then byExpression else byKey).toList) := by
  cases r.isExpression with
  | false =>
    rw [if_neg Bool.false_ne_true, ofText_byKey]
    exact ((complete_nil.plain.remainingWords.plain.text rfl).plain.text rfl).plain
  | true =>
    rw [if_pos rfl, ofText_byExpression]
    exact ((complete_nil.plain.remainingWords.plain.text rfl).plain.text rfl).plain

/-- So they do for an attribute, with the attributes to merge. -/
theorem complete_attribute (carrier : Carrier) (l : AttributeList) :
    Complete [.text r.name, .text r.modifiers, .attributes l]
      (Pattern.ofText (attributePattern r carrier).toList) := by
  rw [ofText_attributePattern]
  generalize Text.sameIgnoringCase carrier.name "label".toList = isLabel
  cases !carrier.attributes.isEmpty with
  | false => exact ((complete_nil.plain.text rfl).plain.text rfl).plain
  | true =>
    have hform : ArgumentForm.var ≠ .word := nofun
    exact (((complete_nil.plain.attributes rfl hform).plain.text rfl).plain.text rfl).plain

end InputDirective

/-! ## Opening tags and attributes -/

section Opening

variable {w : Work} (options : Options)

/-- **A step that is refused or done.** It is refused before anything has
changed but the cursor, and the error is none of the compiler's own. -/
def RefusedOrDone (x : GenerateM Unit) (w : Work) : Prop :=
  (∃ e rest, (∀ fault, e ≠ .internal fault) ∧ x.run w = (.error e, w.readTo rest)) ∨
    ∃ w', x.run w = (.ok (), w')

/-- Where a word is left, the whole of the arguments has one. -/
theorem words_source_ne_nil {a : Arguments} (h : a.Inside) (hwords : Arguments.words a.rest ≠ []) :
    Arguments.words a.source ≠ [] := by
  obtain ⟨front, hfront⟩ := h
  rw [Ne, Arguments.words_eq_nil_iff] at hwords ⊢
  intro hblank
  refine hwords fun c hc => hblank c ?_
  rw [← hfront]
  exact List.mem_append_right front hc

/-- Taking the name moves the cursor: past the white space, or to the start. -/
theorem run_takeName_eq (missing : Text → CompileError) (w : Work) :
    (takeName missing).run w =
      match w.occurrence.arguments.next.1 with
      | none => (.error (missing (CompileError.openingTag w.occurrence.name)),
          w.readTo w.occurrence.arguments.next.2.rest)
      | some word => (.ok (.ofText word), w.readTo w.occurrence.arguments.source) := by
  rw [takeName, run_bind_ok (run_nextWord w)]
  cases w.occurrence.arguments.next.1 <;> rfl

/-- Taking the reference moves it past the word. -/
theorem InputDirective.run_takeReference_eq (missing : Occurrence → CompileError) (w : Work) :
    (takeReference missing).run w =
      match w.occurrence.arguments.next.1.bind Reference.ofWord? with
      | none => (.error (missing (w.readTo w.occurrence.arguments.next.2.rest).occurrence),
          w.readTo w.occurrence.arguments.next.2.rest)
      | some r => (.ok r, w.readTo w.occurrence.arguments.next.2.rest) := by
  rw [takeReference, run_bind_ok (run_nextWord w)]
  cases w.occurrence.arguments.next.1.bind Reference.ofWord? <;> rfl

/-- **A step that takes the name first** is refused or done, if it cannot
fail once the name is there. -/
theorem refusedOrDone_takeName {missing : Text → CompileError} {f : Word → GenerateM Unit}
    (hmissing : ∀ s fault, missing s ≠ .internal fault) (h : w.occurrence.arguments.Inside)
    (hf : ∀ name, Arguments.words w.occurrence.arguments.source ≠ [] →
      ∃ w', (f name).run (w.readTo w.occurrence.arguments.source) = (.ok (), w')) :
    RefusedOrDone (takeName missing >>= f) w := by
  unfold RefusedOrDone
  rw [run_bind, run_takeName_eq]
  cases hnext : w.occurrence.arguments.next.1 with
  | none => exact .inl ⟨_, _, hmissing _, rfl⟩
  | some word =>
    refine .inr (hf _ (words_source_ne_nil h fun hnil => ?_))
    rw [Arguments.next_eq_head?, hnil] at hnext
    cases hnext

/-- So is one that takes the reference first. -/
theorem InputDirective.refusedOrDone_takeReference {missing : Occurrence → CompileError}
    {f : Reference → GenerateM Unit} (hmissing : ∀ o fault, missing o ≠ .internal fault)
    (hf : ∀ r w, ∃ w', (f r).run w = (.ok (), w')) :
    RefusedOrDone (takeReference missing >>= f) w := by
  unfold RefusedOrDone
  rw [run_bind, run_takeReference_eq]
  cases w.occurrence.arguments.next.1.bind Reference.ofWord? with
  | none => exact .inl ⟨_, _, hmissing _, rfl⟩
  | some r => exact .inr (hf _ _)

theorem exists_run_setOpening (w : Work) {pattern : String} {given : List PatternArgument}
    (h : ∃ code a, (Pattern.ofText pattern.toList).expand options.runtimePath given
      w.occurrence.arguments = (.ok code, a)) :
    ∃ w', (write options pattern given >>= setOpening).run w = (.ok (), w') := by
  obtain ⟨code, a, hcode⟩ := h
  refine ⟨{ w with occurrence.arguments := a, occurrence.opening := code }, ?_⟩
  rw [run_bind_ok (run_write hcode), run_setOpening]

/-- **An opening tag is refused or done.** -/
theorem Directive.refusedOrDone_opening (d : Directive) (h : w.occurrence.arguments.Inside) :
    RefusedOrDone (d.generateOpening options) w := by
  cases d with
  | form =>
    refine refusedOrDone_takeName (fun _ _ => nofun) h fun name hwords => ?_
    -- The form is bound by now, and the pattern is written all the same.
    rw [run_bind_ok (run_modifyBindings _ _)]
    exact exists_run_setOpening options _ ((FormDirective.takesName _).exists_expand _ hwords)
  | formContainer =>
    refine refusedOrDone_takeName (fun _ _ => nofun) h fun name hwords => ?_
    rw [run_bind_ok (run_modifyBindings _ _)]
    exact exists_run_setOpening options _ ((ContainerDirective.takesName _).exists_expand _ hwords)
  | label =>
    refine refusedOrDone_takeName (fun _ _ => nofun) h fun name hwords => ?_
    exact exists_run_setOpening options _ ((LabelDirective.takesName _).exists_expand _ hwords)
  | input =>
    refine InputDirective.refusedOrDone_takeReference (fun _ _ => nofun) fun r w => ?_
    exact exists_run_setOpening options _ ((InputDirective.complete_opening r).exists_expand _)

/-- **So is an input directive as an attribute.** -/
theorem InputDirective.refusedOrDone_attribute (w : Work) :
    RefusedOrDone (InputDirective.generateAttribute options) w := by
  refine refusedOrDone_takeReference (fun _ _ => nofun) fun r w => ?_
  rw [run_bind_ok (run_get w)]
  exact exists_run_setOpening options _ ((complete_attribute r _ _).exists_expand _)

end Opening

/-! ## Closing tags -/

/-- **A closing tag fails before it changes anything.** -/
theorem Directive.generateClosing_cases (options : Options) (d : Directive) (w : Work) :
    (∃ e, (d.generateClosing options).run w = (.error e, w)) ∨
      ∃ w', (d.generateClosing options).run w = (.ok (), w') ∧
        w'.occurrence.arguments = w.occurrence.arguments := by
  cases d with
  | form =>
    refine .inr ⟨{ w with occurrence.closing := Step.endForm.code options.runtimePath }, ?_, rfl⟩
    rw [generateClosing, FormDirective.generateClosing,
      run_bind_ok (run_write (expand_endForm options.runtimePath _)), run_setClosing]
  | formContainer =>
    rw [generateClosing, BindingStack.generateClosing_run_eq]
    cases hsaved : w.bindings.saved with
    | nil =>
      rw [BindingStack.perform_leave_of_nil hsaved]
      exact .inl ⟨_, rfl⟩
    | cons binding saved =>
      rw [BindingStack.perform_leave_of_cons hsaved]
      exact .inr ⟨_, rfl, rfl⟩
  | label =>
    obtain ⟨⟨name, a, line, carrier, body, opening, closing⟩, bindings⟩ := w
    rw [generateClosing, LabelDirective.generateClosing, run_bind_ok (run_get _)]
    cases body with
    | none => exact .inr ⟨_, rfl, rfl⟩
    | some body =>
      simp only [Occurrence.hasBody, Option.isSome_some, if_true]
      cases Text.replaceLast? LabelDirective.wholeElement LabelDirective.startTag opening with
      | none => exact .inl ⟨_, rfl⟩
      | some opening => exact .inr ⟨_, rfl, rfl⟩
  | input => exact .inr ⟨w, rfl, rfl⟩

/-! ## Where the cursor stands -/

namespace GenerateM

variable {α β : Type} {x : GenerateM α} {f : α → GenerateM β}

/-- **A step that reads the same arguments on**: what is left after it is their
end, if it was before. -/
def StaysInside (x : GenerateM α) : Prop :=
  ∀ w : Work, w.occurrence.arguments.Inside →
    (x.run w).2.occurrence.arguments.Inside ∧
      (x.run w).2.occurrence.arguments.source = w.occurrence.arguments.source

theorem StaysInside.bind (hx : StaysInside x) (hf : ∀ a, StaysInside (f a)) :
    StaysInside (x >>= f) := by
  intro w h
  have hfirst := hx w h
  rw [run_bind]
  rcases hrun : x.run w with ⟨e | a, w'⟩
  · rw [hrun] at hfirst
    exact hfirst
  · rw [hrun] at hfirst
    obtain ⟨hinside, hsource⟩ := hfirst
    obtain ⟨hinside', hsource'⟩ := hf a w' hinside
    exact ⟨hinside', hsource'.trans hsource⟩

theorem staysInside_of_eq
    (h : ∀ w, (x.run w).2.occurrence.arguments = w.occurrence.arguments) : StaysInside x := by
  intro w hinside
  rw [h w]
  exact ⟨hinside, rfl⟩

theorem staysInside_modifyBindings (f : BindingStack → BindingStack) :
    StaysInside (modifyBindings f) := staysInside_of_eq fun _ => rfl

theorem staysInside_setOpening (code : Text) : StaysInside (setOpening code) :=
  staysInside_of_eq fun _ => rfl

theorem staysInside_takeName (missing : Text → CompileError) :
    StaysInside (takeName missing) := by
  intro w h
  rw [run_takeName_eq]
  cases w.occurrence.arguments.next.1 with
  | none => exact ⟨h.next, rfl⟩
  | some word => exact ⟨List.suffix_rfl, rfl⟩

theorem staysInside_takeReference (missing : Occurrence → CompileError) :
    StaysInside (InputDirective.takeReference missing) := by
  intro w h
  rw [InputDirective.run_takeReference_eq]
  cases w.occurrence.arguments.next.1.bind InputDirective.Reference.ofWord? with
  | none => exact ⟨h.next, rfl⟩
  | some r => exact ⟨h.next, rfl⟩

theorem staysInside_write (options : Options) (pattern : String) (given : List PatternArgument) :
    StaysInside (write options pattern given) := fun _ h =>
  Pattern.inside_expand options.runtimePath given (Pattern.ofText pattern.toList) h

end GenerateM

namespace Directive

variable (options : Options)

/-- **Every step reads the same arguments on.** -/
theorem staysInside_generate (d : Directive) (p : Phase) :
    StaysInside (d.generate options p) := by
  have hset (pattern : String) (given : List PatternArgument) :
      StaysInside (write options pattern given >>= setOpening) :=
    (staysInside_write options pattern given).bind staysInside_setOpening
  cases p with
  | opening =>
    cases d with
    | form =>
      exact (staysInside_takeName _).bind fun _ =>
        (staysInside_modifyBindings _).bind fun _ => hset _ _
    | formContainer =>
      exact (staysInside_takeName _).bind fun _ =>
        (staysInside_modifyBindings _).bind fun _ => hset _ _
    | label => exact (staysInside_takeName _).bind fun _ => hset _ _
    | input => exact (staysInside_takeReference _).bind fun _ => hset _ _
  | closing =>
    refine staysInside_of_eq fun w => ?_
    rw [generate]
    rcases generateClosing_cases options d w with ⟨e, hrun⟩ | ⟨w', hrun, harguments⟩
    · rw [hrun]
    · rw [hrun]
      exact harguments
  | carried =>
    cases d with
    | input =>
      exact (staysInside_takeReference _).bind fun _ =>
        (staysInside_of_eq fun _ => rfl).bind fun w => hset _ _
    | form | formContainer | label => exact staysInside_of_eq fun _ => rfl

/-- So do any steps one after the other. -/
theorem inside_after {w : Work} (steps : List (Directive × Phase))
    (h : w.occurrence.arguments.Inside) :
    (w.after options steps).occurrence.arguments.Inside ∧
      (w.after options steps).occurrence.arguments.source = w.occurrence.arguments.source := by
  induction steps generalizing w with
  | nil => exact ⟨h, rfl⟩
  | cons step steps ih =>
    obtain ⟨hinside, hsource⟩ := staysInside_generate options step.1 step.2 w h
    obtain ⟨hinside', hsource'⟩ := ih hinside
    exact ⟨hinside', hsource'.trans hsource⟩

/-! ## What a failing step leaves -/

/-- A step has read on at most when it fails. The fault is the compiler's own
at closing tags only, and where a directive has no attribute form. -/
theorem generate_cases (d : Directive) (p : Phase) {w : Work}
    (h : w.occurrence.arguments.Inside) :
    (∃ e rest, (d.generate options p).run w = (.error e, w.readTo rest) ∧
      ∀ fault, e = .internal fault → p = .closing ∨ p = .carried ∧ d.hasAttributeForm = false) ∨
    ∃ w', (d.generate options p).run w = (.ok (), w') := by
  cases p with
  | opening =>
    rcases refusedOrDone_opening options d h with ⟨e, rest, hmissing, hrun⟩ | hdone
    · exact .inl ⟨e, rest, hrun, fun fault he => absurd he (hmissing fault)⟩
    · exact .inr hdone
  | closing =>
    rcases generateClosing_cases options d w with ⟨e, hrun⟩ | ⟨w', hrun, -⟩
    · exact .inl ⟨e, w.occurrence.arguments.rest, hrun, fun _ _ => .inl rfl⟩
    · exact .inr ⟨w', hrun⟩
  | carried =>
    cases d with
    | input =>
      rcases InputDirective.refusedOrDone_attribute options w with
        ⟨e, rest, hmissing, hrun⟩ | hdone
      · exact .inl ⟨e, rest, hrun, fun fault he => absurd he (hmissing fault)⟩
      · exact .inr hdone
    | form | formContainer | label =>
      exact .inl ⟨_, w.occurrence.arguments.rest, rfl, fun _ _ => .inr ⟨rfl, rfl⟩⟩

/-- **A failing step keeps the work**, but for the cursor: the bindings in
effect and the saved ones, the body and the code of both tags are what they
were. An opening tag never fails by a fault of the compiler, and a directive as
an attribute only if it has no such form. The arguments have to stand somewhere
in their text; they do in the beginning, and in the same text after any steps. -/
theorem failing_step_keeps_work (d : Directive) (w : Work)
    (h : w.occurrence.arguments.Inside) :
    (∀ p e w', (d.generate options p).run w = (.error e, w') → ∃ rest, w' = w.readTo rest) ∧
    (∀ fault w', (d.generate options .opening).run w ≠ (.error (.internal fault), w')) ∧
    ((∃ fault w', (d.generate options .carried).run w = (.error (.internal fault), w')) ↔
      d.hasAttributeForm = false) ∧
    ∀ steps, (w.after options steps).occurrence.arguments.Inside ∧
      (w.after options steps).occurrence.arguments.source = w.occurrence.arguments.source := by
  refine ⟨?_, ?_, ⟨?_, ?_⟩, fun steps => inside_after options steps h⟩
  · intro p e w' hrun
    rcases generate_cases options d p h with ⟨e', rest, hfails, -⟩ | ⟨w'', hdone⟩
    · exact ⟨rest, (Prod.mk.inj (hrun.symm.trans hfails)).2⟩
    · cases hrun.symm.trans hdone
  · intro fault w' hrun
    rcases generate_cases options d .opening h with ⟨e, rest, hfails, hfault⟩ | ⟨w'', hdone⟩
    · cases hrun.symm.trans hfails
      rcases hfault fault rfl with hphase | ⟨hphase, -⟩ <;> cases hphase
    · cases hrun.symm.trans hdone
  · rintro ⟨fault, w', hrun⟩
    rcases generate_cases options d .carried h with ⟨e, rest, hfails, hfault⟩ | ⟨w'', hdone⟩
    · cases hrun.symm.trans hfails
      rcases hfault fault rfl with hphase | ⟨-, hform⟩
      · cases hphase
      · exact hform
    · cases hrun.symm.trans hdone
  · intro hform
    cases d with
    | input => cases hform
    | form | formContainer | label => exact ⟨_, w, rfl⟩

/-- With the cursor past the last word no name is left, so nothing is entered;
nothing can be left then, and a container is no attribute. -/
theorem failing_step_keeps_work_of_read_through :
    ∃ w w' : Work, w.occurrence.arguments = ⟨"a ".toList, " ".toList⟩ ∧
      w.occurrence.opening = ['x'] ∧ w.occurrence.arguments.Inside ∧
      (generate {} .formContainer .opening).run w =
        (.error (.missingFormName "\x7bformContainer\x7d".toList), w') ∧
      (∃ rest, w' = w.readTo rest) ∧
      (generate {} .formContainer .closing).run w =
        (.error (.internal .containerUnderflow), w) ∧
      (∃ rest, w = w.readTo rest) ∧
      ∃ fault w', (generate {} .formContainer .carried).run w =
        (.error (.internal fault), w') := by
  let w : Work :=
    { occurrence := {
        name := "formContainer".toList
        arguments := ⟨"a ".toList, " ".toList⟩
        line := 1
        body := some ['y']
        opening := ['x'] } }
  have hinside : w.occurrence.arguments.Inside := ⟨['a'], by rfl⟩
  have hopening : (generate {} .formContainer .opening).run w =
      (.error (.missingFormName "\x7bformContainer\x7d".toList), w.readTo []) := by rfl
  have hclosing : (generate {} .formContainer .closing).run w =
      (.error (.internal .containerUnderflow), w) := by rfl
  obtain ⟨hkeeps, -, hfault, -⟩ := failing_step_keeps_work {} .formContainer w hinside
  exact ⟨w, w.readTo [], rfl, rfl, hinside, hopening, hkeeps _ _ _ hopening, hclosing,
    hkeeps _ _ _ hclosing, hfault.2 rfl⟩

end Directive

end Template

end FormTemplate
