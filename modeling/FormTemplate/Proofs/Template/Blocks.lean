import FormTemplate.Proofs.Template.Reached

/-!
# Blocks of the generated code

Entering a container opens a block of the generated code and leaving it
closes the block. `Program.blocks` reads the blocks off the code of a
program, `Script.blocks` off the steps it comes from, and `blocks_program`
says that they are the same: no other code is taken for a block. The
blocks of a template are properly nested (`LaidOut.nested_brackets`), and as
many are open as there are bindings saved (`depth_of_bindings`). Steps whose
blocks are properly nested are `Balanced`, a grammar to reason about their
runs by.
-/

namespace FormTemplate

namespace Template

open FormTemplate.Bracket

/-! ## Blocks of steps and of code -/

/-- The bracket of the block that a step opens or closes. -/
def Step.block? : Step → Option (Bracket Unit)
  | .enterContainer _ => some (.opening ())
  | .leaveContainer => some (.closing ())
  | _ => none

/-- The blocks that steps open and close. -/
def Script.blocks (s : Script) : List (Bracket Unit) := s.filterMap Step.block?

/-- Whether code opens a block: a block in which a container is bound. -/
def opensBlock (code : Text) : Bool :=
  "\x7b let form_container = ".toList.isPrefixOf code
    && "let ctx = ctx.enter_container(form_container);".toList.isSuffixOf code

/-- The bracket of the block that a segment opens or closes. -/
def Segment.block? : Segment → Option (Bracket Unit)
  | .code c =>
    if opensBlock c then some (.opening ())
    else if c = ['\x7d'] then some (.closing ())
    else none
  | .text _ => none

/-- **The blocks that a program opens and closes.** -/
def Program.blocks (p : Program) : List (Bracket Unit) := p.filterMap Segment.block?

namespace Script

variable {s t : Script}

@[simp] theorem blocks_cons (x : Step) : blocks (x :: s) = x.block?.toList ++ blocks s := by
  cases h : x.block? <;> simp [blocks, h]

end Script

/-! ## Code that is no block -/

/-- Code that starts with another character opens and closes no block. -/
theorem block?_of_head {c : Char} (s : Text) (h : c = 'l' ∨ c = 'o') :
    (Segment.code (c :: s)).block? = none := by
  have hopens : opensBlock (c :: s) = false := by
    delta opensBlock
    repeat rw [Text.toList_eq (by rfl)]
    rcases h with rfl | rfl <;> simp
  rw [Segment.block?, hopens]
  rcases h with rfl | rfl <;> simp

/-- Statements that bind a variable for what follows them or print
something at once. -/
def isPlain : Statement → Bool
  | .print _ | .letForm _ | .letInput _ | .withLabel _ | .printControl .. | .printAttributes .. =>
    true
  | _ => false

/-- **A line that starts with such a statement is no block.** -/
theorem block?_line {x : Statement} (hx : isPlain x = true) (runtimePath : Text)
    (l : List Statement) : (Segment.code (Statement.line runtimePath (x :: l))).block? = none := by
  have hhead : ∃ c s, x.code runtimePath = c :: s ∧ (c = 'l' ∨ c = 'o') := by
    cases x with
    | print | letInput | withLabel | printControl | printAttributes =>
      delta Statement.code
      dsimp only
      repeat rw [Text.toList_eq (by rfl)]
      exact ⟨_, _, rfl, by decide⟩
    | letForm name =>
      cases name <;>
      · delta Statement.code
        dsimp only
        repeat rw [Text.toList_eq (by rfl)]
        exact ⟨_, _, rfl, by decide⟩
    | _ => cases hx
  obtain ⟨c, s, hcode, hc⟩ := hhead
  cases l with
  | nil => rw [Statement.line_singleton, hcode]; exact block?_of_head s hc
  | cons y l => rw [Statement.line_cons_cons, hcode]; exact block?_of_head _ hc

/-- The code that ends a form is no block, whatever the rendering library
is called. -/
theorem block?_endForm (runtimePath : Text) :
    (Segment.code (Step.endForm.code runtimePath)).block? = none := by
  have hcode : Step.endForm.code runtimePath =
      runtimePath ++ "::render_form_end(out, ctx.form()?);".toList := by
    rw [Step.code, Step.statements, Statement.line_singleton]
    delta Statement.code
    rfl
  rw [Text.toList_eq (by rfl)] at hcode
  -- The path may begin with anything, so the last characters have to tell.
  have hopens : opensBlock (Step.endForm.code runtimePath) = false := by
    rw [hcode]
    delta opensBlock
    repeat rw [Text.toList_eq (by rfl)]
    rw [Bool.and_eq_false_iff]
    right
    simp only [List.isSuffixOf, List.reverse_append]
    rfl
  have hne : Step.endForm.code runtimePath ≠ ['\x7d'] := by
    intro heq
    have hlast := congrArg List.getLast? (hcode.symm.trans heq)
    simp at hlast
  rw [Segment.block?, hopens, if_neg hne]
  rfl

/-- The code that enters a container opens a block. -/
theorem block?_enterContainer (runtimePath : Text) (name : Word) :
    (Segment.code ((Step.enterContainer name).code runtimePath)).block? =
      some (.opening ()) := by
  have hopens : opensBlock ((Step.enterContainer name).code runtimePath) = true := by
    simp only [Step.code, Step.statements, Statement.line_cons_cons, Statement.line_singleton]
    delta opensBlock
    rw [Bool.and_eq_true, List.isPrefixOf_iff_prefix, List.isSuffixOf_iff_suffix]
    constructor
    · cases name <;>
      · delta Statement.code
        dsimp only
        repeat rw [Text.toList_eq (by rfl)]
        simp
    · have hlast : Statement.code runtimePath .enterContainer =
          "let ctx = ctx.enter_container(form_container);".toList := by
        delta Statement.code
        rfl
      rw [hlast]
      exact (((List.suffix_cons _ _).trans (List.suffix_append _ _)).trans
        (List.suffix_cons _ _)).trans (List.suffix_append _ _)
  rw [Segment.block?, hopens]
  rfl

/-- **The block of a step is the block of its code.** -/
theorem block?_segment (runtimePath : Text) (s : Step) :
    (s.segment runtimePath).block? = s.block? := by
  cases s with
  | text => rfl
  | endForm => exact block?_endForm runtimePath
  | enterContainer name => exact block?_enterContainer runtimePath name
  | leaveContainer =>
    change (Segment.code ['\x7d']).block? = some (.closing ())
    have hopens : opensBlock ['\x7d'] = false := by
      delta opensBlock
      repeat rw [Text.toList_eq (by rfl)]
      rfl
    rw [Segment.block?, hopens]
    rfl
  | beginForm | endLabel => exact block?_line rfl runtimePath _
  | label name | input name | attributes _ name =>
    cases name <;> exact block?_line rfl runtimePath _

/-! ## Blocks of a program -/

/-- **The blocks of a program are those of its steps.** -/
theorem blocks_program (runtimePath : Text) (s : Script) :
    Program.blocks (Script.program runtimePath s) = Script.blocks s := by
  -- Texts are no blocks, and the code of a program is that of its segments.
  have hcodes : ∀ l : List Segment,
      Program.blocks l = (Program.codes l).filterMap fun c => (Segment.code c).block? := by
    intro l
    rw [Program.blocks, Program.codes, List.filterMap_filterMap]
    congr 1
    funext x
    cases x <;> rfl
  rw [hcodes, Script.program, Program.codes_ofSegments, ← hcodes, Program.blocks,
    Script.segments, List.filterMap_map, Script.blocks]
  congr 1
  funext x
  exact block?_segment runtimePath x

/-! ## Nesting -/

/-- The bracket of the form or container that a step begins or ends. -/
def Step.bracket? : Step → Option (Bracket Directive)
  | .beginForm .. => some (.opening .form)
  | .endForm => some (.closing .form)
  | .enterContainer _ => some (.opening .formContainer)
  | .leaveContainer => some (.closing .formContainer)
  | _ => none

/-- The forms and containers that steps begin and end. -/
def Script.brackets (s : Script) : List (Bracket Directive) := s.filterMap Step.bracket?

/-- The blocks are the containers among them. -/
theorem filterMap_brackets (s : Script) :
    (Script.brackets s).filterMap (map? fun d => if d = .formContainer then some () else none) =
      Script.blocks s := by
  rw [Script.brackets, List.filterMap_filterMap, Script.blocks]
  congr 1
  funext x
  cases x <;> rfl

/-- The tags of a directive stand around what is between them. -/
theorem nested_brackets_around {d : Directive} {arguments : Text} {hasBody : Bool}
    {step : Step} (hstep : d.openingStep? arguments hasBody = some step) (hasBody' : Bool)
    {s : Script} (hs : Nested (Script.brackets s)) :
    Nested (Script.brackets (step :: s ++ d.closingSteps hasBody')) := by
  have hopen := Directive.openingStep?_eq_some hstep
  unfold Script.brackets at hs ⊢
  cases d with
  | form =>
    obtain ⟨name, as, rfl⟩ := hopen
    simpa [Step.bracket?, Directive.closingSteps] using hs.pair .form
  | formContainer =>
    obtain ⟨name, rfl⟩ := hopen
    simpa [Step.bracket?, Directive.closingSteps] using hs.pair .formContainer
  | label =>
    obtain ⟨name, as, rfl⟩ := hopen
    cases hasBody' <;>
      simpa [List.filterMap_cons, Step.bracket?, Directive.closingSteps] using hs
  | input =>
    obtain ⟨name, parts, as, rfl⟩ := hopen
    simpa [List.filterMap_cons, Step.bracket?, Directive.closingSteps] using hs

/-- **The forms and containers of a laid-out template are properly nested.** -/
theorem LaidOut.nested_brackets {ps : List Piece} {parts : List Script} (h : LaidOut ps parts) :
    Nested (Script.brackets parts.flatten) := by
  induction h with
  | nil => exact .nil
  | append _ _ ih₁ ih₂ =>
    rw [List.flatten_append, Script.brackets, List.filterMap_append]
    exact ih₁.append ih₂
  | text => exact .nil
  | @unpaired d arguments source selfClosing step hpaired hstep =>
    obtain rfl : d = .input := by cases d <;> first | rfl | cases hpaired
    obtain ⟨name, words, as, rfl⟩ := Directive.openingStep?_eq_some hstep
    exact .nil
  | selfClosing _ hstep =>
    simpa using nested_brackets_around (s := []) hstep false .nil
  | element hstep =>
    obtain ⟨ofLabel, word, words, written, rfl⟩ := Directive.attributeStep?_eq_some hstep
    exact .nil
  | block _ _ hstep ih =>
    simpa using nested_brackets_around hstep _ ih

theorem nested_blocks_of_brackets {s : Script} (h : Nested (Script.brackets s)) :
    Nested (Script.blocks s) := by
  rw [← filterMap_brackets]
  exact h.filterMap _

/-- **As many blocks are open as there are bindings saved.** -/
theorem depth_of_bindings {s : Script} {b b' : BindingStack} {st : List Unit}
    (h : Script.bindings s b = .ok b') (hdepth : st.length = b.depth) :
    (opened (Script.blocks s) st).length = b'.depth := by
  induction s generalizing b st with
  | nil => cases h; exact hdepth
  | cons x s ih =>
    rw [Script.bindings, List.foldlM_cons] at h
    rw [Script.blocks_cons, opened_append]
    cases x with
    | beginForm name as => exact ih h hdepth
    | enterContainer name => exact ih h (congrArg (· + 1) hdepth)
    | leaveContainer =>
      obtain ⟨current, saved⟩ := b
      cases saved with
      | nil => cases h
      | cons binding saved =>
        refine ih h ?_
        change st.tail.length = saved.length
        rw [List.length_tail, hdepth]
        rfl
    | _ => exact ih h hdepth

/-! ## Balanced steps -/

/-- The name of the form that a step begins. -/
def Step.form? : Step → Option Word
  | .beginForm name _ => some name
  | _ => none

/-- **Steps that leave every block they enter**, with the names of the forms
that they begin outside of those blocks. -/
inductive Balanced : Script → List Word → Prop
  /-- No steps. -/
  | nil : Balanced [] []
  /-- Some steps after others. -/
  | append {s t : Script} {names names' : List Word} :
    Balanced s names → Balanced t names' → Balanced (s ++ t) (names ++ names')
  /-- A step without a block. -/
  | step {x : Step} : x.block? = none → Balanced [x] x.form?.toList
  /-- Steps in a block. -/
  | block (name : Word) {s : Script} {names : List Word} :
    Balanced s names → Balanced (.enterContainer name :: s ++ [.leaveContainer]) []

theorem exists_balanced_of_blocks_eq_nil {s : Script} (h : Script.blocks s = []) :
    ∃ names, Balanced s names := by
  induction s with
  | nil => exact ⟨[], .nil⟩
  | cons x s ih =>
    rw [Script.blocks_cons, List.append_eq_nil_iff, Option.toList_eq_nil_iff] at h
    obtain ⟨names, hs⟩ := ih h.2
    exact ⟨_, .append (.step h.1) hs⟩

/-- **Steps whose blocks are properly nested are balanced.** -/
theorem exists_balanced_of_nested {s : Script} (h : Nested (Script.blocks s)) :
    ∃ names, Balanced s names := by
  generalize hw : Script.blocks s = w at h
  induction h generalizing s with
  | nil => exact exists_balanced_of_blocks_eq_nil hw
  | append _ _ ihv ihw =>
    obtain ⟨s, t, rfl, hs, ht⟩ := List.filterMap_eq_append_iff.1 hw
    obtain ⟨names, hs⟩ := ihv hs
    obtain ⟨names', ht⟩ := ihw ht
    exact ⟨_, hs.append ht⟩
  | pair _ _ ih =>
    -- The steps of the pair have others without blocks around them.
    obtain ⟨s, t, rfl, hs, ht⟩ := List.filterMap_eq_append_iff.1 hw
    obtain ⟨s₁, x, s₂, rfl, hs₁, hx, hs₂⟩ := List.filterMap_eq_cons_iff.1 hs
    obtain ⟨t₁, y, t₂, rfl, ht₁, hy, ht₂⟩ := List.filterMap_eq_cons_iff.1 ht
    obtain ⟨name, rfl⟩ : ∃ name, x = .enterContainer name := by
      cases x <;> simp_all [Step.block?]
    obtain rfl : y = .leaveContainer := by cases y <;> simp_all [Step.block?]
    obtain ⟨_, h₁⟩ := exists_balanced_of_blocks_eq_nil (List.filterMap_eq_nil_iff.2 hs₁)
    obtain ⟨_, h₂⟩ := ih hs₂
    obtain ⟨_, h₃⟩ := exists_balanced_of_blocks_eq_nil (List.filterMap_eq_nil_iff.2 ht₁)
    obtain ⟨_, h₄⟩ := exists_balanced_of_blocks_eq_nil ht₂
    have hsteps : s₁ ++ .enterContainer name :: s₂ ++ (t₁ ++ .leaveContainer :: t₂) =
        s₁ ++ (.enterContainer name :: (s₂ ++ t₁) ++ [.leaveContainer]) ++ t₂ := by simp
    rw [hsteps]
    exact ⟨_, (h₁.append (.block name (h₂.append h₃))).append h₄⟩

end Template

end FormTemplate
