import FormTemplate.Template.Compile
import FormTemplate.Proofs.Template.Generation
import FormTemplate.Proofs.Template.Scanning
import FormTemplate.Proofs.Template.Segments
import Mathlib.Data.List.Forall2

/-!
# How a template is laid out

Each piece of a template asks for some steps. `LaidOut` is the grammar of
the pieces with their steps: it follows the nesting of the directives,
because a label is shown as a whole only when nothing stands between its
tags. In what is laid out every step is in the place of its piece
(`LaidOut.placed`).
-/

namespace FormTemplate

namespace Template

/-! ## Programs of steps -/

namespace Script

variable {runtimePath : Text} {s t : Script}

/-- The segments of steps. -/
def segments (runtimePath : Text) (s : Script) : List Segment := s.map (Step.segment runtimePath)

/-- **The program of steps.** -/
def program (runtimePath : Text) (s : Script) : Program :=
  Program.ofSegments (s.segments runtimePath)

@[simp] theorem program_nil : program runtimePath [] = [] := rfl

@[simp] theorem segments_append :
    segments runtimePath (s ++ t) = segments runtimePath s ++ segments runtimePath t :=
  List.map_append

/-- **The program of steps and others** is the one and then the other. -/
theorem program_append (s t : Script) :
    program runtimePath (s ++ t) = (program runtimePath s).join (program runtimePath t) := by
  rw [program, segments_append, Program.ofSegments_append]
  rfl

/-- A text at the end. -/
theorem program_text (s : Script) (r : Text) :
    program runtimePath (s ++ [.text r]) = (program runtimePath s).pushText r := by
  simp [program, segments, Step.segment]

/-- A step with code in the middle. -/
theorem program_append_cons {step : Step}
    (h : step.segment runtimePath = .code (step.code runtimePath)) (s t : Script) :
    program runtimePath (s ++ step :: t) =
      (program runtimePath s).pushCode (step.code runtimePath) ++ program runtimePath t := by
  rw [program, segments_append, segments, segments, List.map_cons, h,
    Program.ofSegments_append_code]
  simp [program, segments, Program.pushCode]

theorem program_code {step : Step}
    (h : step.segment runtimePath = .code (step.code runtimePath)) (s : Script) :
    program runtimePath (s ++ [step]) =
      (program runtimePath s).pushCode (step.code runtimePath) := by
  simpa using program_append_cons h s []

end Script

namespace Directive

variable (runtimePath : Text)
variable {d : Directive} {arguments : Text} {hasBody : Bool} {step : Step}

/-- The step at an opening tag, directive by directive. -/
theorem openingStep?_eq_some (h : d.openingStep? arguments hasBody = some step) :
    match d with
    | .form => ∃ name as, step = .beginForm name as
    | .formContainer => ∃ name, step = .enterContainer name
    | .label => ∃ name as, step = .label name as !hasBody
    | .input => ∃ name parts as, step = .input name parts as := by
  obtain ⟨word, words, hwords⟩ := words_of_openingStep? h
  unfold openingStep? at h
  rw [hwords] at h
  cases d with
  | form => cases h; exact ⟨_, _, rfl⟩
  | formContainer => cases h; exact ⟨_, rfl⟩
  | label => cases h; exact ⟨_, _, rfl⟩
  | input =>
    obtain ⟨r, -, rfl⟩ := Option.map_eq_some_iff.1 h
    exact ⟨_, _, _, rfl⟩

/-- The step at an opening tag is code. -/
theorem segment_of_openingStep? (h : d.openingStep? arguments hasBody = some step) :
    step.segment runtimePath = .code (step.code runtimePath) := by
  have hstep := openingStep?_eq_some h
  cases d with
  | form => obtain ⟨name, as, rfl⟩ := hstep; rfl
  | formContainer => obtain ⟨name, rfl⟩ := hstep; rfl
  | label => obtain ⟨name, as, rfl⟩ := hstep; rfl
  | input => obtain ⟨name, parts, as, rfl⟩ := hstep; rfl

theorem attributeStep?_eq_some {name : Text} {attributes : List RawAttribute}
    (h : attributeStep? name arguments attributes = some step) :
    ∃ ofLabel word parts written, step = .attributes ofLabel word parts written := by
  unfold attributeStep? at h
  cases hwords : Arguments.words arguments with
  | nil => rw [hwords] at h; cases h
  | cons word words =>
    rw [hwords] at h
    obtain ⟨r, -, rfl⟩ := Option.map_eq_some_iff.1 h
    exact ⟨_, _, _, _, rfl⟩

theorem segment_of_attributeStep? {name : Text} {attributes : List RawAttribute}
    (h : attributeStep? name arguments attributes = some step) :
    step.segment runtimePath = .code (step.code runtimePath) := by
  obtain ⟨ofLabel, word, parts, written, rfl⟩ := attributeStep?_eq_some h
  rfl

theorem segment_of_mem_closingSteps (h : step ∈ d.closingSteps hasBody) :
    step.segment runtimePath = .code (step.code runtimePath) := by
  have hstep : step = .endForm ∨ step = .leaveContainer ∨ step = .endLabel := by
    cases d <;> cases hasBody <;> simp_all [closingSteps]
  rcases hstep with rfl | rfl | rfl <;> rfl

/-- And that code is not empty. -/
theorem code_closingSteps_ne_nil (h : step ∈ d.closingSteps hasBody) :
    step.code runtimePath ≠ [] := by
  have hstep : step = .endForm ∨ step = .leaveContainer ∨ step = .endLabel := by
    cases d <;> cases hasBody <;> simp_all [closingSteps]
  rcases hstep with rfl | rfl | rfl
  · rw [Step.code, Step.statements, Statement.line_singleton]
    delta Statement.code
    dsimp only
    rw [Text.toList_eq (by rfl)]
    simp
  · exact List.cons_ne_nil _ _
  · rw [code_endLabel]
    delta LabelDirective.closing
    rw [Text.toList_eq (by rfl)]
    exact List.cons_ne_nil _ _

/-- The code at a closing tag goes to the end of a program as its steps. -/
theorem pushNonemptyCode_closingCode (s : Script) :
    (s.program runtimePath).pushNonemptyCode (closingCode runtimePath d hasBody) =
      Script.program runtimePath (s ++ d.closingSteps hasBody) := by
  -- There is one closing step at most, so its code is empty only without it.
  have hsteps : d.closingSteps hasBody = [] ∨ ∃ step, d.closingSteps hasBody = [step] := by
    cases d <;> cases hasBody <;> simp [closingSteps]
  rcases hsteps with h | ⟨step, h⟩
  · simp [closingCode, h, Program.pushNonemptyCode]
  · have hmem : step ∈ d.closingSteps hasBody := by rw [h]; simp
    have hne := code_closingSteps_ne_nil runtimePath hmem
    rw [closingCode, h, List.flatMap_singleton,
      Script.program_code (segment_of_mem_closingSteps _ hmem), Program.pushNonemptyCode,
      if_neg (by simp [hne])]

end Directive

/-! ## Laid-out templates -/

/-- **The pieces of a template and the steps of each.** -/
inductive LaidOut : List Piece → List Script → Prop
  /-- Nothing. -/
  | nil : LaidOut [] []
  /-- One part of a template after the other. -/
  | append {ps qs : List Piece} {parts others : List Script} :
    LaidOut ps parts → LaidOut qs others → LaidOut (ps ++ qs) (parts ++ others)
  /-- Text is printed. -/
  | text {s : Text} : s ≠ [] → LaidOut [.text s] [[.text s]]
  /-- A directive without a closing tag. -/
  | unpaired {d : Directive} {arguments source : Text} {selfClosing : Bool} {step : Step} :
    d.isPaired = false → d.openingStep? arguments false = some step →
    LaidOut [.tag (.opening d arguments selfClosing) source] [[step]]
  /-- A directive whose opening tag closes it. -/
  | selfClosing {d : Directive} {arguments source : Text} {step : Step} :
    d.isPaired = true → d.openingStep? arguments false = some step →
    LaidOut [.tag (.opening d arguments true) source] [step :: d.closingSteps false]
  /-- A start tag that carries a directive: its name, the directive, and
  the rest of it. -/
  | element {name arguments tail source : Text} {attributes : List RawAttribute} {step : Step} :
    Directive.attributeStep? name arguments attributes = some step →
    LaidOut [.tag (.element name .input arguments attributes tail) source]
      [[.text ('<' :: name), step, .text (RawAttribute.sources attributes ++ tail)]]
  /-- A directive with what stands between its tags. -/
  | block {d : Directive} {arguments source source' : Text} {step : Step} {body : List Piece}
      {parts : List Script} :
    d.isPaired = true → LaidOut body parts →
    d.openingStep? arguments (!body.isEmpty) = some step →
    LaidOut (.tag (.opening d arguments false) source :: body ++ [.tag (.closing d) source'])
      ([step] :: parts ++ [d.closingSteps !body.isEmpty])

/-- **The steps at the place of a piece.** At an opening tag comes the
directive's code, and that of its closing tag if it closes itself; in a
start tag the code comes right after the name of the element. -/
inductive Placed : Piece → Script → Prop
  /-- Text is printed. -/
  | text {s : Text} : Placed (.text s) [.text s]
  /-- An opening tag. -/
  | opening {d : Directive} {arguments source : Text} {selfClosing : Bool} {step : Step}
      (hasBody : Bool) :
    d.openingStep? arguments hasBody = some step →
    Placed (.tag (.opening d arguments selfClosing) source)
      (step :: if d.isPaired && selfClosing then d.closingSteps false else [])
  /-- A closing tag. -/
  | closing {d : Directive} {source : Text} (hasBody : Bool) :
    Placed (.tag (.closing d) source) (d.closingSteps hasBody)
  /-- A start tag that carries a directive. -/
  | element {name arguments tail source : Text} {attributes : List RawAttribute} {step : Step} :
    Directive.attributeStep? name arguments attributes = some step →
    Placed (.tag (.element name .input arguments attributes tail) source)
      [.text ('<' :: name), step, .text (RawAttribute.sources attributes ++ tail)]

/-- **In a laid-out template every step is in its place.** -/
theorem LaidOut.placed {ps : List Piece} {parts : List Script} (h : LaidOut ps parts) :
    List.Forall₂ Placed ps parts := by
  induction h with
  | nil => exact .nil
  | append _ _ ih₁ ih₂ => exact List.rel_append ih₁ ih₂
  | text => exact .cons .text .nil
  | @unpaired d arguments source selfClosing step hpaired hstep =>
    have hplaced : Placed (.tag (.opening d arguments selfClosing) source) _ := .opening _ hstep
    rw [hpaired] at hplaced
    exact .cons hplaced .nil
  | @selfClosing d arguments source step hpaired hstep =>
    have hplaced : Placed (.tag (.opening d arguments true) source) _ := .opening _ hstep
    rw [hpaired] at hplaced
    exact .cons hplaced .nil
  | element hstep => exact .cons (.element hstep) .nil
  | @block d arguments source source' step body parts hpaired _ hstep ih =>
    have hplaced : Placed (.tag (.opening d arguments false) source) _ := .opening _ hstep
    rw [Bool.and_false] at hplaced
    exact .cons hplaced (List.rel_append ih (.cons (.closing _) .nil))

end Template

end FormTemplate
