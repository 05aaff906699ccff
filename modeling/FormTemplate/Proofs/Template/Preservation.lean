import FormTemplate.Proofs.Template.Reached

/-!
# What becomes of the text of a template

A compiled template prints the text of the template and nothing else.
`Erased` says what is left of each piece: all of a text, nothing of a tag
in braces, and of a start tag everything but the attribute that carries the
directive. `compile_keeps_text` says that the texts of the program are what
is left of the template, in order, and that all code stands at its tag.
-/

namespace FormTemplate

namespace Template

/-- **What is left of a piece** when the directive in it is taken out. -/
inductive Erased (attributePrefix : Text) : Piece → Text → Prop
  /-- All of a text. -/
  | text {s : Text} : Erased attributePrefix (.text s) s
  /-- Nothing of an opening tag. -/
  | opening {d : Directive} {arguments source : Text} {selfClosing : Bool} :
    Erased attributePrefix (.tag (.opening d arguments selfClosing) source) []
  /-- Nothing of a closing tag. -/
  | closing {d : Directive} {source : Text} : Erased attributePrefix (.tag (.closing d) source) []
  /-- Of a start tag, all but the first attribute that stands for a
  directive, with the white space before it. -/
  | element {name tail : Text} {d : Directive} {before after : List RawAttribute}
      {carrier : RawAttribute} :
    Tag.carriedDirective? attributePrefix carrier.name = some d →
    (∀ a ∈ before, Tag.carriedDirective? attributePrefix a.name = none) → carrier.Spelled →
    Erased attributePrefix
      (.tag (.element name d (carrier.value.getD []) (before ++ after) tail)
        ('<' :: name ++ (RawAttribute.sources before ++ carrier.source
          ++ RawAttribute.sources after) ++ tail))
      ('<' :: name ++ (RawAttribute.sources before ++ RawAttribute.sources after) ++ tail)

/-- **Where the code of a piece stands**: `CodeAt piece front code` when
`code` is code that the piece asks for, and `front` the text of the piece
that stands before it. -/
inductive CodeAt (runtimePath : Text) : Piece → Text → Text → Prop
  /-- The code of an opening tag. -/
  | opening {d : Directive} {arguments source : Text} {selfClosing : Bool} {step : Step}
      (hasBody : Bool) :
    d.openingStep? arguments hasBody = some step →
    CodeAt runtimePath (.tag (.opening d arguments selfClosing) source) []
      (step.code runtimePath)
  /-- The closing code of an opening tag that closes itself. -/
  | selfClosing {d : Directive} {arguments source : Text} {step : Step} :
    d.isPaired = true → step ∈ d.closingSteps false →
    CodeAt runtimePath (.tag (.opening d arguments true) source) [] (step.code runtimePath)
  /-- The code of a closing tag. -/
  | closing {d : Directive} {source : Text} {step : Step} (hasBody : Bool) :
    step ∈ d.closingSteps hasBody →
    CodeAt runtimePath (.tag (.closing d) source) [] (step.code runtimePath)
  /-- The code of a start tag comes right after the name of the element. -/
  | element {name arguments tail source : Text} {attributes : List RawAttribute} {step : Step} :
    Directive.attributeStep? name arguments attributes = some step →
    CodeAt runtimePath (.tag (.element name .input arguments attributes tail) source)
      ('<' :: name) (step.code runtimePath)

/-! ## The text of steps -/

namespace Script

variable {runtimePath : Text} {s t : Script}

/-- The text of the template that steps print. -/
def text (s : Script) : Text :=
  s.flatMap fun
    | .text r => r
    | _ => []

@[simp] theorem text_append : text (s ++ t) = text s ++ text t := List.flatMap_append

/-- Steps with code print no text of the template. -/
theorem text_of_code (runtimePath : Text)
    (h : ∀ step ∈ s, step.segment runtimePath = .code (step.code runtimePath)) :
    text s = [] := by
  rw [text, List.flatMap_eq_nil_iff]
  intro step hstep
  cases step with
  | text r => exact Segment.noConfusion (h _ hstep)
  | _ => rfl

/-- **The program of steps prints their text.** -/
theorem flatten_texts_program (runtimePath : Text) (s : Script) :
    (Program.texts (s.program runtimePath)).flatten = s.text := by
  rw [program, Program.flatten_texts_ofSegments]
  induction s with
  | nil => rfl
  | cons step s ih =>
    rw [segments, List.map_cons, ← segments]
    cases step <;> simpa [Program.texts, text, Step.segment] using ih

end Script

/-- **The steps in the place of a piece print what is left of it.** -/
theorem Placed.erased {attributePrefix : Text} {p : Piece} {part : Script} (h : Placed p part)
    (hp : p.Faithful attributePrefix) : Erased attributePrefix p part.text := by
  cases h with
  | text => simpa [Script.text] using Erased.text
  | @opening d arguments source selfClosing step hasBody hstep =>
    rw [Script.text_of_code [] ?_]
    · exact .opening
    · intro s hs
      rcases List.mem_cons.1 hs with rfl | hs
      · exact Directive.segment_of_openingStep? _ hstep
      · split at hs
        · exact Directive.segment_of_mem_closingSteps _ hs
        · cases hs
  | closing hasBody =>
    rw [Script.text_of_code [] fun s hs =>
      Directive.segment_of_mem_closingSteps _ hs]
    exact .closing
  | @element name arguments tail source attributes step hstep =>
    have htext : Script.text [step] = [] := Script.text_of_code [] fun s hs => by
      rw [List.mem_singleton.1 hs]
      exact Directive.segment_of_attributeStep? _ hstep
    have hparts : Script.text [.text ('<' :: name), step,
        .text (RawAttribute.sources attributes ++ tail)] =
          '<' :: name ++ RawAttribute.sources attributes ++ tail := by
      rw [← List.singleton_append (x := step), ← List.singleton_append, Script.text_append,
        Script.text_append, htext]
      simp [Script.text]
    rw [hparts]
    cases hp with
    | element hd hfirst hspelled =>
      rw [RawAttribute.sources_append]
      exact .element hd hfirst hspelled

/-- So do all the pieces with the steps in their places. -/
theorem exists_erased {attributePrefix : Text} {ps : List Piece} {parts : List Script}
    (h : List.Forall₂ Placed ps parts) (hps : ∀ p ∈ ps, p.Faithful attributePrefix) :
    ∃ kept, List.Forall₂ (Erased attributePrefix) ps kept ∧
      Script.text parts.flatten = kept.flatten := by
  induction h with
  | nil => exact ⟨[], .nil, rfl⟩
  | @cons p part ps parts hpart _ ih =>
    obtain ⟨kept, hkept, htext⟩ := ih fun q hq => hps q (by simp [hq])
    exact ⟨part.text :: kept, .cons (hpart.erased (hps p (by simp))) hkept, by simp [htext]⟩

/-- **A step in the program of a template** is in the place of some piece,
behind the steps of the pieces before it. -/
theorem exists_piece_of_step {ps : List Piece} {parts : List Script} {s t : Script} {step : Step}
    (h : List.Forall₂ Placed ps parts) (hs : parts.flatten = s ++ step :: t) :
    ∃ before p after others a b, ps = before ++ p :: after ∧ Placed p (a ++ step :: b) ∧
      List.Forall₂ Placed before others ∧ s = others.flatten ++ a := by
  induction h generalizing s with
  | nil => simp at hs
  | @cons p part ps parts hpart hparts ih =>
    -- The step is in this piece's part unless what is before it covers the part.
    have hlater : ∀ t' : Script, s = part ++ t' → parts.flatten = t' ++ step :: t →
        ∃ before p' after others a b, p :: ps = before ++ p' :: after ∧
          Placed p' (a ++ step :: b) ∧ List.Forall₂ Placed before others ∧
          s = others.flatten ++ a := by
      rintro t' rfl ht'
      obtain ⟨before, p', after, others, a, b, rfl, hp', hothers, rfl⟩ := ih ht'
      exact ⟨p :: before, p', after, part :: others, a, b, rfl, hp', .cons hpart hothers,
        by simp⟩
    rw [List.flatten_cons] at hs
    rcases List.append_eq_append_iff.1 hs with ⟨t', hs', ht'⟩ | ⟨t', hs', ht'⟩
    · exact hlater t' hs' ht'
    · cases t' with
      | nil => exact hlater [] (by simpa using hs'.symm) ht'.symm
      | cons x t' =>
        obtain ⟨rfl, rfl⟩ := List.cons.inj ht'
        exact ⟨[], p, ps, [], s, t', rfl, by rw [← hs']; exact hpart, .nil, rfl⟩

/-- **Code in the place of a piece** stands where the piece puts it. -/
theorem Placed.codeAt {runtimePath : Text} {p : Piece} {a b : Script} {step : Step}
    (h : Placed p (a ++ step :: b))
    (hstep : step.segment runtimePath = .code (step.code runtimePath)) :
    CodeAt runtimePath p a.text (step.code runtimePath) := by
  generalize hpart : a ++ step :: b = part at h
  cases h with
  | text =>
    -- The step is the text, and that is no code.
    cases a with
    | nil => cases hpart; cases hstep
    | cons x a => simp at hpart
  | @opening d arguments source selfClosing step' hasBody hstep' =>
    -- The first step is that of the opening tag, any other that of a closing tag.
    cases a with
    | nil =>
      obtain ⟨rfl, -⟩ := List.cons.inj hpart
      exact .opening hasBody hstep'
    | cons x a =>
      obtain ⟨rfl, hrest⟩ := List.cons.inj hpart
      split at hrest
      next hself =>
        simp only [Bool.and_eq_true] at hself
        obtain ⟨hpaired, rfl⟩ := hself
        have hmem : ∀ s ∈ x :: a, s.segment runtimePath = .code (s.code runtimePath) := by
          intro s hs
          rcases List.mem_cons.1 hs with rfl | hs
          · exact Directive.segment_of_openingStep? _ hstep'
          · have hclosing : s ∈ d.closingSteps false := by rw [← hrest]; simp [hs]
            exact Directive.segment_of_mem_closingSteps _ hclosing
        rw [Script.text_of_code _ hmem]
        exact .selfClosing hpaired (by rw [← hrest]; simp)
      next => simp at hrest
  | @closing d source hasBody =>
    have hmem : ∀ s ∈ a, s.segment runtimePath = .code (s.code runtimePath) := by
      intro s hs
      have hclosing : s ∈ d.closingSteps hasBody := by rw [← hpart]; simp [hs]
      exact Directive.segment_of_mem_closingSteps _ hclosing
    rw [Script.text_of_code _ hmem]
    exact .closing hasBody (by rw [← hpart]; simp)
  | @element name arguments tail source attributes step' hstep' =>
    -- The code is the second of the three steps.
    match a, hpart with
    | [], hpart => cases hpart; cases hstep
    | [x], hpart =>
      cases hpart
      rw [show Script.text [.text ('<' :: name)] = '<' :: name by simp [Script.text]]
      exact .element hstep'
    | [x, y], hpart => cases hpart; cases hstep
    | x :: y :: z :: a, hpart => simp at hpart

theorem Script.exists_of_segments_eq {runtimePath : Text} {s : Script} {l₁ l₂ : List Segment}
    {code : Text} (h : s.segments runtimePath = l₁ ++ .code code :: l₂) :
    ∃ s₁ step s₂, s = s₁ ++ step :: s₂ ∧ Script.segments runtimePath s₁ = l₁ ∧
      step.segment runtimePath = .code (step.code runtimePath) ∧
      code = step.code runtimePath := by
  obtain ⟨s₁, t, rfl, h₁, ht⟩ := List.map_eq_append_iff.1 h
  obtain ⟨step, s₂, rfl, hstep, -⟩ := List.map_eq_cons_iff.1 ht
  have hcode : step.segment runtimePath = .code (step.code runtimePath) ∧
      code = step.code runtimePath := by
    cases step with
    | text r => cases hstep
    | _ => exact ⟨rfl, (Segment.code.inj hstep).symm⟩
  exact ⟨s₁, step, s₂, rfl, h₁, hcode⟩

/-- **What stands before code** in the program of a laid-out template is
what is left of the template before the code's tag. -/
theorem exists_codeAt {runtimePath attributePrefix : Text} {ps : List Piece}
    {parts : List Script} (h : List.Forall₂ Placed ps parts)
    (hps : ∀ p ∈ ps, p.Faithful attributePrefix) {q r : Program} {code : Text}
    (hq : Script.program runtimePath parts.flatten = q ++ .code code :: r) :
    ∃ before piece after kept front, ps = before ++ piece :: after ∧
      CodeAt runtimePath piece front code ∧
      List.Forall₂ (Erased attributePrefix) before kept ∧
      (Program.texts q).flatten = kept.flatten ++ front := by
  obtain ⟨l₁, l₂, hl, rfl⟩ := Program.exists_of_ofSegments_code hq
  obtain ⟨s, step, t, hs, rfl, hsegment, rfl⟩ := Script.exists_of_segments_eq hl
  obtain ⟨before, piece, after, others, a, b, rfl, hpiece, hothers, rfl⟩ :=
    exists_piece_of_step h hs
  obtain ⟨kept, hkept, htext⟩ := exists_erased hothers fun p hp => hps p (by simp [hp])
  refine ⟨before, piece, after, kept, a.text, rfl, hpiece.codeAt hsegment, hkept, ?_⟩
  have hprogram := Script.flatten_texts_program runtimePath (others.flatten ++ a)
  rw [Script.text_append, htext] at hprogram
  exact hprogram

/-- **A compiled template prints what is left of the template**, in order,
and nothing else: the pieces of the template make it up, the tags among
them are those that the search for tags finds, and the texts of the
program are what is left of the pieces. The program is that of the steps in
the places of the pieces, so what stands before a piece of code is what is
left of the template before its tag. No text is empty and no two stand
side by side. -/
theorem compile_keeps_text {options : Options} {template : Text} {p : Program}
    (h : compile options template = .ok p) :
    (Piece.ofText options.attributePrefix template).flatMap Piece.source = template ∧
    Piece.sites [] (Piece.ofText options.attributePrefix template) =
      Site.all options.attributePrefix template ∧
    (∃ kept, List.Forall₂ (Erased options.attributePrefix)
        (Piece.ofText options.attributePrefix template) kept ∧
      p.texts.flatten = kept.flatten) ∧
    (∃ parts, List.Forall₂ Placed (Piece.ofText options.attributePrefix template) parts ∧
      p = Script.program options.runtimePath parts.flatten) ∧
    (∀ q code r, p = q ++ .code code :: r →
      ∃ before piece after kept front,
        Piece.ofText options.attributePrefix template = before ++ piece :: after ∧
        CodeAt options.runtimePath piece front code ∧
        List.Forall₂ (Erased options.attributePrefix) before kept ∧
        (Program.texts q).flatten = kept.flatten ++ front) ∧
    p.Merged := by
  obtain ⟨parts, hlaidOut, rfl⟩ := laidOut_of_compile h
  have hfaithful : ∀ q ∈ Piece.ofText options.attributePrefix template,
      q.Faithful options.attributePrefix := fun q hq => Piece.faithful_of_mem_ofText hq
  obtain ⟨kept, hkept, htext⟩ := exists_erased hlaidOut.placed hfaithful
  refine ⟨Piece.flatMap_source_ofText _ _, (Site.all_eq _ _).symm, ⟨kept, hkept, ?_⟩,
    ⟨parts, hlaidOut.placed, rfl⟩, ?_, Program.merged_ofSegments _⟩
  · rw [Script.flatten_texts_program, htext]
  · intro q code r hq
    exact exists_codeAt hlaidOut.placed hfaithful hq

/-- A start tag keeps everything but the attribute. -/
theorem compile_keeps_text_of_attribute :
    compile {} "<i n:input='a' b>".toList =
        .ok [.text "<i".toList,
          .code ("out.push_str(&ctx.control(\"a\")?.get_control(&[])" ++
            ".add_attributes(&[(\"b\", None)]).attributes());").toList,
          .text " b>".toList] ∧
      ∃ kept, List.Forall₂ (Erased "n:".toList)
          (Piece.ofText "n:".toList "<i n:input='a' b>".toList) kept ∧
        kept.flatten = "<i b>".toList := by
  have hok : compile {} "<i n:input='a' b>".toList =
      .ok [.text "<i".toList,
        .code ("out.push_str(&ctx.control(\"a\")?.get_control(&[])" ++
          ".add_attributes(&[(\"b\", None)]).attributes());").toList,
        .text " b>".toList] := by
    decide +kernel
  obtain ⟨-, -, ⟨kept, hkept, htext⟩, -⟩ := compile_keeps_text hok
  exact ⟨hok, kept, hkept, htext.symm.trans (by decide +kernel)⟩

end Template

end FormTemplate
