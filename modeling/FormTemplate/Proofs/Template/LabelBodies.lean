import FormTemplate.Proofs.Template.Classification
import FormTemplate.Proofs.Template.Steps

/-!
# Labels with a body

The opening tag of a label writes code that shows the label as a whole. When
the closing tag comes and there is a body, one call of that code is replaced
by another, and the code is put back where it stood
(`LabelDirective.body_changes_last_call`). The call is looked for in the text
of the code, where names and attributes may spell it too; but it is the last
part of the pattern that ends with it, so the last of them is the right one
(`LabelDirective.length_le_of_wholeElement`). And the segment that was
remembered at the opening tag is the one that the program has in the end,
whatever the body and the blocks around it have written since
(`Underway.exists_of_allSteps?`).
-/

namespace FormTemplate

namespace Template

open FormTemplate.Bracket

namespace LabelDirective

variable (runtimePath : Text) (name : Word) (as : AttributeList)

/-! ## The call at the end -/

/-- What the pattern of a label has behind the call that shows the label. -/
def afterCall : Text := "); \x7d".toList

/-- **The code of a label up to the call that shows it**: all parts of the
pattern but the last, filled in, and the parenthesis in front of the call. -/
def beforeCall : Text :=
  match name with
  | .literal k =>
    Pattern.fill { runtimePath, name := Literal.quote k, attributes := as.code }
      (Pattern.ofText byKey.toList).dropLast ++ [')']
  | .expression e =>
    Pattern.fill { runtimePath, name := e, attributes := as.code }
      (Pattern.ofText byExpression.toList).dropLast ++ [')']

/-- Both patterns end with the call. -/
theorem getLast?_patterns : ∀ pattern ∈ [byKey, byExpression],
    (Pattern.ofText pattern.toList).getLast? =
      some (.plain (')' :: (wholeElement ++ afterCall))) := by
  have hlast : ").to_html()); \x7d".toList = ')' :: (wholeElement ++ afterCall) := by
    delta wholeElement afterCall
    repeat rw [Text.toList_eq (by rfl)]
    decide +kernel
  rw [List.forall_mem_cons, List.forall_mem_singleton, ofText_byKey, ofText_byExpression, hlast]
  exact ⟨rfl, rfl⟩

/-- **The code of a label ends with the call of its pattern.** -/
theorem openingCode_eq : Directive.openingCode runtimePath .label name [] as =
    beforeCall runtimePath name as ++ (wholeElement ++ afterCall) := by
  have hfill : ∀ pattern ∈ [byKey, byExpression], ∀ f : Filling,
      Pattern.fill f (Pattern.ofText pattern.toList) =
        Pattern.fill f (Pattern.ofText pattern.toList).dropLast ++ [')'] ++
          (wholeElement ++ afterCall) := by
    intro pattern hpattern f
    have hlast := List.dropLast_append_getLast? _ (getLast?_patterns pattern hpattern)
    conv_lhs => rw [← hlast]
    simp [Pattern.fill, PatternPart.filled]
  cases name with
  | literal k => exact hfill byKey (by simp) _
  | expression e => exact hfill byExpression (by simp) _

/-- So does the code of its step, with the one call or with the other. -/
theorem code_eq (whole : Bool) : (Step.label name as whole).code runtimePath =
    beforeCall runtimePath name as ++
      ((if whole then wholeElement else startTag) ++ afterCall) := by
  have hwhole : (Step.label name as true).code runtimePath =
      beforeCall runtimePath name as ++ (wholeElement ++ afterCall) :=
    (Directive.code_openingStep runtimePath name [] as .label).trans (openingCode_eq ..)
  cases whole with
  | true => exact hwhole
  | false =>
    have hreplaced := Directive.replaceLast?_code_label runtimePath name as
    have hcall : Text.replaceLast? wholeElement startTag (wholeElement ++ afterCall) =
        some (startTag ++ afterCall) := by
      delta wholeElement startTag afterCall
      repeat rw [Text.toList_eq (by rfl)]
      decide +kernel
    rw [hwhole, Text.replaceLast?_append _ hcall] at hreplaced
    exact (Option.some.inj hreplaced).symm

/-- **No call comes behind it**, whatever the code in front spells. -/
theorem length_le_of_wholeElement {front x y : Text}
    (h : front ++ (wholeElement ++ afterCall) = x ++ (wholeElement ++ y)) :
    x.length ≤ front.length := by
  have hnone : ¬ wholeElement <:+: (wholeElement ++ afterCall).tail := by
    delta wholeElement afterCall
    repeat rw [Text.toList_eq (by rfl)]
    decide +kernel
  rcases List.append_eq_append_iff.1 h with ⟨between, rfl, hcall⟩ | ⟨between, rfl, -⟩
  · cases between with
    | nil => simp
    | cons c between =>
      refine absurd ⟨between, y, ?_⟩ hnone
      rw [hcall, List.cons_append, List.tail_cons, List.append_assoc]
  · simp

/-- **What a label does with its body**, for the occurrence of its opening tag. -/
structure ChangesLastCall (options : Options) (word : Text) (words : List Text) (w : Work) :
    Prop where
  /-- The pattern of either kind of name ends with the call. -/
  pattern : ∀ pattern ∈ [byKey, byExpression], (Pattern.ofText pattern.toList).getLast? =
    some (.plain (')' :: (".to_html()".toList ++ "); \x7d".toList)))
  /-- So the code of the inline form ends with it. -/
  inline : Directive.openingCode options.runtimePath .label (.ofText word) [] (.ofWords words) =
    beforeCall options.runtimePath (.ofText word) (.ofWords words) ++
      (".to_html()".toList ++ "); \x7d".toList)
  /-- And that call is the last one, whatever is spelled in front of it. -/
  last : ∀ x y, Directive.openingCode options.runtimePath .label (.ofText word) []
      (.ofWords words) = x ++ (".to_html()".toList ++ y) →
    x.length ≤ (beforeCall options.runtimePath (.ofText word) (.ofWords words)).length
  /-- The opening tag generates the code of the inline form. -/
  opened : ∃ a, (Directive.generateOpening options .label).run w =
    (.ok (), { w with
      occurrence := { w.occurrence with
        arguments := a
        opening := Directive.openingCode options.runtimePath .label (.ofText word) []
          (.ofWords words) } })
  /-- The closing tag of a label with a body puts the other call in its place
  and ends the label; that of a label without one does nothing. -/
  closed : ∀ w' : Work, w'.occurrence.opening =
      Directive.openingCode options.runtimePath .label (.ofText word) [] (.ofWords words) →
    (Directive.generateClosing options .label).run w' =
      (.ok (), if w'.occurrence.hasBody then { w' with
          occurrence := { w'.occurrence with
            opening := beforeCall options.runtimePath (.ofText word) (.ofWords words) ++
              (".start_tag()".toList ++ "); \x7d".toList)
            closing := "out.push_str(\"</label>\");".toList } }
        else w')

/-- Every label does. -/
theorem changesLastCall (options : Options) {w : Work} {arguments word : Text} {words : List Text}
    (ha : w.occurrence.arguments = .ofText arguments)
    (hwords : Arguments.words arguments = word :: words) :
    ChangesLastCall options word words w where
  pattern := getLast?_patterns
  inline := openingCode_eq ..
  last x y h := length_le_of_wholeElement ((openingCode_eq ..).symm.trans h)
  opened := (Directive.generate_by_first_word options ha hwords).1 .label (by decide)
  closed w' hw' := by
    have hreplaced := Directive.replaceLast?_code_label options.runtimePath (.ofText word)
      (.ofWords words)
    rw [code_eq, code_eq, if_pos rfl, if_neg Bool.false_ne_true, ← openingCode_eq, ← hw']
      at hreplaced
    rw [Directive.generateClosing, generateClosing, GenerateM.run_bind_ok (GenerateM.run_get _)]
    dsimp only
    by_cases hbody : w'.occurrence.hasBody = true
    · rw [if_pos hbody, if_pos hbody, hreplaced]
      rfl
    · rw [if_neg hbody, if_neg hbody]
      rfl

end LabelDirective

/-! ## The segment of the opening tag -/

/-- **What is underway keeps its segments.** The codes of the open tags may
become others, but in the end the part of a template up to an open tag has as
many segments as when the tag came, and nothing behind it joins them. -/
theorem Underway.exists_of_allSteps? {runtimePath : Text} {outer rest : List Piece}
    {unclosed : List OpenDirective} {before : Program} {parts : List Script}
    (h : Underway runtimePath outer unclosed before)
    (hsteps : Piece.allSteps? false (outer ++ rest) = some parts) :
    ∃ former latter, parts = former ++ latter ∧ former.length = outer.length ∧
      Piece.allSteps? (!outer.isEmpty) rest = some latter ∧
      (Script.program runtimePath former.flatten).length = before.length ∧
      ∀ s, Script.program runtimePath (former.flatten ++ s) =
        Script.program runtimePath former.flatten ++ Script.program runtimePath s := by
  induction h generalizing rest parts with
  | nil => exact ⟨[], parts, rfl, rfl, hsteps, rfl, fun s => rfl⟩
  | @cons outer body bodyParts unclosed before d arguments source step a _ hbody hpaired hstep ih =>
    rw [List.append_assoc, List.append_assoc] at hsteps
    obtain ⟨former, latter, rfl, hformer, hlatter, hlength, hjoin⟩ := ih hsteps
    rw [hbody.allSteps?_append, List.singleton_append] at hlatter
    obtain ⟨_, hbehind, rfl⟩ := Option.map_eq_some_iff.1 hlatter
    obtain ⟨part, others, hpart, hothers, rfl⟩ := Piece.allSteps?_cons_eq_some.1 hbehind
    obtain ⟨step', hstep', rfl⟩ := Option.map_eq_some_iff.1 hpart
    rw [Bool.and_false, if_neg Bool.false_ne_true]
    have hsegment := Directive.segment_of_openingStep? runtimePath hstep'
    have hflatten : (former ++ bodyParts ++ [[step']]).flatten =
        (former.flatten ++ bodyParts.flatten) ++ [step'] := by simp
    refine ⟨former ++ bodyParts ++ [[step']], others, by simp, ?_, ?_, ?_, fun s => ?_⟩
    · simp [hformer, hbody.placed.length_eq]
    · have hopens : Piece.opensBody (.tag (.opening d arguments false) source) = true := by
        simp [Piece.opensBody, hpaired]
      have hnonempty : (outer ++ body ++
          [Piece.tag (.opening d arguments false) source]).isEmpty = false := by
        simp [-List.append_assoc]
      rw [hnonempty, Bool.not_false, ← hopens, hothers]
    · rw [hflatten, Script.program_code hsegment, hjoin]
      simp [Program.pushCode, hlength]
    · rw [hflatten, List.append_assoc, List.singleton_append,
        Script.program_append_cons hsegment, Script.program_code hsegment]

/-- **At the opening tag of a body** the compiler writes the code of the
opening step to the end of its program and remembers the segment, and in the
end that segment has the code that the step has then. -/
theorem exists_segment_of_compile {options : Options} {template : Text} {p : Program}
    (h : compile options template = .ok p) {d : Directive} {arguments source : Text} {step : Step}
    {before rest : List Piece} {parts : List Script} (hpaired : d.isPaired = true)
    (hpieces : Piece.ofText options.attributePrefix template =
      before ++ .tag (.opening d arguments false) source :: rest)
    (hparts : Piece.allSteps? false (Piece.ofText options.attributePrefix template) = some parts)
    (hstep : d.openingStep? arguments false = some step) :
    ∃ (c : Compilation) (inner : OpenDirective) (q : Program),
      (before ++ [Piece.tag (.opening d arguments false) source]).foldlM
        (Compilation.piece options) {} = .ok c ∧
      c.unclosed.head? = some inner ∧ inner.segment = q.length ∧
      c.program = q.pushCode (step.code options.runtimePath) ∧
      ∀ former step' latter, parts = former ++ [step'] :: latter → former.length = before.length →
        step'.segment options.runtimePath = .code (step'.code options.runtimePath) →
        (Script.program options.runtimePath former.flatten).length = q.length := by
  obtain ⟨parts', hlaidOut, -⟩ := laidOut_of_compile h
  obtain rfl := Option.some.inj (hlaidOut.allSteps?_eq.symm.trans hparts)
  obtain ⟨c, hrun, -⟩ := exists_bindings_of_compile h hlaidOut.placed hpieces
  have hreached := (Reached.nil options.runtimePath).run
    (fun q hq => Piece.faithful_of_mem_ofText (by rw [hpieces]; simp [hq])) hrun
  obtain ⟨outer, body, bodyParts, written, hbefore, hunderway, hbody, hprogram⟩ := hreached.layout
  obtain ⟨a, b, -, hopened⟩ := c.openTag_of_paired options source hpaired hstep
  obtain ⟨c', hpiece, ⟨inner, hinner, hremembered⟩, hcode⟩ : ∃ c' : Compilation,
      c.piece options (.tag (.opening d arguments false) source) = .ok c' ∧
      (∃ inner, c'.unclosed.head? = some inner ∧ inner.segment = c.program.length) ∧
      c'.program = c.program.pushCode (step.code options.runtimePath) := by
    rw [Compilation.piece, Compilation.tag, hopened]
    exact ⟨_, rfl, ⟨_, rfl, rfl⟩, rfl⟩
  refine ⟨c', inner, c.program, ?_, hinner, hremembered, hcode, ?_⟩
  · rw [List.foldlM_append, hrun]
    change Compilation.piece options c _ >>= _ = _
    rw [hpiece]
    rfl
  · rintro former step' latter rfl hformer hsegment
    have hopen := Underway.cons (a := a) source hunderway hbody hpaired hstep
    rw [hpieces, List.append_cons, ← List.nil_append before, hbefore] at hparts
    obtain ⟨former', latter', heq, hlength, -, hsegments, -⟩ := hopen.exists_of_allSteps? hparts
    rw [List.append_cons] at heq
    obtain ⟨rfl, -⟩ := List.append_inj heq (by
      rw [hlength, ← hbefore, List.nil_append, List.length_append, List.length_append, hformer]
      rfl)
    rw [List.flatten_append, List.flatten_singleton, Script.program_code hsegment, ← hprogram]
      at hsegments
    simpa [Program.pushCode] using hsegments

namespace LabelDirective

/-- **Where the code of a label goes** in the program of a template: which
segment it has when its opening tag comes, and in the end. -/
structure WrittenBack (options : Options) (pieces before body : List Piece)
    (arguments source : Text) (p : Program) where
  /-- The name of the label. -/
  word : Text
  /-- Its attributes. -/
  words : List Text
  /-- These are its arguments. -/
  words_eq : Arguments.words arguments = word :: words
  /-- The steps of what stands before the label. -/
  former : List Script
  /-- The steps of what stands between its tags. -/
  inner : List Script
  /-- The steps of what stands behind it. -/
  latter : List Script
  /-- The step of the label has the place of its opening tag. -/
  steps_eq : Piece.allSteps? false pieces =
    some (former ++ [.label (.ofText word) (.ofWords words) body.isEmpty] ::
      (inner ++ (if body.isEmpty then [] else [.endLabel]) :: latter))
  /-- There are those of each piece before it. -/
  former_length : former.length = before.length
  /-- There are those of each piece of the body. -/
  inner_length : inner.length = body.length
  /-- The program that the compiler has when it comes to the opening tag. -/
  written : Program
  /-- The compilation with the opening tag. -/
  opened : Compilation
  /-- The compiler comes to it. -/
  run_eq : (before ++ [Piece.tag (.opening .label arguments false) source]).foldlM
    (Compilation.piece options) {} = .ok opened
  /-- It has written the code of the inline form. -/
  opened_program : opened.program = written.pushCode
    (Directive.openingCode options.runtimePath .label (.ofText word) [] (.ofWords words))
  /-- It has remembered the segment. -/
  opened_segment : opened.unclosed.head?.map (·.segment) = some written.length
  /-- In the end that is the first segment behind what stands before the label. -/
  written_length : (Script.program options.runtimePath former.flatten).length = written.length
  /-- It has the same code then, with the other call if there is a body; and the
  end of the label comes behind the body. -/
  program_eq : p = (Script.program options.runtimePath former.flatten).pushCode
      (beforeCall options.runtimePath (.ofText word) (.ofWords words) ++
        ((if body.isEmpty then ".to_html()".toList else ".start_tag()".toList) ++
          "); \x7d".toList)) ++
    ((if body.isEmpty then [] else
      (Script.program options.runtimePath inner.flatten).pushCode
        "out.push_str(\"</label>\");".toList) ++
      Script.program options.runtimePath latter.flatten)

/-- Every label of a template that compiles is written back. -/
theorem nonempty_writtenBack {options : Options} {template : Text} {p : Program}
    (h : compile options template = .ok p) {before body after : List Piece}
    {arguments source source' : Text}
    (hpieces : Piece.ofText options.attributePrefix template =
      before ++ .tag (.opening .label arguments false) source ::
        (body ++ .tag (.closing .label) source' :: after))
    (hbody : Nested (Site.brackets (Piece.sites [] body))) :
    Nonempty (WrittenBack options (Piece.ofText options.attributePrefix template) before body
      arguments source p) := by
  obtain ⟨parts, hlaidOut, rfl⟩ := laidOut_of_compile h
  have hall := hlaidOut.allSteps?_eq
  have hsteps := hall
  rw [hpieces] at hsteps
  obtain ⟨step, former, inner, latter, hstep, rfl, hformer, hinner⟩ :=
    Piece.exists_of_allSteps?_block rfl hbody hsteps
  obtain ⟨word, words, hwords⟩ := Directive.words_of_openingStep? hstep
  have hinline : Directive.openingStep? .label arguments false =
      some (.label (.ofText word) (.ofWords words) true) := by
    rw [Directive.openingStep?, hwords]
    rfl
  rw [Directive.openingStep?, hwords] at hstep
  obtain rfl := Option.some.inj hstep
  obtain ⟨c, opened, q, hrun, hopened, hsegment, hprogram, hlength⟩ :=
    exists_segment_of_compile h rfl hpieces hall hinline
  refine ⟨{
    word, words, former, inner, latter
    words_eq := hwords
    steps_eq := ?_
    former_length := hformer
    inner_length := hinner
    written := q
    opened := c
    run_eq := hrun
    opened_program := hprogram.trans
      (by rw [← Directive.code_openingStep options.runtimePath (.ofText word) [] _ .label]; rfl)
    opened_segment := by rw [hopened, Option.map_some, hsegment]
    written_length := hlength _ _ _ rfl hformer rfl
    program_eq := ?_ }⟩
  · cases body with
    | nil => exact hall
    | cons => exact hall
  · have hcode := code_eq options.runtimePath (.ofText word) (.ofWords words) (!!body.isEmpty)
    rw [List.flatten_append, List.flatten_cons, List.singleton_append,
      Script.program_append_cons rfl, hcode, List.flatten_append, List.flatten_cons]
    cases body with
    | nil =>
      obtain rfl := List.length_eq_zero_iff.1 hinner
      rfl
    | cons p body =>
      change _ ++ Script.program _ (inner.flatten ++ (.endLabel :: latter.flatten)) = _
      rw [Script.program_append_cons rfl, Directive.code_endLabel]
      rfl

/-- **The block form of a label changes the last call of its code only.** With
a body the one call that the pattern ends with becomes the other and the end
tag comes behind the body; without one the code stays as it is. In every
template that compiles the code is in the segment of the opening tag then. -/
theorem body_changes_last_call (options : Options) :
    (∀ w arguments word words, w.occurrence.arguments = .ofText arguments →
      Arguments.words arguments = word :: words → ChangesLastCall options word words w) ∧
    ∀ template p, compile options template = .ok p →
      ∀ before arguments source body source' after,
        Piece.ofText options.attributePrefix template =
          before ++ .tag (.opening .label arguments false) source ::
            (body ++ .tag (.closing .label) source' :: after) →
        Nested (Site.brackets (Piece.sites [] body)) →
        Nonempty (WrittenBack options (Piece.ofText options.attributePrefix template) before body
          arguments source p) :=
  ⟨fun _ _ _ _ ha hwords => changesLastCall options ha hwords,
    fun _ _ h _ _ _ _ _ _ hpieces hbody => nonempty_writtenBack h hpieces hbody⟩

/-- A label that spells both calls in its arguments, with a label in its body. -/
def spelledTemplate : Text :=
  "\x7blabel 'a.to_html()' class=.start_tag()\x7d".toList ++
    "b\x7blabel c\x7d\x7b/label\x7d\x7b/label\x7d".toList

/-- Its program: the other call is at the end of its code, and nowhere in the
code of the label in its body. -/
def spelledProgram : Program :=
  [.code ("let ctx = ctx.with_label(ctx.control(\"a.to_html()\")?.label(None)); ".toList ++
      ("if let Some(label) = ctx.label() \x7b out.push_str(&label.clone()".toList ++
      ".add_attributes(&[(\"class\", Some(\".start_tag()\".into()))]).start_tag()); \x7d".toList)),
    .text ['b'],
    .code ("let ctx = ctx.with_label(ctx.control(\"c\")?.label(None)); ".toList ++
      ("if let Some(label) = ctx.label() \x7b out.push_str(&label.clone()".toList ++
      ".add_attributes(&[]).to_html()); \x7d".toList)),
    .code "out.push_str(\"</label>\");".toList]

/-- Its code is changed at the end only. -/
theorem body_changes_last_call_of_spelled :
    ChangesLastCall {} "'a.to_html()'".toList ["class=.start_tag()".toList]
      ⟨{ name := "label".toList
         arguments := .ofText "'a.to_html()' class=.start_tag()".toList
         line := 1 }, {}⟩ ∧
    compile {} spelledTemplate = .ok spelledProgram ∧
    Nonempty (WrittenBack {} (Piece.ofText "n:".toList spelledTemplate) []
      [.text ['b'], .tag (.opening .label ['c'] false) "\x7blabel c\x7d".toList,
        .tag (.closing .label) "\x7b/label\x7d".toList]
      "'a.to_html()' class=.start_tag()".toList
      "\x7blabel 'a.to_html()' class=.start_tag()\x7d".toList spelledProgram) := by
  have hwords : Arguments.words "'a.to_html()' class=.start_tag()".toList =
      ["'a.to_html()'".toList, "class=.start_tag()".toList] := by
    repeat rw [Text.toList_eq (by rfl)]
    decide +kernel
  have hpieces : Piece.ofText "n:".toList spelledTemplate =
      [] ++ .tag (.opening .label "'a.to_html()' class=.start_tag()".toList false)
          "\x7blabel 'a.to_html()' class=.start_tag()\x7d".toList ::
        ([.text ['b'], .tag (.opening .label ['c'] false) "\x7blabel c\x7d".toList,
          .tag (.closing .label) "\x7b/label\x7d".toList] ++
          [.tag (.closing .label) "\x7b/label\x7d".toList]) := by
    delta spelledTemplate
    repeat rw [Text.toList_eq (by rfl)]
    decide +kernel
  have hstep : Directive.openingStep? .label "'a.to_html()' class=.start_tag()".toList true =
      some (.label (.literal "a.to_html()".toList)
        [("class".toList, .value (.literal ".start_tag()".toList))] false) := by
    repeat rw [Text.toList_eq (by rfl)]
    decide +kernel
  have hlaidOut : LaidOut (Piece.ofText ({} : Options).attributePrefix spelledTemplate)
      [[.label (.literal "a.to_html()".toList)
          [("class".toList, .value (.literal ".start_tag()".toList))] false],
        [.text ['b']], [.label (.literal ['c']) [] true], [], [.endLabel]] := by
    have hinner : LaidOut [.tag (.opening .label ['c'] false) "\x7blabel c\x7d".toList,
        .tag (.closing .label) "\x7b/label\x7d".toList] [[.label (.literal ['c']) [] true], []] :=
      .block rfl .nil rfl
    exact hpieces ▸ .block rfl (.append (.text (List.cons_ne_nil _ _)) hinner) hstep
  have hprogram : Script.program "::fw_runtime".toList [.label (.literal "a.to_html()".toList)
      [("class".toList, .value (.literal ".start_tag()".toList))] false, .text ['b'],
      .label (.literal ['c']) [] true, .endLabel] = spelledProgram := by
    delta spelledProgram
    repeat rw [Text.toList_eq (by rfl)]
    decide +kernel
  have hcompile : compile {} spelledTemplate = .ok spelledProgram :=
    (compile_of_laidOut hlaidOut).trans (congrArg Except.ok hprogram)
  obtain ⟨hcall, hwritten⟩ := body_changes_last_call {}
  exact ⟨hcall _ _ _ _ rfl hwords, hcompile,
    hwritten _ _ hcompile _ _ _ _ _ _ hpieces (Nested.pair Directive.label .nil)⟩

end LabelDirective

end Template

end FormTemplate
