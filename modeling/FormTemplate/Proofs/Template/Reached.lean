import FormTemplate.Proofs.Template.Layout

/-!
# How far the compiler has come

`Reached` relates a compilation to the pieces it has taken: the program it
is writing is that of a laid-out part of the template, which stands inside
the opening tags of the directives still open (`Underway`). One more piece
either keeps that up or is refused for a reason that the state shows
(`Reached.piece`), so a whole run ends in a laid-out template or at the first
piece that is refused (`Reached.run`).
-/

namespace FormTemplate

namespace Template

variable {options : Options} {ps qs : List Piece} {c c' : Compilation} {source : Text}

/-! ## The state and the pieces -/

/-- **The part of a template up to the innermost open tag**, and the program
of it: each open directive with the part before it that is laid out already.
The program ends with the opening code of the directive, and the directive
remembers that place, in the program and in the template. -/
inductive Underway (runtimePath : Text) : List Piece → List OpenDirective → Program → Prop
  /-- Nothing is open. -/
  | nil : Underway runtimePath [] [] []
  /-- A directive is open. -/
  | cons {outer body : List Piece} {parts : List Script} {unclosed : List OpenDirective}
      {before : Program} {d : Directive} {arguments : Text} (source : Text) {step : Step}
      {a : Arguments} :
    Underway runtimePath outer unclosed before → LaidOut body parts → d.isPaired = true →
    d.openingStep? arguments false = some step →
    Underway runtimePath (outer ++ body ++ [.tag (.opening d arguments false) source])
      ({ directive := d
         occurrence :=
          { name := d.name
            arguments := a
            line := 1 + ((outer ++ body).flatMap Piece.source).count '\n'
            opening := step.code runtimePath }
         segment := (before ++ Script.program runtimePath parts.flatten).length
         bodyStart := ((outer ++ body).flatMap Piece.source ++ source).length } :: unclosed)
      ((before ++ Script.program runtimePath parts.flatten).pushCode (step.code runtimePath))

/-- **What a compilation has made of the pieces it has taken.** -/
structure Reached (runtimePath : Text) (ps : List Piece) (c : Compilation) : Prop where
  /-- The program is that of a laid-out part, behind the open tags. -/
  layout : ∃ outer body parts before, ps = outer ++ body ∧
    Underway runtimePath outer c.unclosed before ∧ LaidOut body parts ∧
    c.program = before ++ Script.program runtimePath parts.flatten
  /-- The containers entered are those of the open directives. -/
  depth : c.bindings.depth = c.unclosed.countP (·.directive == .formContainer)
  /-- The line is counted from the first. -/
  line : c.line = 1 + (ps.flatMap Piece.source).count '\n'
  /-- What has been read is the pieces. -/
  read : c.read = ps.flatMap Piece.source
  /-- None of them is empty. -/
  sources : ∀ p ∈ ps, p.source ≠ []

/-- **Why a tag is refused**, with the error it is refused with. -/
inductive Refused (options : Options) (c : Compilation) : Tag → CompileError → Prop
  /-- An opening tag has no name. -/
  | nameless {d : Directive} {arguments : Text} {selfClosing : Bool} :
    d.openingStep? arguments false = none →
    Refused options c (.opening d arguments selfClosing) d.nameError
  /-- The directive that a start tag carries has no name. -/
  | namelessAttribute {name arguments tail : Text} {d : Directive}
      {attributes : List RawAttribute} :
    Directive.attributeStep? name arguments attributes = none →
    Refused options c (.element name d arguments attributes tail)
      (.missingName (options.attributePrefix ++ d.name))
  /-- Nothing is open. -/
  | unexpected {d : Directive} :
    c.unclosed = [] → Refused options c (.closing d) (.unexpectedClose d c.line)
  /-- Something else is open. -/
  | mismatched {d : Directive} {inner : OpenDirective} {unclosed : List OpenDirective} :
    c.unclosed = inner :: unclosed → inner.directive ≠ d →
    Refused options c (.closing d) (.mismatchedClose inner.directive d c.line)

theorem Reached.nil (runtimePath : Text) : Reached runtimePath [] {} where
  layout := ⟨[], [], [], [], rfl, .nil, .nil, rfl⟩
  depth := rfl
  line := rfl
  read := rfl
  sources := nofun

/-- Text behind the open tags does not join what stands before them. -/
theorem Underway.pushText_append {runtimePath : Text} {outer : List Piece}
    {unclosed : List OpenDirective} {before : Program}
    (h : Underway runtimePath outer unclosed before) (q : Program) (s : Text) :
    (before ++ q).pushText s = before ++ q.pushText s := by
  cases h with
  | nil => rfl
  | cons =>
    rw [Program.pushCode, List.append_assoc, Program.pushText_append _ (by simp),
      List.singleton_append, Program.pushText_cons_code]
    simp

theorem Compilation.generate_ok {occurrence : Occurrence} {step : GenerateM Unit} {w : Work}
    (h : step.run { occurrence, bindings := c.bindings } = (.ok (), w)) :
    c.generate occurrence step = .ok (w.occurrence, { c with bindings := w.bindings }) := by
  rw [generate, h]

theorem Compilation.generate_error {occurrence : Occurrence} {step : GenerateM Unit} {w : Work}
    {e : CompileError} (h : step.run { occurrence, bindings := c.bindings } = (.error e, w)) :
    c.generate occurrence step = .error e := by
  rw [generate, h]

/-! ## What the steps of a directive do to the bindings -/

namespace Directive

variable {d : Directive} {arguments : Text} {hasBody hasBody' : Bool} {step step' : Step}
variable {b b' : BindingStack}

/-- How many containers a directive enters. -/
def levels (d : Directive) : Nat := if d = .formContainer then 1 else 0

/-- Whether there is a body does not matter to the bindings. -/
theorem bind_openingStep? (h : d.openingStep? arguments hasBody = some step)
    (h' : d.openingStep? arguments hasBody' = some step') (b : BindingStack) :
    step'.bind b = step.bind b := by
  obtain ⟨word, words, hwords⟩ := words_of_openingStep? h
  unfold openingStep? at h h'
  rw [hwords] at h h'
  cases d with
  | form => cases h; cases h'; rfl
  | formContainer => cases h; cases h'; rfl
  | label => cases h; cases h'; rfl
  | input => rw [Option.some.inj (h'.symm.trans h)]

theorem levels_of_unpaired (h : d.isPaired = false) : d.levels = 0 := by
  cases d with
  | input => rfl
  | form | formContainer | label => cases h

/-- An opening tag enters its container. -/
theorem depth_of_bind (h : d.openingStep? arguments hasBody = some step)
    (hbind : step.bind b = .ok b') : b'.depth = b.depth + d.levels := by
  have hstep := openingStep?_eq_some h
  cases d with
  | form => obtain ⟨name, as, rfl⟩ := hstep; cases hbind; rfl
  | formContainer => obtain ⟨name, rfl⟩ := hstep; cases hbind; rfl
  | label => obtain ⟨name, as, rfl⟩ := hstep; cases hbind; rfl
  | input => obtain ⟨name, parts, as, rfl⟩ := hstep; cases hbind; rfl

/-- **A closing tag leaves its container**, when there is one to leave. -/
theorem bindings_closingSteps (d : Directive) (hasBody : Bool) (hdepth : d.levels ≤ b.depth) :
    ∃ b', Script.bindings (d.closingSteps hasBody) b = .ok b' ∧
      b'.depth + d.levels = b.depth := by
  cases d with
  | form => exact ⟨b, rfl, rfl⟩
  | formContainer =>
    obtain ⟨current, saved⟩ := b
    cases saved with
    | nil => exact absurd hdepth (Nat.not_succ_le_zero 0)
    | cons binding saved => exact ⟨⟨binding, saved⟩, rfl, rfl⟩
  | label =>
    refine ⟨b, ?_, rfl⟩
    cases hasBody <;> rfl
  | input => exact ⟨b, rfl, rfl⟩

theorem bindings_closingSteps_eq (d : Directive) (hasBody hasBody' : Bool) (b : BindingStack) :
    Script.bindings (d.closingSteps hasBody) b = Script.bindings (d.closingSteps hasBody') b := by
  cases d <;> cases hasBody <;> cases hasBody' <;> rfl

end Directive

/-! ## What the tags make of a compilation -/

namespace Compilation

variable {d : Directive} {arguments : Text} {step : Step}

/-- A directive that is not to be closed writes its code at once. -/
theorem openTag_of_unpaired (options : Options) (c : Compilation) (selfClosing : Bool)
    (source : Text) (hpaired : d.isPaired = false)
    (hstep : d.openingStep? arguments false = some step) :
    ∃ b, step.bind c.bindings = .ok b ∧
      c.openTag options d arguments selfClosing source =
        .ok { c with
          program := c.program.pushCode (step.code options.runtimePath), bindings := b } := by
  obtain ⟨a, b, hbind, hrun⟩ := Directive.generateOpening_run options
    (w := ⟨⟨d.name, .ofText arguments, c.line, none, none, [], []⟩, c.bindings⟩) rfl hstep
  refine ⟨b, hbind, ?_⟩
  rw [openTag, generate_ok hrun]
  simp [hpaired]

/-- A self-closing tag writes the opening and the closing code, with no
body in between. -/
theorem openTag_of_selfClosing (options : Options) (c : Compilation) (source : Text)
    (hpaired : d.isPaired = true) (hstep : d.openingStep? arguments false = some step) :
    ∃ b b', step.bind c.bindings = .ok b ∧
      Script.bindings (d.closingSteps false) b = .ok b' ∧
      b'.depth = c.bindings.depth ∧
      c.openTag options d arguments true source =
        .ok { c with
          program := (c.program.pushCode (step.code options.runtimePath)).pushNonemptyCode
            (Directive.closingCode options.runtimePath d false)
          bindings := b' } := by
  obtain ⟨a, b, hbind, hrun⟩ := Directive.generateOpening_run options
    (w := ⟨⟨d.name, .ofText arguments, c.line, none, none, [], []⟩, c.bindings⟩) rfl hstep
  -- What the opening step has entered is there for the closing steps to leave.
  have hdepth := Directive.depth_of_bind hstep hbind
  obtain ⟨b', hb', hdepth'⟩ := Directive.bindings_closingSteps d false (b := b) (by omega)
  obtain ⟨step', hstep', hrun'⟩ := Directive.generateClosing_run options
    (w := ⟨⟨d.name, a, c.line, none, none, step.code options.runtimePath, []⟩, b⟩)
    hstep rfl rfl hb'
  obtain rfl : step' = step := Option.some.inj (hstep'.symm.trans hstep)
  refine ⟨b, b', hbind, hb', Nat.add_right_cancel (hdepth'.trans hdepth), ?_⟩
  rw [openTag, generate_ok hrun]
  simp only [hpaired, Bool.not_true, Bool.false_eq_true, if_false, if_true]
  change ((generate { c with bindings := b } _ _).bind _) = _
  rw [generate_ok hrun']
  rfl

/-- A tag that opens a body writes its code and remembers where. -/
theorem openTag_of_paired (options : Options) (c : Compilation) (source : Text)
    (hpaired : d.isPaired = true) (hstep : d.openingStep? arguments false = some step) :
    ∃ a b, step.bind c.bindings = .ok b ∧
      c.openTag options d arguments false source =
        .ok { c with
          program := c.program.pushCode (step.code options.runtimePath)
          unclosed :=
            { directive := d
              occurrence :=
                { name := d.name, arguments := a, line := c.line
                  opening := step.code options.runtimePath }
              segment := c.program.length
              bodyStart := (c.read ++ source).length } :: c.unclosed
          bindings := b } := by
  obtain ⟨a, b, hbind, hrun⟩ := Directive.generateOpening_run options
    (w := ⟨⟨d.name, .ofText arguments, c.line, none, none, [], []⟩, c.bindings⟩) rfl hstep
  refine ⟨a, b, hbind, ?_⟩
  rw [openTag, generate_ok hrun]
  simp [hpaired]

/-- **A closing tag writes the opening code again**, into the segment where it
stands: it depends on whether there is a body. The closing code comes behind
the body. -/
theorem closeTag_of_innermost {inner : OpenDirective} {unclosed : List OpenDirective}
    {hasBody : Bool} (hunclosed : c.unclosed = inner :: unclosed)
    (hbody : (c.read.drop inner.bodyStart).isEmpty = !hasBody)
    (hstep : inner.directive.openingStep? arguments false = some step)
    (hopening : inner.occurrence.opening = step.code options.runtimePath)
    (hclosing : inner.occurrence.closing = [])
    (hdepth : inner.directive.levels ≤ c.bindings.depth) :
    ∃ step' b, inner.directive.openingStep? arguments hasBody = some step' ∧
      Script.bindings (inner.directive.closingSteps hasBody) c.bindings = .ok b ∧
      b.depth + inner.directive.levels = c.bindings.depth ∧
      c.closeTag options inner.directive = .ok { c with
        program := (c.program.setCode inner.segment
          (step'.code options.runtimePath)).pushNonemptyCode
            (Directive.closingCode options.runtimePath inner.directive hasBody)
        unclosed
        bindings := b } := by
  obtain ⟨b, hb, hdepth'⟩ := Directive.bindings_closingSteps inner.directive hasBody hdepth
  have hfound : (inner.occurrence.withBody (c.read.drop inner.bodyStart)).hasBody = hasBody := by
    rw [Occurrence.hasBody_withBody, hbody, Bool.not_not]
  obtain ⟨step', hstep', hrun⟩ := Directive.generateClosing_run options
    (w := ⟨inner.occurrence.withBody (c.read.drop inner.bodyStart), c.bindings⟩)
    hstep hopening hclosing (by rw [hfound, hb])
  rw [hfound] at hstep' hrun
  refine ⟨step', b, hstep', hb, hdepth', ?_⟩
  rw [closeTag, hunclosed]
  simp only [ne_eq, not_true_eq_false, if_false]
  change (generate c _ _).bind _ = _
  rw [generate_ok hrun]
  rfl

/-- The start tag of an element keeps its name in front of the code and
its attributes behind. -/
theorem elementTag_of_attributeStep? (options : Options) (c : Compilation) {name : Text}
    {attributes : List RawAttribute} (tail : Text)
    (hstep : Directive.attributeStep? name arguments attributes = some step) :
    step.bind c.bindings = .ok c.bindings ∧
      c.elementTag options name .input arguments attributes tail = .ok { c with
        program := ((c.program.pushText ('<' :: name)).pushCode
          (step.code options.runtimePath)).pushText
            (RawAttribute.sources attributes ++ tail) } := by
  obtain ⟨hbind, a, hrun⟩ := Directive.generateAttribute_run options
    (w := ⟨⟨Directive.input.name, .ofText arguments, c.line,
      some { name, attributes := attributes.map fun a => (a.name, a.value) }, none, [], []⟩,
      c.bindings⟩) rfl rfl hstep
  refine ⟨hbind, ?_⟩
  rw [elementTag, generate_ok hrun]
  rfl

end Compilation

/-! ## One more piece -/

/-- What follows when a piece is taken. -/
structure Taken (runtimePath : Text) (ps : List Piece) (p : Piece) (c c' : Compilation) : Prop where
  /-- The piece is among those taken. -/
  reached : Reached runtimePath (ps ++ [p]) c'
  /-- The bindings are those that the steps of the piece leave. -/
  bindings : ∀ part, Placed p part → Script.bindings part c.bindings = .ok c'.bindings

/-- A piece is taken when its source is read and its program stands behind the
open tags. -/
theorem Reached.advance (h : Reached options.runtimePath ps c) {p : Piece} (hp : p.source ≠ [])
    (hline : c'.line = c.line) (hread : c'.read = c.read)
    (hlayout : ∃ outer body parts before, ps ++ [p] = outer ++ body ∧
      Underway options.runtimePath outer c'.unclosed before ∧ LaidOut body parts ∧
      c'.program = before ++ Script.program options.runtimePath parts.flatten)
    (hdepth : c'.bindings.depth = c'.unclosed.countP (·.directive == .formContainer)) :
    Reached options.runtimePath (ps ++ [p]) (c'.advance p.source) where
  layout := hlayout
  depth := hdepth
  line := by
    simp only [Compilation.advance, hline, h.line, List.flatMap_append, List.flatMap_singleton,
      List.count_append]
    omega
  read := by
    rw [Compilation.advance, hread, h.read, List.flatMap_append, List.flatMap_singleton]
  sources := List.forall_mem_append.2 ⟨h.sources, List.forall_mem_singleton.2 hp⟩

theorem Reached.text (h : Reached options.runtimePath ps c) {s : Text} (hs : s ≠ []) :
    ∃ c', c.piece options (.text s) = .ok c' ∧
      Taken options.runtimePath ps (.text s) c c' := by
  obtain ⟨outer, body, parts, before, rfl, houter, hbody, hprogram⟩ := h.layout
  have hlayout : c.program.pushText s =
      before ++ Script.program options.runtimePath (parts ++ [[Step.text s]]).flatten := by
    rw [List.flatten_append, List.flatten_singleton, Script.program_text, hprogram,
      houter.pushText_append]
  refine ⟨_, rfl, ⟨h.advance (p := .text s) hs rfl rfl ⟨outer, _, _, before,
    List.append_assoc .., houter, hbody.append (.text hs), hlayout⟩ h.depth, ?_⟩⟩
  rintro part ⟨⟩
  rfl

/-- The opening step comes first, whether or not it knows of a body. -/
theorem Script.bindings_openingStep? {d : Directive} {arguments : Text}
    {hasBody hasBody' : Bool} {step step' : Step} {b b' : BindingStack}
    (hstep : d.openingStep? arguments hasBody = some step) (hbind : step.bind b = .ok b')
    (hstep' : d.openingStep? arguments hasBody' = some step') (part : Script) :
    Script.bindings (step' :: part) b = Script.bindings part b' := by
  rw [Script.bindings, List.foldlM_cons, Directive.bind_openingStep? hstep hstep', hbind]
  rfl

/-- **An opening tag with a name is taken.** -/
theorem Reached.openTag (h : Reached options.runtimePath ps c) {d : Directive} {arguments : Text}
    {selfClosing : Bool} {step : Step} (hstep : d.openingStep? arguments false = some step)
    (hsource : source ≠ []) :
    ∃ c', c.openTag options d arguments selfClosing source = .ok c' ∧
      Taken options.runtimePath ps (.tag (.opening d arguments selfClosing) source) c
        (c'.advance source) := by
  obtain ⟨outer, body, parts, before, rfl, houter, hbody, hprogram⟩ := h.layout
  have hsegment := Directive.segment_of_openingStep? options.runtimePath hstep
  cases hpaired : d.isPaired with
  | false =>
    obtain ⟨b, hbind, hresult⟩ := c.openTag_of_unpaired options selfClosing source hpaired hstep
    have hdepth := Directive.depth_of_bind hstep hbind
    rw [Directive.levels_of_unpaired hpaired, Nat.add_zero] at hdepth
    have hlayout : c.program.pushCode (step.code options.runtimePath) =
        before ++ Script.program options.runtimePath (parts ++ [[step]]).flatten := by
      rw [List.flatten_append, List.flatten_singleton, Script.program_code hsegment, hprogram,
        Program.pushCode, Program.pushCode, List.append_assoc]
    refine ⟨_, hresult, h.advance (p := .tag _ source) hsource rfl rfl ⟨outer, _, _, before,
      List.append_assoc .., houter, hbody.append (.unpaired hpaired hstep), hlayout⟩
      (hdepth.trans h.depth), ?_⟩
    rintro part ⟨⟩
    rw [Script.bindings_openingStep? hstep hbind ‹_›, hpaired]
    rfl
  | true =>
    cases selfClosing with
    | true =>
      obtain ⟨b, b', hbind, hb', hdepth, hresult⟩ :=
        c.openTag_of_selfClosing options source hpaired hstep
      have hlayout : (c.program.pushCode (step.code options.runtimePath)).pushNonemptyCode
          (Directive.closingCode options.runtimePath d false) =
          before ++ Script.program options.runtimePath
            (parts ++ [step :: d.closingSteps false]).flatten := by
        rw [List.flatten_append, List.flatten_singleton, List.append_cons,
          ← Directive.pushNonemptyCode_closingCode, Script.program_code hsegment, hprogram,
          Program.pushCode, Program.pushCode, List.append_assoc, Program.pushNonemptyCode_append]
      refine ⟨_, hresult, h.advance (p := .tag _ source) hsource rfl rfl ⟨outer, _, _, before,
        List.append_assoc .., houter, hbody.append (.selfClosing hpaired hstep), hlayout⟩
        (hdepth.trans h.depth), ?_⟩
      rintro part ⟨⟩
      rw [Script.bindings_openingStep? hstep hbind ‹_›, hpaired]
      exact hb'
    | false =>
      obtain ⟨a, b, hbind, hresult⟩ := c.openTag_of_paired options source hpaired hstep
      have hdepth := Directive.depth_of_bind hstep hbind
      -- All that was laid out so far now stands before an open tag.
      have hunderway := Underway.cons (a := a) source houter hbody hpaired hstep
      rw [← h.line, ← h.read, ← hprogram] at hunderway
      refine ⟨_, hresult, h.advance (p := .tag _ source) hsource rfl rfl ⟨_, [], [], _,
        (List.append_nil _).symm, hunderway, .nil, (List.append_nil _).symm⟩ ?_, ?_⟩
      · refine hdepth.trans ?_
        change c.bindings.depth + d.levels = List.countP _ (_ :: c.unclosed)
        rw [List.countP_cons, h.depth]
        cases d <;> rfl
      · rintro part ⟨⟩
        rw [Script.bindings_openingStep? hstep hbind ‹_›, hpaired]
        rfl

/-- **The closing tag of the innermost open directive is taken.** -/
theorem Reached.closeTag (h : Reached options.runtimePath ps c) {inner : OpenDirective}
    {unclosed : List OpenDirective} (hunclosed : c.unclosed = inner :: unclosed)
    (hsource : source ≠ []) :
    ∃ c', c.closeTag options inner.directive = .ok c' ∧
      Taken options.runtimePath ps (.tag (.closing inner.directive) source) c
        (c'.advance source) := by
  obtain ⟨outer, body, parts, before, rfl, hunderway, hbody, hprogram⟩ := h.layout
  have hdepth := h.depth
  have hsources := h.sources
  -- The opening tag is the last of what is underway, so the body follows it.
  rw [hunclosed] at hunderway hdepth
  rw [List.countP_cons] at hdepth
  cases hunderway with
  | @cons outer former parts' _ before d arguments source' step a houter hformer hpaired hstep =>
  have hlevels : (if (d == Directive.formContainer) = true then 1 else 0) = d.levels := by
    cases d <;> rfl
  rw [hlevels] at hdepth
  -- What has been read behind the opening tag is the body, and no piece of it is empty.
  have hempty : (c.read.drop ((outer ++ former).flatMap Piece.source ++ source').length).isEmpty =
      !!body.isEmpty := by
    have hread : c.read = ((outer ++ former).flatMap Piece.source ++ source') ++
        body.flatMap Piece.source := by
      rw [h.read]
      simp [Piece.source]
    rw [hread, List.drop_left, Bool.not_not, Bool.eq_iff_iff, List.isEmpty_iff, List.isEmpty_iff,
      List.flatMap_eq_nil_iff]
    exact ⟨fun hall => List.eq_nil_iff_forall_not_mem.2 fun p hp =>
      hsources p (List.mem_append_right _ hp) (hall p hp), fun hnil => by simp [hnil]⟩
  obtain ⟨step', b, hstep', hb, hdepth', hresult⟩ :=
    Compilation.closeTag_of_innermost hunclosed hempty hstep rfl rfl (by dsimp only; omega)
  dsimp only at hstep' hb hdepth' hresult
  have hsegment := Directive.segment_of_openingStep? options.runtimePath hstep'
  have hlayout : (c.program.setCode (before ++ Script.program options.runtimePath
        parts'.flatten).length (step'.code options.runtimePath)).pushNonemptyCode
          (Directive.closingCode options.runtimePath d !body.isEmpty) =
      before ++ Script.program options.runtimePath
        (parts' ++ ([step'] :: parts ++ [d.closingSteps !body.isEmpty])).flatten := by
    have hflatten : (parts' ++ ([step'] :: parts ++ [d.closingSteps !body.isEmpty])).flatten =
        (parts'.flatten ++ step' :: parts.flatten) ++ d.closingSteps !body.isEmpty := by
      simp
    rw [hflatten, ← Directive.pushNonemptyCode_closingCode, Script.program_append_cons hsegment,
      hprogram, Program.setCode_pushCode_append, ← Program.pushNonemptyCode_append]
    simp only [Program.pushCode, List.append_assoc]
  refine ⟨_, hresult, h.advance (p := .tag _ source) hsource rfl rfl ⟨outer,
    former ++ (.tag (.opening d arguments false) source' :: body ++ [.tag (.closing d) source]),
    _, before, by simp, houter, hformer.append (.block hpaired hbody hstep'), hlayout⟩
    (Nat.add_right_cancel (hdepth'.trans hdepth)), ?_⟩
  rintro part ⟨⟩
  rw [Directive.bindings_closingSteps_eq d _ !body.isEmpty]
  exact hb

/-- The directive that a start tag carries has an attribute form. -/
theorem Tag.eq_input_of_parsed {attributePrefix name arguments tail : Text} {d : Directive}
    {attributes : List RawAttribute}
    (h : Tag.Parsed attributePrefix (.element name d arguments attributes tail) source) :
    d = .input := by
  cases h with
  | element hd =>
    obtain ⟨rest, -, h⟩ := Option.bind_eq_some_iff.1 hd
    obtain ⟨d', -, h⟩ := Option.bind_eq_some_iff.1 h
    cases d' <;> simp [Directive.hasAttributeForm] at h
    exact h.symm

/-- **A start tag whose directive has a name is taken.** -/
theorem Reached.elementTag (h : Reached options.runtimePath ps c) {name arguments : Text}
    {attributes : List RawAttribute} {step : Step}
    (hstep : Directive.attributeStep? name arguments attributes = some step)
    (tail : Text) (hsource : source ≠ []) :
    ∃ c', c.elementTag options name .input arguments attributes tail = .ok c' ∧
      Taken options.runtimePath ps (.tag (.element name .input arguments attributes tail) source)
        c (c'.advance source) := by
  obtain ⟨outer, body, parts, before, rfl, houter, hbody, hprogram⟩ := h.layout
  obtain ⟨hbind, hresult⟩ := c.elementTag_of_attributeStep? options tail hstep
  have hsegment := Directive.segment_of_attributeStep? options.runtimePath hstep
  have hlayout : ((c.program.pushText ('<' :: name)).pushCode
        (step.code options.runtimePath)).pushText (RawAttribute.sources attributes ++ tail) =
      before ++ Script.program options.runtimePath (parts ++ [[.text ('<' :: name), step,
        .text (RawAttribute.sources attributes ++ tail)]]).flatten := by
    have hflatten : (parts ++ [[.text ('<' :: name), step,
          .text (RawAttribute.sources attributes ++ tail)]]).flatten =
        (parts.flatten ++ [.text ('<' :: name)]) ++ [step] ++
          [.text (RawAttribute.sources attributes ++ tail)] := by
      simp
    rw [hflatten, Script.program_text, Script.program_code hsegment, Script.program_text,
      ← houter.pushText_append, hprogram, houter.pushText_append, Program.pushCode,
      Program.pushCode, List.append_assoc]
  refine ⟨_, hresult, h.advance (p := .tag _ source) hsource rfl rfl ⟨outer, _, _, before,
    List.append_assoc .., houter, hbody.append (.element hstep), hlayout⟩ h.depth, ?_⟩
  intro part hpart
  cases hpart with
  | element hstep' =>
    obtain rfl := Option.some.inj (hstep.symm.trans hstep')
    change (do
      let b ← step.bind c.bindings
      Script.bindings _ b) = _
    rw [hbind]
    rfl

/-! ## Taken or refused -/

/-- **A tag that is refused fails** with the error it is refused with. -/
theorem tag_of_refused {t : Tag} {e : CompileError}
    (ht : Tag.Parsed options.attributePrefix t source) (h : Refused options c t e) :
    c.tag options source t = .error e := by
  cases h with
  | @nameless d arguments selfClosing h =>
    obtain ⟨w, hrun⟩ := Directive.generateOpening_of_nameless options
      (w := ⟨⟨d.name, .ofText arguments, c.line, none, none, [], []⟩, c.bindings⟩) rfl rfl h
    rw [Compilation.tag, Compilation.openTag, Compilation.generate_error hrun]
    rfl
  | @namelessAttribute name arguments tail d attributes h =>
    obtain rfl := Tag.eq_input_of_parsed ht
    obtain ⟨w, hrun⟩ := Directive.generateAttribute_of_nameless options
      (w := ⟨⟨Directive.input.name, .ofText arguments, c.line,
        some { name, attributes := attributes.map fun a => (a.name, a.value) }, none, [], []⟩,
        c.bindings⟩) rfl h
    rw [Compilation.tag, Compilation.elementTag, Compilation.generate_error hrun]
    rfl
  | unexpected h => rw [Compilation.tag, Compilation.closeTag, h]; rfl
  | mismatched h hne =>
    rw [Compilation.tag, Compilation.closeTag, h]
    simp only [ne_eq, hne, not_false_eq_true, if_true]
    rfl

/-- **A piece is taken or refused.** -/
theorem Reached.piece (h : Reached options.runtimePath ps c) {p : Piece}
    (hp : p.Faithful options.attributePrefix) :
    (∃ c', c.piece options p = .ok c' ∧ Taken options.runtimePath ps p c c') ∨
      ∃ t source e, p = .tag t source ∧ Refused options c t e := by
  cases p with
  | text s => exact .inl (h.text hp)
  | tag t source =>
    have hsource : source ≠ [] := hp.source_ne_nil
    cases t with
    | opening d arguments selfClosing =>
      cases hstep : d.openingStep? arguments false with
      | none => exact .inr ⟨_, _, _, rfl, .nameless hstep⟩
      | some step =>
        obtain ⟨c', htag, htaken⟩ := h.openTag hstep hsource
        refine .inl ⟨_, ?_, htaken⟩
        rw [Compilation.piece, Compilation.tag, htag]
        rfl
    | closing d =>
      cases hunclosed : c.unclosed with
      | nil => exact .inr ⟨_, _, _, rfl, .unexpected hunclosed⟩
      | cons inner unclosed =>
        by_cases hd : inner.directive = d
        · subst hd
          obtain ⟨c', htag, htaken⟩ := h.closeTag hunclosed hsource
          refine .inl ⟨_, ?_, htaken⟩
          rw [Compilation.piece, Compilation.tag, htag]
          rfl
        · exact .inr ⟨_, _, _, rfl, .mismatched hunclosed hd⟩
    | element name d arguments attributes tail =>
      obtain rfl := Tag.eq_input_of_parsed hp
      cases hstep : Directive.attributeStep? name arguments attributes with
      | none => exact .inr ⟨_, _, _, rfl, .namelessAttribute hstep⟩
      | some step =>
        obtain ⟨c', htag, htaken⟩ := h.elementTag hstep tail hsource
        refine .inl ⟨_, ?_, htaken⟩
        rw [Compilation.piece, Compilation.tag, htag]
        rfl

theorem Reached.taken (h : Reached options.runtimePath ps c) {p : Piece}
    (hp : p.Faithful options.attributePrefix) (hok : c.piece options p = .ok c') :
    Taken options.runtimePath ps p c c' := by
  rcases h.piece hp with ⟨c'', heq, htaken⟩ | ⟨t, source, e, rfl, hrefused⟩
  · cases hok.symm.trans heq
    exact htaken
  · rw [Compilation.piece, tag_of_refused hp hrefused] at hok
    cases hok

/-- **A piece fails exactly when it is a tag that is refused.** -/
theorem Reached.piece_eq_error (h : Reached options.runtimePath ps c) {p : Piece}
    (hp : p.Faithful options.attributePrefix) {e : CompileError} :
    c.piece options p = .error e ↔ ∃ t source, p = .tag t source ∧ Refused options c t e := by
  constructor
  · intro hfail
    rcases h.piece hp with ⟨c', hok, -⟩ | ⟨t, source, e', rfl, hrefused⟩
    · cases hfail.symm.trans hok
    · rw [Compilation.piece, tag_of_refused hp hrefused] at hfail
      cases hfail
      exact ⟨t, source, rfl, hrefused⟩
  · rintro ⟨t, source, rfl, hrefused⟩
    rw [Compilation.piece, tag_of_refused hp hrefused]
    rfl

/-! ## Whole runs -/

/-- **What is reached after some pieces.** -/
theorem Reached.run (h : Reached options.runtimePath ps c)
    (hqs : ∀ q ∈ qs, q.Faithful options.attributePrefix)
    (hrun : qs.foldlM (Compilation.piece options) c = .ok c') :
    Reached options.runtimePath (ps ++ qs) c' := by
  induction qs generalizing ps c with
  | nil =>
    cases hrun
    rwa [List.append_nil]
  | cons q qs ih =>
    rw [List.foldlM_cons] at hrun
    cases hq : c.piece options q with
    | error e => rw [hq] at hrun; cases hrun
    | ok c₁ =>
      rw [hq] at hrun
      have htaken := h.taken (hqs q (by simp)) hq
      have hreached := ih htaken.reached (fun r hr => hqs r (by simp [hr])) hrun
      rwa [List.append_assoc, List.singleton_append] at hreached

/-- **The bindings after some pieces** are those that their steps leave. -/
theorem Reached.bindings_run (h : Reached options.runtimePath ps c)
    (hqs : ∀ q ∈ qs, q.Faithful options.attributePrefix)
    (hrun : qs.foldlM (Compilation.piece options) c = .ok c') {parts : List Script}
    (hparts : List.Forall₂ Placed qs parts) :
    Script.bindings parts.flatten c.bindings = .ok c'.bindings := by
  induction hparts generalizing ps c with
  | nil => cases hrun; rfl
  | @cons q part qs parts hpart _ ih =>
    rw [List.foldlM_cons] at hrun
    cases hq : c.piece options q with
    | error e => rw [hq] at hrun; cases hrun
    | ok c₁ =>
      rw [hq] at hrun
      have htaken := h.taken (hqs q (by simp)) hq
      rw [List.flatten_cons, Script.bindings, List.foldlM_append]
      have hbindings := htaken.bindings part hpart
      rw [Script.bindings] at hbindings
      rw [hbindings]
      exact ih htaken.reached (fun r hr => hqs r (by simp [hr])) hrun

/-- When everything is closed the program is finished. -/
theorem Reached.finish (h : Reached options.runtimePath ps c) (hclosed : c.unclosed = []) :
    c.finish = .ok c.program := by
  have hsaved : c.bindings.saved = [] := by
    have hdepth := h.depth
    rw [hclosed] at hdepth
    exact List.length_eq_zero_iff.1 hdepth
  rw [Compilation.finish, hclosed]
  simp only [BindingStack.finish, hsaved, List.isEmpty_nil, if_true]
  rfl

/-- When everything is closed the whole template is laid out. -/
theorem Reached.laidOut (h : Reached options.runtimePath ps c) (hclosed : c.unclosed = []) :
    ∃ parts, LaidOut ps parts ∧ c.program = Script.program options.runtimePath parts.flatten := by
  obtain ⟨outer, body, parts, before, rfl, houter, hbody, hprogram⟩ := h.layout
  rw [hclosed] at houter
  cases houter
  exact ⟨parts, hbody, hprogram⟩

/-- **A template that compiles is laid out**, and its program is that of
its steps. -/
theorem laidOut_of_compile {template : Text} {p : Program}
    (h : compile options template = .ok p) :
    ∃ parts, LaidOut (Piece.ofText options.attributePrefix template) parts ∧
      p = Script.program options.runtimePath parts.flatten := by
  rw [compile] at h
  cases hrun : (Piece.ofText options.attributePrefix template).foldlM
    (Compilation.piece options) {} with
  | error e => rw [hrun] at h; cases h
  | ok c =>
    rw [hrun] at h
    change c.finish = .ok p at h
    have hreached := (Reached.nil options.runtimePath).run
      (fun q hq => Piece.faithful_of_mem_ofText hq) hrun
    cases hunclosed : c.unclosed with
    | cons inner unclosed => rw [Compilation.finish, hunclosed] at h; cases h
    | nil =>
      rw [hreached.finish hunclosed] at h
      cases h
      exact hreached.laidOut hunclosed

/-- **A template that compiles has bindings at every place**: those that the
steps up to there leave. -/
theorem exists_bindings_of_compile {template : Text} {p : Program}
    (h : compile options template = .ok p) {parts : List Script}
    (hparts : List.Forall₂ Placed (Piece.ofText options.attributePrefix template) parts)
    {before after : List Piece}
    (hcut : Piece.ofText options.attributePrefix template = before ++ after) :
    ∃ c, before.foldlM (Compilation.piece options) {} = .ok c ∧
      Script.bindings (parts.take before.length).flatten {} = .ok c.bindings := by
  rw [compile, hcut, List.foldlM_append] at h
  cases hrun : before.foldlM (Compilation.piece options) {} with
  | error e => rw [hrun] at h; cases h
  | ok c =>
    have htaken := List.forall₂_take before.length hparts
    rw [hcut, List.take_left] at htaken
    refine ⟨c, rfl, (Reached.nil options.runtimePath).bindings_run (fun q hq => ?_) hrun htaken⟩
    exact Piece.faithful_of_mem_ofText (by rw [hcut]; simp [hq])

end Template

end FormTemplate
