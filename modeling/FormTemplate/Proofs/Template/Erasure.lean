import FormTemplate.Proofs.Template.Preservation
import FormTemplate.Proofs.Template.QuotedKeys
import FormTemplate.Proofs.Text.Literal

/-!
# Literals of the generated code

A template gives the generated code texts, keys, modifiers, and names and
values of attributes. All of them stand in string literals, unless they are
expressions. `Statement.emptied` takes the literals out of a statement, and
`Statement.scans_code` says that a reader of the source does the same: what
stands in a literal is never taken for code. What is left of a template
without expressions depends on its shape only (`compile_erases_alike`).
-/

namespace FormTemplate

namespace Template

open Literal (Scans)

/-! ## Literals and emptied code -/

namespace Word

/-- The texts that a word puts in literals. -/
def literals : Word → List Text
  | literal s => [s]
  | expression _ => []

/-- The word with nothing in its literal. -/
def emptied : Word → Word
  | literal _ => literal []
  | expression e => expression e

/-- Emptied literals are alike. -/
theorem map_emptied {ws : List Word} (h : ∀ w ∈ ws, w.isExpression = false) :
    ws.map emptied = List.replicate ws.length (literal []) := by
  rw [List.eq_replicate_iff]
  refine ⟨List.length_map _, fun w hw => ?_⟩
  obtain ⟨v, hv, rfl⟩ := List.mem_map.1 hw
  have hliteral := h v hv
  cases v with
  | literal s => rfl
  | expression e => cases hliteral

theorem scans_code {w : Word} (h : w.isExpression = false) :
    Scans w.code w.emptied.code w.literals := by
  cases w with
  | literal s => exact Literal.scans_quote s
  | expression e => cases h

end Word

namespace Assignment

/-- The texts that an assignment puts in literals. -/
def literals : Assignment → List Text
  | value w => w.literals
  | flag | absent => []

/-- The assignment with nothing in its literal. -/
def emptied : Assignment → Assignment
  | value w => value w.emptied
  | a => a

/-- Whether an attribute is set to a word. -/
def isValue : Assignment → Bool
  | value _ => true
  | flag | absent => false

/-- Whether an assignment is an expression. -/
def isExpression : Assignment → Bool
  | value w => w.isExpression
  | flag | absent => false

theorem scans_code {a : Assignment} (h : a.isExpression = false) :
    Scans a.code a.emptied.code a.literals := by
  cases a with
  | value w =>
    cases w with
    | literal s => exact Literal.scans_between (by rfl) (by decide) (by rfl) (by decide) s
    | expression e => cases h
  | flag => exact Literal.scans_toList (by rfl) (by decide)
  | absent => exact Literal.scans_toList (by rfl) (by decide)

end Assignment

namespace AttributeList

/-- The texts that attributes put in literals. -/
def literals (as : AttributeList) : List Text := as.flatMap fun a => a.1 :: a.2.literals

/-- The attributes with nothing in their literals. -/
def emptied (as : AttributeList) : AttributeList := as.map fun a => ([], a.2.emptied)

theorem scans_itemCode {a : Text × Assignment} (h : a.2.isExpression = false) :
    Scans (itemCode a) (itemCode ([], a.2.emptied)) (a.1 :: a.2.literals) := by
  have hopening : Scans ['('] ['('] [] := Literal.scans_of_plain (by decide)
  have hcomma : Scans ", ".toList ", ".toList [] := Literal.scans_toList (by rfl) (by decide)
  have hclosing : Scans [')'] [')'] [] := Literal.scans_of_plain (by decide)
  have hitem := (((hopening.append (Literal.scans_quote a.1)).append hcomma).append
    (Assignment.scans_code h)).append hclosing
  simpa [itemCode] using hitem

theorem scans_code {as : AttributeList} (h : ∀ a ∈ as, a.2.isExpression = false) :
    Scans as.code as.emptied.code as.literals := by
  have hopening : Scans "&[".toList "&[".toList [] := Literal.scans_toList (by rfl) (by decide)
  have hcomma : Scans ", ".toList ", ".toList [] := Literal.scans_toList (by rfl) (by decide)
  have hclosing : Scans [']'] [']'] [] := Literal.scans_of_plain (by decide)
  have hitems := Scans.intercalate hcomma fun a ha => scans_itemCode (h a ha)
  have hall := (hopening.append hitems).append hclosing
  simpa [code, emptied, literals, Function.comp_def] using hall

end AttributeList

/-! ## Statements -/

namespace ControlSource

/-- The texts that the way to a control puts in literals. -/
def literals : ControlSource → List Text
  | key k => [k]
  | bound => []

/-- The way to a control with nothing in its literal. -/
def emptied : ControlSource → ControlSource
  | key _ => key []
  | bound => bound

theorem scans_code (source : ControlSource) :
    Scans source.code source.emptied.code source.literals := by
  cases source with
  | key k => exact Literal.scans_between (by rfl) (by decide) (by rfl) (by decide) k
  | bound => exact Literal.scans_toList (by rfl) (by decide)

end ControlSource

theorem scans_partsCode {parts : List Word} (h : ∀ w ∈ parts, w.isExpression = false) :
    Scans (partsCode parts) (partsCode (parts.map .emptied)) (parts.flatMap Word.literals) := by
  have hcomma : Scans ", ".toList ", ".toList [] := Literal.scans_toList (by rfl) (by decide)
  have hparts := Scans.intercalate hcomma fun w hw => Word.scans_code (h w hw)
  simpa [partsCode, Function.comp_def] using hparts

namespace Statement

/-- **The texts that a statement puts in literals**, in order. -/
def literals : Statement → List Text
  | print s => [s]
  | letForm name | letContainer name => name.literals
  | withLabel k => [k]
  | beginForm as | printLabel as _ => as.literals
  | printControl source parts as | printAttributes source _ parts as =>
    source.literals ++ parts.flatMap Word.literals ++ as.literals
  | _ => []

/-- **A statement with nothing in its literals.** -/
def emptied : Statement → Statement
  | print _ => print []
  | letForm name => letForm name.emptied
  | letContainer name => letContainer name.emptied
  | withLabel _ => withLabel []
  | beginForm as => beginForm as.emptied
  | printLabel as whole => printLabel as.emptied whole
  | printControl source parts as => printControl source.emptied (parts.map .emptied) as.emptied
  | printAttributes source ofLabel parts as =>
    printAttributes source.emptied ofLabel (parts.map .emptied) as.emptied
  | s => s

/-- Whether an expression of the template is spelled in a statement. -/
def HasNoExpression : Statement → Prop
  | letForm name | letContainer name => name.isExpression = false
  | letInput _ => False
  | beginForm as | printLabel as _ => ∀ a ∈ as, a.2.isExpression = false
  | printControl _ parts as | printAttributes _ _ parts as =>
    (∀ w ∈ parts, w.isExpression = false) ∧ ∀ a ∈ as, a.2.isExpression = false
  | _ => True

/-- **A reader of the code sees the literals of a statement as such**, and
what is left is the code of the emptied statement. -/
theorem scans_code {s : Statement} {runtimePath : Text} (hpath : '"' ∉ runtimePath)
    (h : s.HasNoExpression) :
    Scans (s.code runtimePath) (s.emptied.code runtimePath) s.literals := by
  have hstring : ∀ {s : String} {l : Text}, s = String.ofList l → Literal.Plain l →
      Scans s.toList s.toList [] := fun hs hl => Literal.scans_toList hs hl
  delta Statement.code
  cases s with
  | print k | withLabel k =>
    exact Literal.scans_between (by rfl) (by decide) (by rfl) (by decide) k
  | letForm name | letContainer name =>
    cases name with
    | expression e => cases h
    | literal k => exact Literal.scans_between (by rfl) (by decide) (by rfl) (by decide) k
  | letInput e => cases h
  | enterForm | enterContainer | withInput | withInputAndLabel =>
    exact hstring (by rfl) (by decide)
  | openBlock => exact Literal.scans_of_plain (s := ['\x7b']) (by decide)
  | closeBlock => exact Literal.scans_of_plain (s := ['\x7d']) (by decide)
  | endForm => exact Literal.scans_append_toList hpath (by rfl) (by decide)
  | beginForm as =>
    have hitems := AttributeList.scans_code h
    refine Scans.of_eq (((Literal.scans_append_toList hpath (by rfl) (by decide)).append
      hitems).append (hstring (by rfl) (by decide))) ?_
    simp [literals]
  | printLabel as whole =>
    have hitems := AttributeList.scans_code h
    have hparen := Literal.scans_of_plain (s := [')']) (by decide)
    have hrender : Scans (if whole then ".to_html()" else ".start_tag()").toList
        (if whole then ".to_html()" else ".start_tag()").toList [] := by
      cases whole <;> exact hstring (by rfl) (by decide)
    refine Scans.of_eq (((((hstring (by rfl) (by decide)).append hitems).append hparen).append
      hrender).append (hstring (by rfl) (by decide))) ?_
    simp [literals]
  | printControl source parts as =>
    have hparts := scans_partsCode h.1
    have hitems := AttributeList.scans_code h.2
    refine Scans.of_eq (((((((hstring (by rfl) (by decide)).append source.scans_code).append
      (hstring (by rfl) (by decide))).append hparts).append (hstring (by rfl) (by decide))).append
      hitems).append (hstring (by rfl) (by decide))) ?_
    simp [literals]
  | printAttributes source ofLabel parts as =>
    have hparts := scans_partsCode h.1
    have hmethod : Scans (if ofLabel then ".get_label(&[" else ".get_control(&[").toList
        (if ofLabel then ".get_label(&[" else ".get_control(&[").toList [] := by
      cases ofLabel <;> exact hstring (by rfl) (by decide)
    -- Without attributes nothing is added to the element.
    have hattributes : Scans
        (if as.isEmpty then [] else ".add_attributes(".toList ++ as.code ++ [')'])
        (if as.emptied.isEmpty then [] else ".add_attributes(".toList ++ as.emptied.code ++ [')'])
        as.literals := by
      cases as with
      | nil => exact .nil
      | cons a as =>
        have hitems := AttributeList.scans_code h.2
        have hparen := Literal.scans_of_plain (s := [')']) (by decide)
        refine Scans.of_eq (((hstring (by rfl) (by decide)).append hitems).append hparen) ?_
        simp
    refine Scans.of_eq (((((((hstring (by rfl) (by decide)).append source.scans_code).append
      hmethod).append hparts).append (hstring (by rfl) (by decide))).append hattributes).append
      (hstring (by rfl) (by decide))) ?_
    simp [literals]

end Statement

/-! ## Steps -/

namespace Step

/-- Whether a step is text of the template. -/
def isText : Step → Bool
  | text _ => true
  | _ => false

/-- The texts that the code of a step puts in literals, in order. -/
def literals (s : Step) : List Text := s.statements.flatMap Statement.literals

/-- The statements of a step with nothing in their literals. -/
def emptied (s : Step) : List Statement := s.statements.map Statement.emptied

/-- Whether no expression of the template is spelled in a step. -/
def HasNoExpression (s : Step) : Prop := ∀ x ∈ s.statements, x.HasNoExpression

/-- What is left of a step when its texts are taken out. -/
def outline (s : Step) : Bool × List Statement := (s.isText, s.emptied)

theorem hasNoExpression_text (s : Text) : (text s).HasNoExpression := by
  intro x hx
  rw [statements, List.mem_singleton] at hx
  subst hx
  trivial

theorem exists_of_isText {s : Step} (h : s.isText = true) : ∃ r, s = .text r := by
  cases s with
  | text r => exact ⟨r, rfl⟩
  | _ => cases h

theorem segment_of_isText {s : Step} (h : s.isText = false) (runtimePath : Text) :
    s.segment runtimePath = .code (s.code runtimePath) := by
  cases s with
  | text r => cases h
  | _ => rfl

theorem scans_code {s : Step} {runtimePath : Text} (hpath : '"' ∉ runtimePath)
    (h : s.HasNoExpression) :
    Scans (s.code runtimePath) (Statement.line runtimePath s.emptied) s.literals := by
  have hspace : Scans [' '] [' '] [] := Literal.scans_of_plain (by decide)
  have hall := Scans.intercalate hspace fun x hx => Statement.scans_code hpath (h x hx)
  simpa [code, Statement.line, emptied, literals, Function.comp_def] using hall

end Step

namespace Script

variable {s t : Script} {runtimePath : Text}

/-- Puts a step in front of others; two texts that meet become one. -/
def attach : Step → Script → Script
  | .text r, .text r' :: s => .text (r ++ r') :: s
  | x, s => x :: s

/-- **Steps with all texts that stand side by side made one.** -/
def joined (s : Script) : Script := s.foldr attach []

@[simp] theorem joined_cons (x : Step) (s : Script) : joined (x :: s) = attach x (joined s) := rfl

/-- Only two texts become one. -/
theorem attach_cases (x : Step) (s : Script) :
    attach x s = x :: s ∨ ∃ r r' t, s = .text r' :: t ∧ attach x s = .text (r ++ r') :: t := by
  unfold attach
  split
  · exact .inr ⟨_, _, _, rfl, rfl⟩
  · exact .inl rfl

theorem attach_of_isText {x : Step} (h : x.isText = false) (s : Script) : attach x s = x :: s := by
  cases x with
  | text r => cases h
  | _ => cases s <;> rfl

/-- **A program has one segment for each of the joined steps.** -/
theorem program_eq_joined (h : .text [] ∉ s) :
    program runtimePath s = (joined s).map (Step.segment runtimePath) := by
  induction s with
  | nil => rfl
  | cons x s ih =>
    rw [List.mem_cons, not_or] at h
    have hrest := ih h.2
    rw [program] at hrest ⊢
    rw [segments, List.map_cons]
    cases hx : x.isText with
    | false =>
      have hcode := Program.ofSegments_append_code [] (segments runtimePath s) (x.code runtimePath)
      rw [List.nil_append] at hcode
      rw [Step.segment_of_isText hx, ← segments, hcode, hrest, joined_cons, attach_of_isText hx,
        List.map_cons, Step.segment_of_isText hx]
      rfl
    | true =>
      obtain ⟨r, rfl⟩ := Step.exists_of_isText hx
      have hr : r ≠ [] := by
        rintro rfl
        exact h.1 rfl
      have hfirst : Program.ofSegments [.text r] = [.text r] := by
        obtain ⟨c, r, rfl⟩ := List.exists_cons_of_ne_nil hr
        rfl
      have happend := Program.ofSegments_append [.text r] (segments runtimePath s)
      rw [List.singleton_append, hfirst, hrest] at happend
      rw [Step.segment, ← segments, happend, joined_cons]
      cases joined s with
      | nil => rfl
      | cons y t =>
        cases y with
        | text r' =>
          rw [List.map_cons, Step.segment, Program.join]
          obtain ⟨c, r, rfl⟩ := List.exists_cons_of_ne_nil hr
          cases r' <;> simp [Program.pushText, attach, Step.segment]
        | _ => rfl

theorem outline_attach {x y : Step} (hxy : x.outline = y.outline)
    (hst : s.map Step.outline = t.map Step.outline) :
    (attach x s).map Step.outline = (attach y t).map Step.outline := by
  have hisText : x.isText = y.isText := congrArg Prod.fst hxy
  cases hx : x.isText with
  | false =>
    rw [attach_of_isText hx, attach_of_isText (hisText ▸ hx), List.map_cons, List.map_cons, hxy, hst]
  | true =>
    obtain ⟨r, rfl⟩ := Step.exists_of_isText hx
    obtain ⟨r', rfl⟩ := Step.exists_of_isText (hisText ▸ hx)
    cases s with
    | nil =>
      rw [List.map_nil, eq_comm, List.map_eq_nil_iff] at hst
      rw [hst]
      rfl
    | cons a s =>
      obtain ⟨b, t, rfl, hab, htail⟩ := List.map_eq_cons_iff.1 hst.symm
      have hisText' : a.isText = b.isText := congrArg Prod.fst hab.symm
      -- All texts have one outline, joined or not.
      cases ha : a.isText with
      | true =>
        obtain ⟨u, rfl⟩ := Step.exists_of_isText ha
        obtain ⟨u', rfl⟩ := Step.exists_of_isText (hisText' ▸ ha)
        change (true, _) :: s.map Step.outline = (true, _) :: t.map Step.outline
        rw [htail]
        rfl
      | false =>
        have hcons : ∀ r u (v : Script), u.isText = false → attach (.text r) (u :: v) =
            .text r :: u :: v := by
          intro r u v hu
          cases u with
          | text u => cases hu
          | _ => rfl
        rw [hcons r a s ha, hcons r' b t (hisText' ▸ ha)]
        simp only [List.map_cons, hab, htail]
        rfl

/-- **The outline of the joined steps** is determined by that of the
steps. -/
theorem outline_joined (h : s.map Step.outline = t.map Step.outline) :
    (joined s).map Step.outline = (joined t).map Step.outline := by
  induction s generalizing t with
  | nil =>
    rw [List.map_nil, eq_comm, List.map_eq_nil_iff] at h
    rw [h]
  | cons x s ih =>
    cases t with
    | nil => cases h
    | cons y t =>
      obtain ⟨hxy, hst⟩ := List.cons.inj h
      exact outline_attach hxy (ih hst)

/-- The texts that the code of steps puts in literals, in order. -/
def literals (s : Script) : List Text := s.flatMap Step.literals

/-- Joining steps spells no expression. -/
theorem hasNoExpression_joined (h : ∀ x ∈ s, x.HasNoExpression) :
    ∀ x ∈ joined s, x.HasNoExpression := by
  induction s with
  | nil => simp [joined]
  | cons x s ih =>
    rw [List.forall_mem_cons] at h
    have hrest := ih h.2
    rw [joined_cons]
    rcases attach_cases x (joined s) with heq | ⟨r, r', t, hs, heq⟩
    · rw [heq, List.forall_mem_cons]
      exact ⟨h.1, hrest⟩
    · rw [hs, List.forall_mem_cons] at hrest
      rw [heq, List.forall_mem_cons]
      exact ⟨Step.hasNoExpression_text _, hrest.2⟩

end Script

/-! ## The source of a program -/

namespace Program

/-- The function that prints a template, with these lines in it. -/
def frame (functionName runtimePath lines : Text) : Text :=
  "#[allow(unused_variables, clippy::all)]\n".toList
    ++ signature functionName runtimePath ++ " \x7b\n".toList
    ++ lines
    ++ "    Ok(())\n\x7d\n".toList

/-- A statement line of that function. -/
def indented (code : Text) : Text := "    ".toList ++ code ++ ['\n']

theorem line_segment (x : Step) (runtimePath : Text) :
    line (x.segment runtimePath) = indented (x.code runtimePath) := by
  cases x with
  | text r =>
    have hcode : (Step.text r).code runtimePath =
        "out.push_str(".toList ++ Literal.quote r ++ ");".toList := by
      rw [Step.code, Step.statements, Statement.line_singleton]
      delta Statement.code
      rfl
    rw [hcode]
    delta line indented Step.segment
    dsimp only
    repeat rw [Text.toList_eq (by rfl)]
    simp
  | _ => rfl

theorem source_eq (p : Program) (functionName runtimePath : Text) :
    p.source functionName runtimePath = frame functionName runtimePath (p.flatMap line) := by
  delta source frame
  rfl

/-- **What is left of the source of a program** when its literals are
emptied, and what they stand for. -/
theorem scans_source {s : Script} {path functionName runtimePath : Text} (hs : .text [] ∉ s)
    (hexpression : ∀ x ∈ s, x.HasNoExpression) (hpath : '"' ∉ path)
    (hname : '"' ∉ functionName) (hruntime : '"' ∉ runtimePath) :
    Scans ((Script.program path s).source functionName runtimePath)
      (frame functionName runtimePath ((Script.joined s).flatMap fun x =>
        indented (Statement.line path x.emptied)))
      (Script.literals (Script.joined s)) := by
  have hindent : Scans "    ".toList "    ".toList [] := Literal.scans_toList (by rfl) (by decide)
  have hnewline : Scans ['\n'] ['\n'] [] := Literal.scans_of_plain (by decide)
  have hlines : ∀ t : Script, (∀ x ∈ t, x.HasNoExpression) →
      Scans (t.flatMap fun x => indented (x.code path))
        (t.flatMap fun x => indented (Statement.line path x.emptied)) (Script.literals t) := by
    intro t ht
    induction t with
    | nil => exact .nil
    | cons x t ih =>
      rw [List.forall_mem_cons] at ht
      have hx := (hindent.append (Step.scans_code hpath ht.1)).append hnewline
      rw [List.nil_append, List.append_nil] at hx
      exact hx.append (ih ht.2)
  have hsignature : Scans (signature functionName runtimePath)
      (signature functionName runtimePath) [] := by
    have hall := (((Literal.scans_toList (s := "pub fn ") (by rfl) (by decide)).append
      (Literal.scans_append_toList hname (s := "(out: &mut String, ctx: ") (by rfl)
        (by decide))).append
      (Literal.scans_append_toList hruntime
        (s := "::RenderContext<'_>) -> Result<(), ") (by rfl) (by decide))).append
      (Literal.scans_append_toList hruntime (s := "::RenderError>") (by rfl) (by decide))
    have hassoc : signature functionName runtimePath = "pub fn ".toList ++
        (functionName ++ "(out: &mut String, ctx: ".toList) ++
        (runtimePath ++ "::RenderContext<'_>) -> Result<(), ".toList) ++
        (runtimePath ++ "::RenderError>".toList) := by
      delta signature
      repeat rw [List.append_assoc]
    rw [hassoc]
    exact hall
  have hbody : (Script.program path s).flatMap line =
      (Script.joined s).flatMap fun x => indented (x.code path) := by
    rw [Script.program_eq_joined hs, List.flatMap_map]
    simp only [line_segment]
  rw [source_eq, hbody]
  delta frame
  refine Scans.of_eq (((((Literal.scans_toList (by rfl) (by decide)).append hsignature).append
    (Literal.scans_toList (by rfl) (by decide))).append
    (hlines _ (Script.hasNoExpression_joined hexpression))).append
    (Literal.scans_toList (by rfl) (by decide))) ?_
  simp

end Program

/-! ## References -/

/-- **What a tag says about its directive**: the name, the modifiers, and
the attributes with what each is set to. -/
structure Reference where
  /-- The name. -/
  name : Word
  /-- The modifiers. -/
  modifiers : List Word
  /-- The attributes. -/
  attributes : AttributeList
deriving Repr, DecidableEq

namespace Reference

variable {r r' : Reference}

/-- The texts of a reference, in order. -/
def literals (r : Reference) : List Text :=
  r.name.literals ++ r.modifiers.flatMap Word.literals ++ r.attributes.literals

/-- Whether names, modifiers and values are all literals. -/
structure IsLiteral (r : Reference) : Prop where
  /-- The name is. -/
  name : r.name.isExpression = false
  /-- The modifiers are. -/
  modifiers : ∀ w ∈ r.modifiers, w.isExpression = false
  /-- The values are. -/
  attributes : ∀ a ∈ r.attributes, a.2.isExpression = false

instance (r : Reference) : Decidable r.IsLiteral :=
  decidable_of_iff (r.name.isExpression = false ∧ (∀ w ∈ r.modifiers, w.isExpression = false) ∧
      ∀ a ∈ r.attributes, a.2.isExpression = false)
    ⟨fun h => ⟨h.1, h.2.1, h.2.2⟩, fun h => ⟨h.name, h.modifiers, h.attributes⟩⟩

/-- **What is left of a reference** without its texts: how many modifiers
there are, and which attributes have values. -/
def signature (r : Reference) : Nat × List Bool :=
  (r.modifiers.length, r.attributes.map (·.2.isValue))

/-- A reference of a shape with empty texts. -/
def blank (g : Nat × List Bool) : Reference where
  name := .literal []
  modifiers := List.replicate g.1 (.literal [])
  attributes := g.2.map fun hasValue => ([], if hasValue then .value (.literal []) else .flag)

end Reference

/-- What the arguments of a directive say. Those of a container go no
further than its name. -/
def Directive.request? (d : Directive) (arguments : Text) : Option Reference :=
  match Arguments.words arguments with
  | [] => none
  | word :: words =>
    (d.reading? word).map fun r =>
      { name := r.1, modifiers := r.2, attributes := if d = .formContainer then [] else .ofWords words }

/-- **What a tag says.** In a start tag the attributes are the other ones of
the element, which are not to be printed again. -/
def Tag.reference? : Tag → Option Reference
  | .opening d arguments _ => d.request? arguments
  | .closing _ => none
  | .element _ _ arguments attributes _ =>
    (Directive.input.request? arguments).map fun r =>
      { r with attributes := attributes.map fun a => (a.name, .absent) }

namespace Directive

/-- The step of a reference. -/
def stepOf (d : Directive) (r : Reference) (hasBody : Bool) : Step :=
  match d with
  | .form => .beginForm r.name r.attributes
  | .formContainer => .enterContainer r.name
  | .label => .label r.name r.attributes !hasBody
  | .input => .input r.name r.modifiers r.attributes

/-- The step at an opening tag is that of what the tag says. -/
theorem openingStep?_eq_map (d : Directive) (arguments : Text) (hasBody : Bool) :
    d.openingStep? arguments hasBody = (d.request? arguments).map (d.stepOf · hasBody) := by
  unfold openingStep? request?
  cases Arguments.words arguments with
  | nil => rfl
  | cons word words =>
    cases d with
    | form | formContainer | label => rfl
    | input => dsimp only; rw [reading?]; cases reference? word <;> rfl

/-- And so is that at a start tag. -/
theorem attributeStep?_eq_map (name arguments : Text) (attributes : List RawAttribute) :
    attributeStep? name arguments attributes =
      (input.request? arguments).map fun r =>
        .attributes (Text.sameIgnoringCase name "label".toList) r.name r.modifiers
          (attributes.map (·.name)) := by
  unfold attributeStep? request?
  cases Arguments.words arguments with
  | nil => rfl
  | cons word words => dsimp only; rw [reading?]; cases reference? word <;> rfl

end Directive

namespace Piece

/-! ## Shapes -/

/-- **The shape of a piece**: the piece without its texts. -/
inductive Shape where
  /-- A text that is not empty. -/
  | text
  /-- An opening tag: the directive, whether the tag closes it, and the
  shape of what the tag says. -/
  | opening (d : Directive) (selfClosing : Bool) (signature : Option (Nat × List Bool))
  /-- A closing tag. -/
  | closing (d : Directive)
  /-- A start tag: whether it is that of a label, and the shape of what it
  says. -/
  | element (ofLabel : Bool) (signature : Option (Nat × List Bool))
deriving Repr, DecidableEq

/-- The shape of a piece. -/
def shape : Piece → Shape
  | .text _ => .text
  | .tag (.opening d arguments selfClosing) _ =>
    .opening d selfClosing ((d.request? arguments).map Reference.signature)
  | .tag (.closing d) _ => .closing d
  | .tag (.element name d arguments attributes tail) _ =>
    .element (Text.sameIgnoringCase name "label".toList)
      ((Tag.element name d arguments attributes tail).reference?.map Reference.signature)

/-- **Whether all that a piece says is literal.** -/
def IsLiteral : Piece → Prop
  | .text _ => True
  | .tag t _ => ∀ r ∈ t.reference?, r.IsLiteral

instance (p : Piece) : Decidable p.IsLiteral :=
  match p with
  | .text _ => .isTrue trivial
  | .tag t _ => inferInstanceAs (Decidable (∀ r ∈ t.reference?, r.IsLiteral))

/-- **The texts that a piece asks for**, in order; the text of a start tag
stands before and after what its directive asks for. -/
def literals (hasBody : Bool) : Piece → List Text
  | .text s => [s]
  | .tag (.opening d arguments _) _ => (d.request? arguments).elim [] Reference.literals
  | .tag (.closing d) _ => if d = .label && hasBody then ["</label>".toList] else []
  | .tag (.element name d arguments attributes tail) _ =>
    ('<' :: name) ::
      (Tag.element name d arguments attributes tail).reference?.elim [] Reference.literals ++
      [RawAttribute.sources attributes ++ tail]

/-- What is left of the steps of a piece of a shape. -/
def Shape.outline (hasBody : Bool) : Shape → List (Bool × List Statement)
  | .text => [(Step.text []).outline]
  | .opening d selfClosing signature =>
    signature.elim [] fun g =>
      (d.stepOf (.blank g) hasBody).outline ::
        if d.isPaired && selfClosing then (d.closingSteps false).map Step.outline else []
  | .closing d => (d.closingSteps hasBody).map Step.outline
  | .element ofLabel signature =>
    signature.elim [] fun g =>
      [(Step.text []).outline,
        (Step.attributes ofLabel (.literal []) (List.replicate g.1 (.literal []))
          (g.2.map fun _ => [])).outline,
        (Step.text []).outline]

end Piece

/-! ## What is left of a reference -/

namespace Directive

variable {d : Directive} {arguments : Text} {r : Reference}

/-- What a directive says is what its step has room for. -/
theorem of_request? (h : d.request? arguments = some r) :
    (d ≠ .input → r.modifiers = []) ∧ (d = .formContainer → r.attributes = []) ∧
      ∀ a ∈ r.attributes, a.2 ≠ .absent := by
  unfold request? at h
  cases hwords : Arguments.words arguments with
  | nil => rw [hwords] at h; cases h
  | cons word words =>
    rw [hwords] at h
    obtain ⟨⟨name, modifiers⟩, hreading, rfl⟩ := Option.map_eq_some_iff.1 h
    refine ⟨?_, ?_, ?_⟩
    · intro hd
      cases d with
      | input => exact absurd rfl hd
      | _ => cases hreading; rfl
    · rintro rfl
      rfl
    · intro a ha
      dsimp only at ha
      split at ha
      · cases ha
      · obtain ⟨w, -, rfl⟩ := List.mem_map.1 ha
        rw [AttributeList.ofWord]
        split <;> simp

/-- The step of a reference puts the texts of the reference in literals. -/
theorem literals_stepOf (hr : r.IsLiteral) (h : d.request? arguments = some r) (hasBody : Bool) :
    (d.stepOf r hasBody).literals = r.literals := by
  obtain ⟨hmodifiers, hattributes, -⟩ := of_request? h
  have hname := hr.name
  obtain ⟨name, modifiers, attributes⟩ := r
  cases name with
  | expression e => cases hname
  | literal k =>
    cases d with
    | form =>
      obtain rfl := hmodifiers (by decide)
      simp [stepOf, Step.literals, Step.statements, Statement.literals, Reference.literals]
    | formContainer =>
      obtain rfl := hmodifiers (by decide)
      obtain rfl := hattributes rfl
      simp [stepOf, Step.literals, Step.statements, Statement.literals, Reference.literals,
        AttributeList.literals]
    | label =>
      obtain rfl := hmodifiers (by decide)
      simp [stepOf, Step.literals, Step.statements, Statement.literals, Reference.literals,
        Word.literals]
    | input =>
      simp [stepOf, Step.literals, Step.statements, Step.withControl, Statement.literals,
        Reference.literals, ControlSource.literals, Word.literals]

/-- The step of a literal reference spells no expression. -/
theorem hasNoExpression_stepOf (hr : r.IsLiteral) (d : Directive) (hasBody : Bool) :
    (d.stepOf r hasBody).HasNoExpression := by
  have hname := hr.name
  obtain ⟨name, modifiers, attributes⟩ := r
  cases name with
  | expression e => cases hname
  | literal k =>
    intro x hx
    cases d with
    | form =>
      simp only [stepOf, Step.statements, List.mem_cons, List.not_mem_nil, or_false] at hx
      rcases hx with rfl | rfl | rfl
      · rfl
      · trivial
      · exact hr.attributes
    | formContainer =>
      simp only [stepOf, Step.statements, List.mem_cons, List.not_mem_nil, or_false] at hx
      rcases hx with rfl | rfl | rfl
      · trivial
      · rfl
      · trivial
    | label =>
      simp only [stepOf, Step.statements, List.mem_cons, List.not_mem_nil, or_false] at hx
      rcases hx with rfl | rfl
      · trivial
      · exact hr.attributes
    | input =>
      simp only [stepOf, Step.statements, Step.withControl, List.mem_singleton] at hx
      subst hx
      exact ⟨hr.modifiers, hr.attributes⟩

end Directive

/-- Emptied attributes are alike when the same ones have values. -/
theorem AttributeList.emptied_eq {as : AttributeList}
    (h : ∀ a ∈ as, a.2.isExpression = false) (hpresent : ∀ a ∈ as, a.2 ≠ .absent) :
    as.emptied = (Reference.blank (0, as.map (·.2.isValue))).attributes.emptied := by
  simp only [emptied, Reference.blank, List.map_map]
  refine List.map_congr_left fun a ha => ?_
  obtain ⟨name, assignment⟩ := a
  have hliteral := h _ ha
  have hnot := hpresent _ ha
  cases assignment with
  | value w =>
    cases w with
    | literal s => rfl
    | expression e => cases hliteral
  | flag => rfl
  | absent => exact absurd rfl hnot

/-- **What is left of the step of a reference** is that of a reference of
the same shape with empty texts. -/
theorem Directive.outline_stepOf {d : Directive} {arguments : Text} {r : Reference}
    (hr : r.IsLiteral) (h : d.request? arguments = some r) (hasBody : Bool) :
    (d.stepOf r hasBody).outline = (d.stepOf (.blank r.signature) hasBody).outline := by
  have hattributes := AttributeList.emptied_eq hr.attributes (of_request? h).2.2
  have hmodifiers := Word.map_emptied hr.modifiers
  have hname := hr.name
  obtain ⟨name, modifiers, attributes⟩ := r
  cases name with
  | expression e => cases hname
  | literal k =>
    dsimp only at hattributes hmodifiers
    cases d with
    | form | label =>
      simp [stepOf, Step.outline, Step.isText, Step.emptied, Step.statements, Statement.emptied,
        hattributes, Reference.blank, Reference.signature, Word.emptied]
    | formContainer => rfl
    | input =>
      simp [stepOf, Step.outline, Step.isText, Step.emptied, Step.statements, Step.withControl,
        Statement.emptied, ControlSource.emptied, hattributes, hmodifiers, Reference.blank,
        Reference.signature, Word.emptied]

/-! ## The steps of literal pieces -/

namespace Piece

variable {p : Piece} {ps qs : List Piece} {part : Script} {parts parts' : List Script}
variable {hasBody opened : Bool}

/-- What is said at the place of a directive's attribute. -/
theorem exists_of_element {name arguments tail source : Text} {d : Directive}
    {attributes : List RawAttribute}
    (h : (Piece.tag (.element name d arguments attributes tail) source).steps? hasBody = some part) :
    ∃ r, Directive.input.request? arguments = some r ∧
      part = [.text ('<' :: name),
        .attributes (Text.sameIgnoringCase name "label".toList) r.name r.modifiers
          (attributes.map (·.name)),
        .text (RawAttribute.sources attributes ++ tail)] := by
  obtain ⟨step, hstep, rfl⟩ := Option.map_eq_some_iff.1 h
  rw [Directive.attributeStep?_eq_map] at hstep
  obtain ⟨r, hr, rfl⟩ := Option.map_eq_some_iff.1 hstep
  exact ⟨r, hr, rfl⟩

theorem exists_of_opening {arguments source : Text} {d : Directive} {selfClosing : Bool}
    (h : (Piece.tag (.opening d arguments selfClosing) source).steps? hasBody = some part) :
    ∃ r, d.request? arguments = some r ∧
      part = d.stepOf r hasBody :: if d.isPaired && selfClosing then d.closingSteps false else [] := by
  obtain ⟨step, hstep, rfl⟩ := Option.map_eq_some_iff.1 h
  rw [Directive.openingStep?_eq_map] at hstep
  obtain ⟨r, hr, rfl⟩ := Option.map_eq_some_iff.1 hstep
  exact ⟨r, hr, rfl⟩

/-- The closing steps of a directive spell nothing of the template. -/
theorem hasNoExpression_of_mem_closingSteps {d : Directive} {x : Step}
    (h : x ∈ d.closingSteps hasBody) : x.HasNoExpression := by
  have hx : x = .endForm ∨ x = .leaveContainer ∨ x = .endLabel := by
    cases d <;> cases hasBody <;> simp_all [Directive.closingSteps]
  intro y hy
  rcases hx with rfl | rfl | rfl <;>
  · simp only [Step.statements, List.mem_singleton] at hy
    subst hy
    trivial

/-- **The steps of a literal piece spell no expression.** -/
theorem hasNoExpression_of_steps? (hp : p.IsLiteral) (h : p.steps? hasBody = some part) :
    ∀ x ∈ part, x.HasNoExpression := by
  cases p with
  | text s =>
    cases h
    intro x hx
    rw [List.mem_singleton] at hx
    subst hx
    exact Step.hasNoExpression_text s
  | tag t source =>
    cases t with
    | closing d =>
      cases h
      exact fun x hx => hasNoExpression_of_mem_closingSteps hx
    | opening d arguments selfClosing =>
      obtain ⟨r, hr, rfl⟩ := exists_of_opening h
      rw [List.forall_mem_cons]
      refine ⟨Directive.hasNoExpression_stepOf (hp r hr) d hasBody, fun x hx => ?_⟩
      split at hx
      · exact hasNoExpression_of_mem_closingSteps hx
      · cases hx
    | element name d arguments attributes tail =>
      obtain ⟨r, hr, rfl⟩ := exists_of_element h
      have hliteral := hp _ (Option.map_eq_some_iff.2 ⟨r, hr, rfl⟩)
      have hname : r.name.isExpression = false := hliteral.name
      have hmodifiers : ∀ w ∈ r.modifiers, w.isExpression = false := hliteral.modifiers
      simp only [List.forall_mem_cons]
      refine ⟨Step.hasNoExpression_text _, ?_, Step.hasNoExpression_text _, by simp⟩
      intro x hx
      cases hn : r.name with
      | expression e => rw [hn] at hname; cases hname
      | literal k =>
        rw [hn, Step.statements, Step.withControl, List.mem_singleton] at hx
        subst hx
        exact ⟨hmodifiers, by simp [Assignment.isExpression]⟩

/-- **What is left of the steps of a literal piece** depends on its shape
only. -/
theorem outline_of_steps? (hp : p.IsLiteral) (h : p.steps? hasBody = some part) :
    part.map Step.outline = p.shape.outline hasBody := by
  cases p with
  | text s => cases h; rfl
  | tag t source =>
    cases t with
    | closing d => cases h; rfl
    | opening d arguments selfClosing =>
      obtain ⟨r, hr, rfl⟩ := exists_of_opening h
      rw [List.map_cons, Directive.outline_stepOf (hp r hr) hr, shape, hr]
      change _ = _ :: _
      split <;> rfl
    | element name d arguments attributes tail =>
      obtain ⟨r, hr, rfl⟩ := exists_of_element h
      have hliteral := hp _ (Option.map_eq_some_iff.2 ⟨r, hr, rfl⟩)
      have hname : r.name.isExpression = false := hliteral.name
      have hmodifiers := Word.map_emptied hliteral.modifiers
      dsimp only at hmodifiers
      cases hn : r.name with
      | expression e => rw [hn] at hname; cases hname
      | literal k =>
        simp [shape, Tag.reference?, hr, Shape.outline, Step.outline, Step.isText, Step.emptied,
          Step.statements, Step.withControl, Statement.emptied, ControlSource.emptied, hmodifiers,
          AttributeList.emptied, Reference.signature, Assignment.emptied, Word.emptied,
          Function.comp_def]

/-- **The texts that the steps of a literal piece put in literals** are
those that the piece asks for. -/
theorem literals_of_steps? (hp : p.IsLiteral) (h : p.steps? hasBody = some part) :
    Script.literals part = p.literals hasBody := by
  have hclosing : ∀ (d : Directive) (b : Bool), Script.literals (d.closingSteps b) =
      if d = .label && b then ["</label>".toList] else [] := by
    intro d b
    cases d <;> cases b <;> rfl
  cases p with
  | text s => cases h; rfl
  | tag t source =>
    cases t with
    | closing d =>
      cases h
      exact hclosing d hasBody
    | opening d arguments selfClosing =>
      obtain ⟨r, hr, rfl⟩ := exists_of_opening h
      have hnone : Script.literals (if d.isPaired && selfClosing then d.closingSteps false else []) =
          [] := by
        split
        · rw [hclosing]
          simp
        · rfl
      have hstep := Directive.literals_stepOf (hp r hr) hr hasBody
      rw [literals, hr]
      change (d.stepOf r hasBody).literals ++ Script.literals _ = _
      rw [hstep, hnone, List.append_nil]
      rfl
    | element name d arguments attributes tail =>
      obtain ⟨r, hr, rfl⟩ := exists_of_element h
      have hliteral := hp _ (Option.map_eq_some_iff.2 ⟨r, hr, rfl⟩)
      have hname : r.name.isExpression = false := hliteral.name
      cases hn : r.name with
      | expression e => rw [hn] at hname; cases hname
      | literal k =>
        simp [literals, Tag.reference?, hr, hn, Script.literals, Step.literals, Step.statements,
          Step.withControl, Statement.literals, ControlSource.literals, Reference.literals,
          AttributeList.literals, Word.literals, Assignment.literals, List.flatMap_map]

/-! ## Templates of one shape -/

/-- Whether a piece of a shape opens a body. -/
def Shape.opensBody : Shape → Bool
  | .opening d selfClosing _ => d.isPaired && !selfClosing
  | _ => false

/-- Whether a piece of a shape closes a body. -/
def Shape.closesBody : Shape → Bool
  | .closing _ => true
  | _ => false

theorem opensBody_shape (p : Piece) : p.shape.opensBody = p.opensBody := by
  match p with
  | .text _ | .tag (.opening ..) _ | .tag (.closing _) _ | .tag (.element ..) _ => rfl

theorem closesBody_shape (p : Piece) : p.shape.closesBody = p.closesBody := by
  match p with
  | .text _ | .tag (.opening ..) _ | .tag (.closing _) _ | .tag (.element ..) _ => rfl

/-- Pieces of one shape have bodies alike. -/
theorem hasBody_eq_of_shape {q : Piece} (opened : Bool) (hpq : p.shape = q.shape)
    (hshape : ps.map shape = qs.map shape) :
    p.hasBody opened ps.head? = q.hasBody opened qs.head? := by
  have hafter : ps.head?.any closesBody = qs.head?.any closesBody := by
    have hhead : (ps.map shape).head?.any Shape.closesBody =
        (qs.map shape).head?.any Shape.closesBody := by rw [hshape]
    rw [List.head?_map, List.head?_map, Option.any_map, Option.any_map] at hhead
    simpa only [Function.comp_def, closesBody_shape] using hhead
  rw [hasBody, hasBody, hafter, ← closesBody_shape p, ← closesBody_shape q, ← opensBody_shape p,
    ← opensBody_shape q, hpq]

/-- **What is left of the steps of literal pieces** depends on their shapes
only. -/
theorem outline_of_allSteps? (hps : ∀ p ∈ ps, p.IsLiteral) (hqs : ∀ q ∈ qs, q.IsLiteral)
    (hshape : ps.map shape = qs.map shape) (h : allSteps? opened ps = some parts)
    (h' : allSteps? opened qs = some parts') :
    parts.flatten.map Step.outline = parts'.flatten.map Step.outline := by
  induction ps generalizing opened qs parts parts' with
  | nil =>
    rw [List.map_nil, eq_comm, List.map_eq_nil_iff] at hshape
    subst hshape
    cases h
    cases h'
    rfl
  | cons p ps ih =>
    obtain ⟨q, qs, rfl, hqp, hrest⟩ := List.map_eq_cons_iff.1 hshape.symm
    rw [List.forall_mem_cons] at hps hqs
    obtain ⟨part, others, hpart, hothers, rfl⟩ := allSteps?_cons_eq_some.1 h
    obtain ⟨part', others', hpart', hothers', rfl⟩ := allSteps?_cons_eq_some.1 h'
    have hopens : q.opensBody = p.opensBody := by
      rw [← opensBody_shape, ← opensBody_shape, hqp]
    have hbody := hasBody_eq_of_shape opened hqp hrest
    rw [hopens] at hothers'
    rw [hbody] at hpart'
    rw [List.flatten_cons, List.flatten_cons, List.map_append, List.map_append,
      ih hps.2 hqs.2 hrest.symm hothers hothers', outline_of_steps? hps.1 hpart,
      outline_of_steps? hqs.1 hpart', hqp]

/-- The steps of literal pieces put the texts that the pieces ask for in
literals, and spell no expression. -/
theorem literals_of_allSteps? (hps : ∀ p ∈ ps, p.IsLiteral)
    (h : allSteps? opened ps = some parts) :
    List.Forall₂ (fun p part => ∃ hasBody, Script.literals part = p.literals hasBody) ps parts ∧
      ∀ x ∈ parts.flatten, x.HasNoExpression := by
  induction ps generalizing opened parts with
  | nil => cases h; exact ⟨.nil, by simp⟩
  | cons p ps ih =>
    rw [List.forall_mem_cons] at hps
    obtain ⟨part, others, hpart, hothers, rfl⟩ := allSteps?_cons_eq_some.1 h
    obtain ⟨hliterals, hexpression⟩ := ih hps.2 hothers
    refine ⟨.cons ⟨_, literals_of_steps? hps.1 hpart⟩ hliterals, fun x hx => ?_⟩
    rw [List.flatten_cons, List.mem_append] at hx
    exact hx.elim (hasNoExpression_of_steps? hps.1 hpart x) (hexpression x)

/-- No text among the steps of a template is empty. -/
theorem text_nil_not_mem {attributePrefix : Text} (hps : ∀ p ∈ ps, p.Faithful attributePrefix)
    (h : LaidOut ps parts) : .text [] ∉ parts.flatten := by
  intro hmem
  have hclosing : ∀ (d : Directive) (b : Bool), .text [] ∉ d.closingSteps b := by
    intro d b
    cases d <;> cases b <;> simp [Directive.closingSteps]
  obtain ⟨s, t, hs⟩ := List.append_of_mem hmem
  obtain ⟨before, p, after, -, front, back, rfl, hplaced, -, -⟩ :=
    exists_piece_of_step h.placed hs
  have hp : p ∈ before ++ p :: after := by simp
  have hmem : Step.text [] ∈ front ++ .text [] :: back := by simp
  generalize front ++ Step.text [] :: back = part at hplaced hmem
  have hfaithful := hps p hp
  cases hplaced with
  | text =>
    rw [List.mem_singleton] at hmem
    cases hmem
    exact hfaithful rfl
  | opening hasBody hstep =>
    rcases List.mem_cons.1 hmem with hmem | hmem
    · have hsegment := Directive.segment_of_openingStep? [] hstep
      rw [← hmem] at hsegment
      cases hsegment
    · split at hmem
      · exact hclosing _ _ hmem
      · cases hmem
  | closing hasBody => exact hclosing _ _ hmem
  | element hstep =>
    have hsegment := Directive.segment_of_attributeStep? [] hstep
    simp only [List.mem_cons, List.not_mem_nil, or_false] at hmem
    rcases hmem with hmem | rfl | hmem
    · cases hmem
    · cases hsegment
    · obtain ⟨-, htail⟩ := List.append_eq_nil_iff.1 (Step.text.inj hmem).symm
      cases hfaithful with
      | element _ _ _ hne => exact hne htail

end Piece

/-- **Literal text never becomes code.** Two templates of one shape without
expressions have the same source but for what stands in its literals; and
the literals stand for the texts that the pieces of the template ask for,
with texts that stand side by side made one. -/
theorem compile_erases_alike {options : Options} {a b : Text} {p q : Program}
    {functionName runtimePath : Text} (ha : compile options a = .ok p)
    (hb : compile options b = .ok q)
    (hshape : (Piece.ofText options.attributePrefix a).map Piece.shape =
      (Piece.ofText options.attributePrefix b).map Piece.shape)
    (hliteral : ∀ piece ∈ Piece.ofText options.attributePrefix a, piece.IsLiteral)
    (hliteral' : ∀ piece ∈ Piece.ofText options.attributePrefix b, piece.IsLiteral)
    (hpath : '"' ∉ options.runtimePath) (hname : '"' ∉ functionName)
    (hruntime : '"' ∉ runtimePath) :
    Literal.erase (p.source functionName runtimePath) =
        Literal.erase (q.source functionName runtimePath) ∧
      ∃ parts, List.Forall₂ Placed (Piece.ofText options.attributePrefix a) parts ∧
        p = Script.program options.runtimePath parts.flatten ∧
        List.Forall₂ (fun piece part => ∃ hasBody, Script.literals part = piece.literals hasBody)
          (Piece.ofText options.attributePrefix a) parts ∧
        Literal.texts (p.source functionName runtimePath) =
          (Script.literals (Script.joined parts.flatten)).map some := by
  obtain ⟨parts, hlaidOut, rfl⟩ := laidOut_of_compile ha
  obtain ⟨parts', hlaidOut', rfl⟩ := laidOut_of_compile hb
  obtain ⟨hliterals, hexpression⟩ := Piece.literals_of_allSteps? hliteral hlaidOut.allSteps?_eq
  obtain ⟨-, hexpression'⟩ := Piece.literals_of_allSteps? hliteral' hlaidOut'.allSteps?_eq
  have htext := Piece.text_nil_not_mem (fun _ => Piece.faithful_of_mem_ofText) hlaidOut
  have htext' := Piece.text_nil_not_mem (fun _ => Piece.faithful_of_mem_ofText) hlaidOut'
  have hscans := Program.scans_source htext hexpression hpath hname hruntime
  have hscans' := Program.scans_source htext' hexpression' hpath hname hruntime
  have houtline := Script.outline_joined (Piece.outline_of_allSteps? hliteral hliteral' hshape
    hlaidOut.allSteps?_eq hlaidOut'.allSteps?_eq)
  refine ⟨?_, parts, hlaidOut.placed, rfl, hliterals, hscans.texts_eq⟩
  rw [hscans.erase_eq, hscans'.erase_eq]
  -- The lines that are left are those of the emptied statements.
  have hlines : ∀ s : Script, s.flatMap (fun x =>
      Program.indented (Statement.line options.runtimePath x.emptied)) =
      (s.map Step.outline).flatMap fun o =>
        Program.indented (Statement.line options.runtimePath o.2) := by
    intro s
    rw [List.flatMap_map]
    rfl
  rw [hlines, hlines, houtline]

/-- Quotes, backslashes and line breaks change nothing but the literals. -/
theorem compile_erases_alike_of_quotes :
    ∃ p q, compile {} "\\\"\n\x7binput 'a\"b':m x='\"'\x7d".toList = .ok p ∧
      compile {} "t\x7binput k:n y=v\x7d".toList = .ok q ∧
      Literal.erase (p.source ['f'] ['r']) = Literal.erase (q.source ['f'] ['r']) := by
  have hisOk : (compile {} "\\\"\n\x7binput 'a\"b':m x='\"'\x7d".toList).isOk = true := by
    rw [Text.toList_eq (by rfl)]
    decide +kernel
  have hisOk' : (compile {} "t\x7binput k:n y=v\x7d".toList).isOk = true := by
    rw [Text.toList_eq (by rfl)]
    decide +kernel
  have hshape : (Piece.ofText "n:".toList "\\\"\n\x7binput 'a\"b':m x='\"'\x7d".toList).map
      Piece.shape = (Piece.ofText "n:".toList "t\x7binput k:n y=v\x7d".toList).map Piece.shape := by
    repeat rw [Text.toList_eq (by rfl)]
    decide +kernel
  have hliteral : ∀ piece ∈ Piece.ofText "n:".toList
      "\\\"\n\x7binput 'a\"b':m x='\"'\x7d".toList, piece.IsLiteral := by
    repeat rw [Text.toList_eq (by rfl)]
    decide +kernel
  have hliteral' : ∀ piece ∈ Piece.ofText "n:".toList "t\x7binput k:n y=v\x7d".toList,
      piece.IsLiteral := by
    repeat rw [Text.toList_eq (by rfl)]
    decide +kernel
  have hpath : '"' ∉ ({} : Options).runtimePath := by decide +kernel
  cases ha : compile {} "\\\"\n\x7binput 'a\"b':m x='\"'\x7d".toList with
  | error e => rw [ha] at hisOk; cases hisOk
  | ok p =>
    cases hb : compile {} "t\x7binput k:n y=v\x7d".toList with
    | error e => rw [hb] at hisOk'; cases hisOk'
    | ok q =>
      obtain ⟨herase, -⟩ := compile_erases_alike ha hb hshape hliteral hliteral' hpath
        (by decide : '"' ∉ ['f']) (by decide : '"' ∉ ['r'])
      exact ⟨p, q, rfl, rfl, herase⟩

end Template

end FormTemplate
