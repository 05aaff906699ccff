import FormTemplate.Proofs.Template.Acceptance

/-!
# The steps of a template

What a piece of a template asks for depends on the piece and, for the tags
around a body, on whether there is a body. A look at the neighbours tells:
a body is empty exactly when its closing tag follows its opening tag at
once. So the steps of a template are a function of its pieces,
`Piece.allSteps?`. A laid-out template has the steps of that function
(`LaidOut.allSteps?_eq`), no template is laid out in two ways, and what is
laid out compiles to the program of its steps (`compile_of_laidOut`).
-/

namespace FormTemplate

namespace Template

open FormTemplate.Bracket

namespace Directive

variable {d : Directive} {name arguments : Text} {hasBody : Bool} {step : Step}
variable {attributes : List RawAttribute}

/-- A directive whose opening tag has a step has a name. -/
theorem hasName_of_openingStep? (h : d.openingStep? arguments hasBody = some step) :
    d.HasName arguments := by
  by_contra hname
  have hnone := openingStep?_eq_none.2 hname
  obtain ⟨word, words, hwords⟩ := words_of_openingStep? h
  unfold openingStep? at h hnone
  rw [hwords] at h hnone
  cases d with
  | form | formContainer | label => cases hnone
  | input => cases h.symm.trans hnone

theorem hasName_of_attributeStep? (h : attributeStep? name arguments attributes = some step) :
    HasName .input arguments := by
  by_contra hname
  cases h.symm.trans (attributeStep?_eq_none.2 hname)

end Directive

/-! ## The steps of a piece -/

namespace Piece

/-- Whether a piece is the opening tag of a directive that has a closing
tag. -/
def opensBody : Piece → Bool
  | .tag (.opening d _ selfClosing) _ => d.isPaired && !selfClosing
  | _ => false

/-- Whether a piece is a closing tag. -/
def closesBody : Piece → Bool
  | .tag (.closing _) _ => true
  | _ => false

/-- **The steps of a piece**, given whether anything stands between its tag
and the matching one. -/
def steps? (hasBody : Bool) : Piece → Option Script
  | .text s => some [.text s]
  | .tag (.opening d arguments selfClosing) _ =>
    (d.openingStep? arguments hasBody).map fun step =>
      step :: if d.isPaired && selfClosing then d.closingSteps false else []
  | .tag (.closing d) _ => some (d.closingSteps hasBody)
  | .tag (.element name _ arguments attributes tail) _ =>
    (Directive.attributeStep? name arguments attributes).map fun step =>
      [.text ('<' :: name), step, .text (RawAttribute.sources attributes ++ tail)]

/-- Whether the directive of a tag has a body: its opening tag does not
stand right before it, and its closing tag does not follow right after. -/
def hasBody (opened : Bool) (p : Piece) (after : Option Piece) : Bool :=
  if p.closesBody then !opened else p.opensBody && !after.any closesBody

/-- **The steps of pieces, piece by piece.** `opened` says whether the
opening tag of a body stands right before them. -/
def allSteps? (opened : Bool) : List Piece → Option (List Script)
  | [] => some []
  | p :: ps =>
    (p.steps? (p.hasBody opened ps.head?)).bind fun part =>
      (allSteps? p.opensBody ps).map (part :: ·)

variable {p : Piece} {ps qs : List Piece} {parts : List Script} {part : Script} {opened : Bool}

theorem allSteps?_cons_eq_some :
    allSteps? opened (p :: ps) = some parts ↔
      ∃ part others, p.steps? (p.hasBody opened ps.head?) = some part ∧
        allSteps? p.opensBody ps = some others ∧ parts = part :: others := by
  simp only [allSteps?, Option.bind_eq_some_iff, Option.map_eq_some_iff]
  grind

/-- The steps of a piece among others. -/
theorem exists_of_allSteps?_append_cons
    (h : allSteps? opened (ps ++ p :: qs) = some parts) :
    ∃ before part after, parts = before ++ part :: after ∧ before.length = ps.length ∧
      allSteps? p.opensBody qs = some after ∧
      p.steps? (p.hasBody ((ps.getLast?.map opensBody).getD opened) qs.head?) = some part := by
  induction ps generalizing opened parts with
  | nil =>
    obtain ⟨part, after, hpart, hafter, rfl⟩ := allSteps?_cons_eq_some.1 h
    exact ⟨[], part, after, rfl, rfl, hafter, hpart⟩
  | cons x ps ih =>
    obtain ⟨first, others, -, hothers, rfl⟩ := allSteps?_cons_eq_some.1 h
    obtain ⟨before, part, after, rfl, hlength, hafter, hpart⟩ := ih hothers
    refine ⟨first :: before, part, after, rfl, by simp [hlength], hafter, ?_⟩
    cases ps with
    | nil => exact hpart
    | cons y ps =>
      rw [List.getLast?_cons, Option.map_some, Option.getD_some] at hpart
      rwa [List.getLast?_cons_cons, List.getLast?_cons, Option.map_some, Option.getD_some]

/-! ## The tags around a body -/

variable {read : Text}

/-- What is properly nested does not begin with a closing tag. -/
theorem any_closesBody_head? (h : Nested (Site.brackets (sites read ps))) :
    ps.head?.any closesBody = false := by
  match ps, h with
  | .tag (.closing d) s :: ps, h =>
    obtain ⟨rest, hrest⟩ : ∃ rest, opened [] [] = d :: rest := opened_of_nested_split
      (show Nested ([] ++ .closing d :: Site.brackets (sites (read ++ s) ps)) from h)
    cases hrest
  | [], _ | .text _ :: _, _ | .tag (.opening ..) _ :: _, _ | .tag (.element ..) _ :: _, _ => rfl

/-- Nor does it end with the opening tag of a body. -/
theorem opensBody_getLast? (h : Nested (Site.brackets (sites read ps))) :
    ∀ p, ps.getLast? = some p → p.opensBody = false := by
  intro p hp
  obtain ⟨qs, rfl⟩ := List.getLast?_eq_some_iff.1 hp
  rw [sites_append, Site.brackets_append] at h
  cases p with
  | text s => rfl
  | tag t s =>
    cases t with
    | closing d => rfl
    | element => rfl
    | opening d arguments selfClosing =>
      rw [Site.brackets_sites_tag, Tag.bracket?] at h
      rw [opensBody]
      -- An opening bracket at the end would be left open.
      cases hopens : d.isPaired && !selfClosing with
      | false => rfl
      | true =>
        rw [hopens] at h
        have hopened : opened _ [] = [] := opened_of_nested h
        rw [opened_append] at hopened
        cases hopened

/-- **The steps at the tags of a block** go by whether there is a body. -/
theorem exists_of_allSteps?_block {d d' : Directive} {arguments s s' : Text} {body : List Piece}
    (hpaired : d.isPaired = true) (hbody : Nested (Site.brackets (sites read body)))
    (h : allSteps? opened (ps ++ .tag (.opening d arguments false) s ::
      (body ++ .tag (.closing d') s' :: qs)) = some parts) :
    ∃ step before inner after, d.openingStep? arguments (!body.isEmpty) = some step ∧
      parts = before ++ [step] :: (inner ++ d'.closingSteps (!body.isEmpty) :: after) ∧
      before.length = ps.length ∧ inner.length = body.length := by
  obtain ⟨before, first, others, rfl, hbefore, hothers, hfirst⟩ := exists_of_allSteps?_append_cons h
  obtain ⟨inner, last, after, rfl, hinner, -, hlast⟩ := exists_of_allSteps?_append_cons hothers
  have hafter : (body ++ .tag (.closing d') s' :: qs).head?.any closesBody = body.isEmpty := by
    cases body with
    | nil => rfl
    | cons p body =>
      have hhead := any_closesBody_head? hbody
      exact hhead
  have hopens : ((body.getLast?.map opensBody).getD
      (opensBody (.tag (.opening d arguments false) s))) = body.isEmpty := by
    cases hp : body.getLast? with
    | none => simp [List.getLast?_eq_none_iff.1 hp, opensBody, hpaired]
    | some p =>
      obtain ⟨rest, rfl⟩ := List.getLast?_eq_some_iff.1 hp
      simp [opensBody_getLast? hbody p hp]
  rw [hasBody, hafter] at hfirst
  rw [hasBody, hopens] at hlast
  simp only [steps?, closesBody, opensBody, hpaired, Bool.true_and, Bool.not_false, Bool.and_false,
    Bool.false_eq_true, if_false, Option.map_eq_some_iff] at hfirst
  obtain ⟨step, hstep, rfl⟩ := hfirst
  simp only [steps?, closesBody, if_true, Option.some.injEq] at hlast
  subst hlast
  exact ⟨step, before, inner, after, hstep, rfl, hbefore, hinner⟩

end Piece

/-! ## The steps of a laid-out template -/

namespace LaidOut

variable {ps : List Piece} {parts parts' : List Script}

/-- A laid-out template does not begin with a closing tag. -/
theorem any_closesBody_head? (h : LaidOut ps parts) : ps.head?.any Piece.closesBody = false := by
  induction h with
  | nil | text | unpaired | selfClosing | element | block => rfl
  | @append ps qs _ _ _ _ ihp ihq =>
    cases ps with
    | nil => exact ihq
    | cons p ps => exact ihp

/-- **The steps of a laid-out part** of a template are those of its pieces,
whatever follows it. -/
theorem allSteps?_append (h : LaidOut ps parts) (opened : Bool) (rest : List Piece) :
    Piece.allSteps? opened (ps ++ rest) =
      (Piece.allSteps? (opened && ps.isEmpty) rest).map (parts ++ ·) := by
  induction h generalizing opened rest with
  | nil => simp
  | @append ps qs parts others _ _ ihp ihq =>
    have hempty : (ps ++ qs).isEmpty = (ps.isEmpty && qs.isEmpty) := by cases ps <;> rfl
    rw [List.append_assoc, ihp, ihq, Option.map_map, hempty, Bool.and_assoc]
    simp [Function.comp_def]
  | text =>
    rw [List.isEmpty_cons, Bool.and_false]
    rfl
  | @unpaired d arguments source selfClosing step hpaired hstep =>
    simp [Piece.allSteps?, Piece.hasBody, Piece.closesBody, Piece.opensBody, Piece.steps?, hpaired,
      hstep]
  | @selfClosing d arguments source step hpaired hstep =>
    simp [Piece.allSteps?, Piece.hasBody, Piece.closesBody, Piece.opensBody, Piece.steps?, hpaired,
      hstep]
  | @element name arguments tail source attributes step hstep =>
    simp [Piece.allSteps?, Piece.opensBody, Piece.steps?, hstep]
  | @block d arguments source source' step body parts hpaired hbody hstep ih =>
    -- The closing tag follows the opening tag exactly when nothing is in between.
    have hafter : (body ++ .tag (.closing d) source' :: rest).head?.any Piece.closesBody =
        body.isEmpty := by
      cases body with
      | nil => rfl
      | cons p body => exact hbody.any_closesBody_head?
    have hassoc : Piece.tag (.opening d arguments false) source :: body ++
        [.tag (.closing d) source'] ++ rest =
        .tag (.opening d arguments false) source ::
          (body ++ .tag (.closing d) source' :: rest) := by simp
    rw [hassoc, Piece.allSteps?, ih]
    simp only [Piece.hasBody, Piece.closesBody, Piece.opensBody, Piece.steps?, hpaired, hafter,
      hstep, Piece.allSteps?, Bool.true_and, Bool.and_false, Bool.false_eq_true, if_false,
      if_true, Bool.not_false, Option.map_some, Option.bind_some, Option.map_map,
      List.append_assoc, List.cons_append, List.isEmpty_cons]
    rfl

/-- **A laid-out template has the steps of its pieces.** -/
theorem allSteps?_eq (h : LaidOut ps parts) : Piece.allSteps? false ps = some parts := by
  have hrest := h.allSteps?_append false []
  rw [List.append_nil] at hrest
  rw [hrest]
  simp [Piece.allSteps?]

/-- So it is laid out in one way only. -/
theorem unique (h : LaidOut ps parts) (h' : LaidOut ps parts') : parts = parts' :=
  Option.some.inj (h.allSteps?_eq.symm.trans h'.allSteps?_eq)

/-- The tags of a laid-out template have names. -/
theorem named (h : LaidOut ps parts) (read : Text) : ∀ s ∈ Piece.sites read ps, s.tag.Named := by
  induction h generalizing read with
  | nil | text => simp [Piece.sites]
  | append _ _ ihp ihq =>
    intro s hs
    rw [Piece.sites_append, List.mem_append] at hs
    exact hs.elim (ihp _ s) (ihq _ s)
  | unpaired _ hstep | selfClosing _ hstep =>
    simpa [Piece.sites, Tag.Named] using Directive.hasName_of_openingStep? hstep
  | element hstep =>
    simpa [Piece.sites, Tag.Named] using Directive.hasName_of_attributeStep? hstep
  | @block d arguments source source' step body parts _ _ hstep ih =>
    intro s hs
    rw [List.cons_append, Piece.sites, Piece.sites_append, List.mem_cons, List.mem_append] at hs
    rcases hs with rfl | hs | hs
    · exact Directive.hasName_of_openingStep? hstep
    · exact ih _ s hs
    · simp only [Piece.sites, List.mem_singleton] at hs
      subst hs
      trivial

end LaidOut

/-- **What is laid out compiles** to the program of its steps. -/
theorem compile_of_laidOut {options : Options} {template : Text} {parts : List Script}
    (h : LaidOut (Piece.ofText options.attributePrefix template) parts) :
    compile options template = .ok (Script.program options.runtimePath parts.flatten) := by
  have hnamed := h.named []
  have hnested := h.nested []
  rw [← Site.all_eq] at hnamed hnested
  obtain ⟨p, hp⟩ := compile_of_nested hnamed hnested
  obtain ⟨parts', h', rfl⟩ := laidOut_of_compile hp
  rw [hp, h.unique h']

end Template

end FormTemplate
