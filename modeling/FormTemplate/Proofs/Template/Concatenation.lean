import FormTemplate.Proofs.Template.Extension
import FormTemplate.Proofs.Template.Steps

/-!
# One template after another

A template behind another leaves its tags alone (`KeepsTags`) when the two
together have no tag that begins in the first but is none of its own. Then
the pieces of both are those of the one and those of the other, and texts
that meet become one (`Piece.joined_ofText`). What is laid out in two parts
prints the one program and then the other (`LaidOut.joined`), so templates
compile one after another (`compile_append`).
-/

namespace FormTemplate

namespace Template

open FormTemplate.Bracket

/-! ## The pieces of two templates -/

namespace Piece

variable {attributePrefix before s t : Text} {ps qs rs : List Piece}

/-- **Pieces and then other pieces.** Two texts that meet become one. -/
inductive Joined : List Piece → List Piece → List Piece → Prop
  /-- Nothing meets. -/
  | apart {ps qs : List Piece} : Joined ps qs (ps ++ qs)
  /-- Two texts meet. -/
  | merged {ps qs : List Piece} {s t : Text} :
    Joined (ps ++ [.text s]) (.text t :: qs) (ps ++ .text (s ++ t) :: qs)

theorem Joined.append_left (h : Joined ps qs rs) (before : List Piece) :
    Joined (before ++ ps) qs (before ++ rs) := by
  cases h with
  | apart =>
    rw [← List.append_assoc]
    exact .apart
  | merged =>
    rw [← List.append_assoc, ← List.append_assoc]
    exact .merged

/-- Text in front of a text joins it. -/
theorem joined_ofGap (s t : Text) (ps : List Piece) :
    Joined (ofGap s) (ofGap t ++ ps) (ofGap (s ++ t) ++ ps) := by
  cases s with
  | nil => exact .apart
  | cons c s =>
    cases t with
    | nil =>
      rw [List.append_nil]
      exact .apart
    | cons d t =>
      have hmerged : Joined ([] ++ [.text (c :: s)]) (.text (d :: t) :: ps)
        ([] ++ .text (c :: s ++ d :: t) :: ps) := .merged
      exact hmerged

/-- **The pieces of two templates** are those of the one and then those of
the other. -/
theorem joined_ofText (h : Site.Kept attributePrefix before s t) :
    Joined (ofText attributePrefix s) (ofText attributePrefix t)
      (ofText attributePrefix (s ++ t)) := by
  induction s using ofText_induction attributePrefix generalizing before with
  | text s hnext =>
    -- No tag begins in the first template.
    have hscan : Site.scan attributePrefix before s = [] := by rw [Site.scan_eq, hnext]
    have hlength : ∀ r, Tag.next? attributePrefix (s ++ t) = some r →
        s.length ≤ r.1.before.length := by
      intro r hr
      by_contra hlt
      have hmem : ({ r.1 with before := before ++ r.1.before } : Site) ∈
          Site.scan attributePrefix before (s ++ t) := by
        rw [Site.scan_eq, hr]
        exact List.mem_cons_self
      have hkept := (h _).2 ⟨hmem, by simpa using hlt⟩
      rw [hscan] at hkept
      cases hkept
    rw [ofText_eq attributePrefix (s ++ t), Tag.next?_append t hlength, ofText_eq _ s, hnext,
      ofText_eq _ t]
    cases Tag.next? attributePrefix t with
    | none => simpa using joined_ofGap s t []
    | some r => exact joined_ofGap s r.1.before _
  | tag s site after hnext ih =>
    rw [ofText_eq _ s, ofText_eq _ (s ++ t), hnext, h.next? hnext]
    exact ((ih (h.tail hnext)).append_left [_]).append_left _

theorem Joined.sites_eq (h : Joined ps qs rs) (read : Text) :
    sites read rs = sites read ps ++ sites (read ++ ps.flatMap source) qs := by
  cases h with
  | apart => exact sites_append read ps qs
  | merged => simp [sites_append, sites, source]

end Piece

/-- **The second template leaves the tags of the first alone**: the tags of
both that begin in the first are the tags that it has by itself. -/
def KeepsTags (attributePrefix s t : Text) : Prop :=
  ∀ site, site ∈ Site.all attributePrefix s ↔
    site ∈ Site.all attributePrefix (s ++ t) ∧ site.before.length < s.length

/-- Then the tags of both are those of the one and those of the other. -/
theorem KeepsTags.all_append {attributePrefix s t : Text} (h : KeepsTags attributePrefix s t) :
    Site.all attributePrefix (s ++ t) =
      Site.all attributePrefix s ++ Site.scan attributePrefix s t := by
  have hjoined := Piece.joined_ofText (show Site.Kept attributePrefix [] s t from h)
  rw [Site.all_eq, Site.all_eq, hjoined.sites_eq, Piece.flatMap_source_ofText, scan_eq_sites]
  rfl

/-! ## The steps of two templates -/

namespace LaidOut

variable {ps qs rs : List Piece} {parts others : List Script} {s : Text}

/-- Text at the end is laid out by itself. -/
theorem exists_of_append_text (h : LaidOut (ps ++ [.text s]) parts) :
    s ≠ [] ∧ ∃ others, parts = others ++ [[.text s]] ∧ LaidOut ps others := by
  generalize hu : ps ++ [.text s] = us at h
  induction h generalizing ps with
  | nil => simp at hu
  | @append us vs parts others hus hvs ihu ihv =>
    rcases List.eq_nil_or_concat vs with rfl | ⟨vs, p, rfl⟩
    · obtain ⟨hs, parts', rfl, hps⟩ := ihu (by simpa using hu)
      have hnil := hvs.allSteps?_eq
      cases hnil
      exact ⟨hs, parts', by simp, hps⟩
    · rw [List.concat_eq_append, ← List.append_assoc] at hu
      obtain ⟨rfl, hp⟩ := List.append_inj' hu rfl
      obtain ⟨hs, others', rfl, hvs'⟩ := ihv (by rw [List.concat_eq_append, hp])
      exact ⟨hs, parts ++ others', by simp, hus.append hvs'⟩
  | @text r hr =>
    obtain ⟨rfl, hp⟩ := List.append_inj' (show ps ++ [.text s] = [] ++ [.text r] from hu) rfl
    cases hp
    exact ⟨hr, [], rfl, .nil⟩
  | unpaired | selfClosing | element =>
    obtain ⟨-, hp⟩ := List.append_inj' (show ps ++ [.text s] = [] ++ [_] from hu) rfl
    cases hp
  | block =>
    obtain ⟨-, hp⟩ := List.append_inj' hu rfl
    cases hp

/-- And so is text at the beginning. -/
theorem exists_of_cons_text (h : LaidOut (.text s :: qs) parts) :
    s ≠ [] ∧ ∃ others, parts = [.text s] :: others ∧ LaidOut qs others := by
  generalize hu : .text s :: qs = us at h
  induction h generalizing qs with
  | nil => cases hu
  | @append us vs parts others hus hvs ihu ihv =>
    cases us with
    | nil =>
      have hnil := hus.allSteps?_eq
      cases hnil
      exact ihv hu
    | cons p us =>
      obtain ⟨rfl, rfl⟩ := List.cons.inj hu
      obtain ⟨hs, parts', rfl, hqs⟩ := ihu rfl
      exact ⟨hs, parts' ++ others, rfl, hqs.append hvs⟩
  | text hr =>
    cases hu
    exact ⟨hr, [], rfl, .nil⟩
  | unpaired | selfClosing | element | block => cases hu

/-- **What is laid out joined** prints the one program and then the other. -/
theorem joined (hps : LaidOut ps parts) (hqs : LaidOut qs others) (h : Piece.Joined ps qs rs)
    (runtimePath : Text) :
    ∃ all, LaidOut rs all ∧ Script.program runtimePath all.flatten =
      (Script.program runtimePath parts.flatten).join
        (Script.program runtimePath others.flatten) := by
  cases h with
  | apart =>
    exact ⟨_, hps.append hqs, by rw [List.flatten_append, Script.program_append]⟩
  | @merged ps qs s t =>
    obtain ⟨hs, parts, rfl, hbefore⟩ := hps.exists_of_append_text
    obtain ⟨-, others, rfl, hafter⟩ := hqs.exists_of_cons_text
    have htext : LaidOut [.text (s ++ t)] [[.text (s ++ t)]] := .text (by simp [hs])
    refine ⟨_, hbefore.append (htext.append hafter), ?_⟩
    -- The two texts make the same program as the one they have become.
    have hmerge : Script.program runtimePath (parts.flatten ++ [.text s] ++ [.text t]) =
        Script.program runtimePath (parts.flatten ++ [.text (s ++ t)]) := by
      rw [Script.program_text, Script.program_text, Script.program_text, Program.pushText_pushText]
    calc Script.program runtimePath (parts ++ ([[Step.text (s ++ t)]] ++ others)).flatten
        = Script.program runtimePath
            (parts.flatten ++ [Step.text (s ++ t)] ++ others.flatten) := by simp
      _ = Script.program runtimePath
            (parts.flatten ++ [Step.text s] ++ [Step.text t] ++ others.flatten) := by
          rw [Script.program_append, ← hmerge, ← Script.program_append]
      _ = Script.program runtimePath
            ((parts ++ [[Step.text s]]).flatten ++ ([Step.text t] :: others).flatten) := by simp
      _ = _ := Script.program_append _ _

end LaidOut

/-! ## Each piece by itself -/

/-- **Each piece has the steps it asks for by itself.** All they depend on
besides the piece is whether its directive has a body. -/
structure Piece.Separate (ps : List Piece) (parts : List Script) : Prop where
  /-- Each piece has its part of the steps. -/
  length_eq : parts.length = ps.length
  /-- It is the part that the piece asks for. -/
  steps : ∀ before p after, ps = before ++ p :: after →
    ∃ former part latter, parts = former ++ part :: latter ∧ former.length = before.length ∧
      p.steps? (p.hasBody ((before.getLast?.map opensBody).getD false) after.head?) = some part
  /-- A directive has a body when something stands between its tags. -/
  block : ∀ before d arguments source body d' source' after,
    ps = before ++ .tag (.opening d arguments false) source ::
      (body ++ .tag (.closing d') source' :: after) →
    d.isPaired = true → Nested (Site.brackets (sites [] body)) →
    ∃ step former inner latter, d.openingStep? arguments (!body.isEmpty) = some step ∧
      parts = former ++ [step] :: (inner ++ d'.closingSteps (!body.isEmpty) :: latter) ∧
      former.length = before.length ∧ inner.length = body.length

theorem LaidOut.separate {ps : List Piece} {parts : List Script} (h : LaidOut ps parts) :
    Piece.Separate ps parts where
  length_eq := h.placed.length_eq.symm
  steps := by
    rintro before p after rfl
    obtain ⟨former, part, latter, rfl, hlength, -, hpart⟩ :=
      Piece.exists_of_allSteps?_append_cons h.allSteps?_eq
    exact ⟨former, part, latter, rfl, hlength, hpart⟩
  block := by
    rintro before d arguments source body d' source' after rfl hpaired hbody
    exact Piece.exists_of_allSteps?_block hpaired hbody h.allSteps?_eq

/-! ## Compiling one template after another -/

section Compile

variable {options : Options} {s t : Text} {p q : Program}

/-- **Two templates compile to the one program and then the other.** -/
theorem compile_join (hs : compile options s = .ok p) (ht : compile options t = .ok q)
    (hkeeps : KeepsTags options.attributePrefix s t) :
    compile options (s ++ t) = .ok (p.join q) := by
  obtain ⟨parts, hparts, rfl⟩ := laidOut_of_compile hs
  obtain ⟨others, hothers, rfl⟩ := laidOut_of_compile ht
  obtain ⟨all, hall, hprogram⟩ := hparts.joined hothers
    (Piece.joined_ofText (show Site.Kept options.attributePrefix [] s t from hkeeps))
    options.runtimePath
  rw [compile_of_laidOut hall, hprogram]

/-- The brackets among tags go by the tags alone. -/
theorem Site.brackets_eq (tags : List Site) :
    brackets tags = (tags.map tag).filterMap Tag.bracket? := by
  rw [brackets, List.filterMap_map]
  rfl

/-- **And the second compiles if both do.** -/
theorem exists_compile_of_append (hs : compile options s = .ok p)
    (hst : compile options (s ++ t) = .ok q)
    (hkeeps : KeepsTags options.attributePrefix s t) : ∃ r, compile options t = .ok r := by
  obtain ⟨parts, hparts, -⟩ := laidOut_of_compile hs
  obtain ⟨all, hall, -⟩ := laidOut_of_compile hst
  have hnested := hall.nested []
  have hnamed := hall.named []
  rw [← Site.all_eq, hkeeps.all_append] at hnested hnamed
  rw [Site.brackets_append] at hnested
  have hfirst := hparts.nested []
  rw [← Site.all_eq] at hfirst
  -- The tags of the second template are the same without the first.
  have htags : (Site.all options.attributePrefix t).map Site.tag =
      (Site.scan options.attributePrefix s t).map Site.tag := Site.map_tag_scan _ _
  refine compile_of_nested ?_ ?_
  · intro site hsite
    obtain ⟨site', hsite', heq⟩ :=
      List.mem_map.1 (htags ▸ List.mem_map_of_mem hsite)
    rw [← heq]
    exact hnamed site' (List.mem_append_right _ hsite')
  · rw [Site.brackets_eq, htags, ← Site.brackets_eq]
    exact hfirst.of_append hnested

/-- **Templates compile one after another.** After a template that compiles
another one, which leaves its tags alone, compiles as by itself, and all
that the two do to each other is that texts that meet become one. Plain
text between the tags is enough for that. What a directive compiles to
depends on its own tag and on whether it has a body, and a tag is read in
the same way whatever follows it. -/
theorem compile_append (hs : compile options s = .ok p) :
    (∀ t q, compile options t = .ok q → KeepsTags options.attributePrefix s t →
      (∃ p' r r' q', p = p' ++ [.text r] ∧ q = .text r' :: q' ∧
          compile options (s ++ t) = .ok (p' ++ .text (r ++ r') :: q')) ∨
        (∀ p' r r' q', p = p' ++ [.text r] → q ≠ .text r' :: q') ∧
          compile options (s ++ t) = .ok (p ++ q)) ∧
    (∀ t r, compile options (s ++ t) = .ok r → KeepsTags options.attributePrefix s t →
      ∃ q, compile options t = .ok q) ∧
    ((∀ r, .text r ∈ Piece.ofText options.attributePrefix s → '\x7b' ∉ r ∧ '<' ∉ r) →
      ∀ t, KeepsTags options.attributePrefix s t) ∧
    (∃ parts, Piece.Separate (Piece.ofText options.attributePrefix s) parts ∧
      p = Script.program options.runtimePath parts.flatten) ∧
    ∀ u r t, Tag.read? options.attributePrefix u = some r →
      Tag.read? options.attributePrefix (u ++ t) = some r := by
  obtain ⟨parts, hparts, hp⟩ := laidOut_of_compile hs
  refine ⟨?_, fun t r hst hkeeps => exists_compile_of_append hs hst hkeeps,
    fun hplain t => Site.kept_of_plain hplain t, ⟨parts, hparts.separate, hp⟩,
    fun u r t h => Tag.read?_append h t⟩
  intro t q ht hkeeps
  have hjoin := compile_join hs ht hkeeps
  obtain ⟨others, -, rfl⟩ := laidOut_of_compile ht
  rcases Program.join_cases p (Program.merged_ofSegments _).ne_nil with
    ⟨p', r, r', q', hp, hq, heq⟩ | ⟨hno, heq⟩
  · exact .inl ⟨p', r, r', q', hp, hq, heq ▸ hjoin⟩
  · exact .inr ⟨hno, heq ▸ hjoin⟩

/-- The text at the end of one template and that at the beginning of the
next are one segment. -/
theorem compile_append_of_texts :
    ∃ x y, compile {} "a\x7binput x\x7db".toList = .ok [.text ['a'], .code x, .text ['b']] ∧
      compile {} "c\x7binput y\x7d".toList = .ok [.text ['c'], .code y] ∧
      compile {} ("a\x7binput x\x7db".toList ++ "c\x7binput y\x7d".toList) =
        .ok [.text ['a'], .code x, .text ['b', 'c'], .code y] := by
  obtain ⟨x, hs⟩ : ∃ x, compile {} "a\x7binput x\x7db".toList =
      .ok [.text ['a'], .code x, .text ['b']] :=
    ⟨("out.push_str(&ctx.control(\"x\")?.get_control(&[])" ++
      ".add_attributes(&[]).to_html());").toList, by decide +kernel⟩
  obtain ⟨y, ht⟩ : ∃ y, compile {} "c\x7binput y\x7d".toList = .ok [.text ['c'], .code y] :=
    ⟨("out.push_str(&ctx.control(\"y\")?.get_control(&[])" ++
      ".add_attributes(&[]).to_html());").toList, by decide +kernel⟩
  have hpieces : Piece.ofText "n:".toList "a\x7binput x\x7db".toList =
      [.text ['a'], .tag (.opening .input ['x'] false) "\x7binput x\x7d".toList, .text ['b']] := by
    decide +kernel
  obtain ⟨hjoin, -, hplain, -⟩ := compile_append hs
  refine ⟨x, y, hs, ht, ?_⟩
  rcases hjoin _ _ ht (hplain (by rw [hpieces]; simp) _) with ⟨p', r, r', q', hp, hq, h⟩ | ⟨hno, -⟩
  · obtain ⟨rfl, hr⟩ := List.append_inj'
      (show [.text ['a'], .code x] ++ [.text ['b']] = p' ++ [.text r] from hp) rfl
    cases hr
    cases hq
    exact h
  · exact absurd rfl (hno [.text ['a'], .code x] ['b'] ['c'] _ rfl)

end Compile

end Template

end FormTemplate
