import FormTemplate.Template.Tag
import FormTemplate.Proofs.Text.Cutting
import Mathlib.Data.List.TakeWhile

/-!
# Scanning a template

`Piece.ofText` cuts a template in one pass. This file reads the same cut
as a search that is taken up again and again: `Tag.next?` finds the first
tag of a text, and `Site.scan` resumes it where the last tag ended.
`scan_eq_sites` says that both see the same tags at the same places, and
`flatMap_source_ofText` that the pieces make up the template. What a start
tag holds is tied to its source by `Tag.Parsed`.
-/

namespace FormTemplate

namespace Template

/-! ## Attributes and their sources -/

namespace RawAttribute

/-- The sources of attributes, one after the other. -/
def sources (as : List RawAttribute) : Text := as.flatMap (·.source)

@[simp] theorem sources_nil : sources [] = [] := rfl

@[simp] theorem sources_cons (a : RawAttribute) (as : List RawAttribute) :
    sources (a :: as) = a.source ++ sources as := rfl

@[simp] theorem sources_append (as bs : List RawAttribute) :
    sources (as ++ bs) = sources as ++ sources bs := List.flatMap_append

/-- **The source of an attribute** is white space, the name, and whatever
gives it a value. -/
structure Spelled (a : RawAttribute) : Prop where
  /-- White space comes first, then the name. -/
  source_eq : ∃ blanks value, blanks ≠ [] ∧ (∀ c ∈ blanks, Text.isBlank c = true) ∧
    a.source = blanks ++ a.name ++ value
  /-- The name is not empty. -/
  name_ne_nil : a.name ≠ []

theorem Spelled.source_ne_nil {a : RawAttribute} (h : a.Spelled) : a.source ≠ [] := by
  obtain ⟨blanks, value, hne, -, heq⟩ := h.source_eq
  simp [heq, hne]

/-- A value is read off the beginning of a text. -/
theorem append_of_value? {s : Text} {v : Text × Text} (h : value? s = some v) :
    ∃ rest, s = v.2 ++ rest := by
  cases s with
  | nil => cases h
  | cons c s =>
    rw [value?] at h
    split at h
    · obtain ⟨p, hp, rfl⟩ := Option.map_eq_some_iff.1 h
      exact ⟨p.2, by simp [Text.eq_of_cut? hp]⟩
    · cases h
      refine ⟨(c :: s).dropWhile fun d => !(Text.isBlank d || d == '>'), ?_⟩
      dsimp only
      rw [List.takeWhile_append_dropWhile]

/-- **An attribute is read off the beginning of a text**, and its source is
one of an attribute. -/
theorem append_of_read? {s : Text} {a : RawAttribute} (h : read? s = some a) :
    a.Spelled ∧ ∃ rest, s = a.source ++ rest := by
  simp only [read?] at h
  split at h
  · cases h
  next hne =>
  simp only [Bool.or_eq_true, List.isEmpty_iff, not_or] at hne
  have hblank : ∀ c ∈ s.takeWhile Text.isBlank, Text.isBlank c = true :=
    fun c hc => List.mem_takeWhile_imp hc
  have hs := List.takeWhile_append_dropWhile (p := Text.isBlank) (l := s)
  -- The text is blanks, a name and the rest: what the three are no longer matters.
  generalize s.takeWhile Text.isBlank = blanks at *
  generalize s.dropWhile Text.isBlank = body at *
  have hbody := List.takeWhile_append_dropWhile
    (p := fun c => !(Text.isBlank c || c == '=' || c == '>')) (l := body)
  rw [Text.drop_length_takeWhile] at h
  generalize body.takeWhile _ = name at *
  generalize body.dropWhile _ = after at *
  subst hs hbody
  split at h
  · cases h
  · obtain ⟨v, hv, rfl⟩ := Option.map_eq_some_iff.1 h
    obtain ⟨rest, rfl⟩ := append_of_value? hv
    exact ⟨⟨⟨blanks, '=' :: v.2, hne.1, hblank, by simp⟩, hne.2⟩, rest, by simp⟩
  · cases h
    exact ⟨⟨⟨blanks, [], hne.1, hblank, by simp⟩, hne.2⟩, after, by simp⟩

end RawAttribute

namespace Tag

/-! ## Start tags and their sources -/

theorem append_of_tail? {s tail : Text} (h : tail? s = some tail) :
    tail ≠ [] ∧ ∃ rest, s = tail ++ rest := by
  have hs := List.takeWhile_append_dropWhile (p := Text.isBlank) (l := s)
  simp only [tail?] at h
  generalize s.takeWhile Text.isBlank = blanks at *
  split at h
  · next rest heq => cases h; exact ⟨by simp, rest, by rw [← hs, heq]; simp⟩
  · next rest heq => cases h; exact ⟨by simp, rest, by rw [← hs, heq]; simp⟩
  · cases h

/-- Attributes read after some characters are those of what is left. -/
theorem attributes?_go_eq (k : Nat) (s : Text) :
    attributes?.go k s = attributes?.go 0 (s.drop k) := by
  induction s generalizing k with
  | nil => cases k <;> rfl
  | cons c s ih =>
    cases k with
    | zero => rfl
    | succ k => exact ih k

theorem attributes?_go_nil (k : Nat) : attributes?.go k [] = none := by
  cases k <;> exact rfl

theorem attributes?_go_cons (c : Char) (s : Text) :
    attributes?.go 0 (c :: s) =
      match tail? (c :: s) with
      | some tail => some ([], tail)
      | none => (RawAttribute.read? (c :: s)).bind fun a =>
          (attributes?.go (a.source.length - 1) s).bind fun r => some (a :: r.1, r.2) := by
  exact rfl

/-- **The attributes of a start tag and its end are read off the beginning
of a text.** -/
theorem append_of_attributes? {s : Text} {r : List RawAttribute × Text}
    (h : attributes? s = some r) :
    (∀ a ∈ r.1, a.Spelled) ∧ r.2 ≠ [] ∧ ∃ rest, s = RawAttribute.sources r.1 ++ r.2 ++ rest := by
  rw [attributes?] at h
  -- The length, because an attribute takes several characters at once.
  induction hn : s.length using Nat.strong_induction_on generalizing s r with
  | _ n ih =>
    cases s with
    | nil => exact absurd h (by simp [attributes?_go_nil])
    | cons c s =>
      rw [attributes?_go_cons] at h
      split at h
      next tail htail =>
        cases h
        obtain ⟨hne, rest, hrest⟩ := append_of_tail? htail
        exact ⟨by simp, hne, rest, by simpa using hrest⟩
      next =>
        obtain ⟨a, ha, h⟩ := Option.bind_eq_some_iff.1 h
        obtain ⟨q, hq, h⟩ := Option.bind_eq_some_iff.1 h
        cases h
        obtain ⟨hspelled, rest, hrest⟩ := RawAttribute.append_of_read? ha
        obtain ⟨d, source, hsource⟩ := List.exists_cons_of_ne_nil hspelled.source_ne_nil
        simp only [hsource, List.cons_append, List.cons.injEq] at hrest
        obtain ⟨rfl, rfl⟩ := hrest
        rw [attributes?_go_eq, hsource, List.length_cons, Nat.add_sub_cancel, List.drop_left] at hq
        obtain ⟨hall, hne, rest', rfl⟩ := ih rest.length
          (by simp only [List.length_cons, List.length_append] at hn; omega) hq rfl
        refine ⟨?_, hne, rest', by simp [hsource]⟩
        simpa using ⟨hspelled, hall⟩

/-- **The attribute that carries a directive** is the first that stands for
one; the others keep their order. -/
theorem append_of_carried? {attributePrefix : Text} {as : List RawAttribute}
    {r : Directive × Text × List RawAttribute} (h : carried? attributePrefix as = some r) :
    ∃ before a after, as = before ++ a :: after ∧ r.2.2 = before ++ after ∧
      r.2.1 = a.value.getD [] ∧ carriedDirective? attributePrefix a.name = some r.1 ∧
      ∀ b ∈ before, carriedDirective? attributePrefix b.name = none := by
  induction as generalizing r with
  | nil => cases h
  | cons a as ih =>
    rw [carried?] at h
    split at h
    next directive hd =>
      cases h
      exact ⟨[], a, as, rfl, rfl, rfl, hd, by simp⟩
    next hd =>
      obtain ⟨q, hq, rfl⟩ := Option.map_eq_some_iff.1 h
      obtain ⟨before, b, after, rfl, h₁, h₂, h₃, h₄⟩ := ih hq
      exact ⟨a :: before, b, after, rfl, by simp [h₁], h₂, h₃, by simpa using ⟨hd, h₄⟩⟩

/-- **How the source of a tag comes apart.** The tags in braces are
whole; the start tag of an element has the attribute that carries its
directive among the others. -/
inductive Parsed (attributePrefix : Text) : Tag → Text → Prop
  /-- An opening tag. -/
  | opening {d : Directive} {arguments content : Text} {selfClosing : Bool} :
    Parsed attributePrefix (.opening d arguments selfClosing) ('\x7b' :: content ++ ['\x7d'])
  /-- A closing tag. -/
  | closing {d : Directive} {content : Text} :
    Parsed attributePrefix (.closing d) ('\x7b' :: content ++ ['\x7d'])
  /-- A start tag, whose first attribute that stands for a directive
  carries it. -/
  | element {name tail : Text} {d : Directive} {before after : List RawAttribute}
      {carrier : RawAttribute} :
    carriedDirective? attributePrefix carrier.name = some d →
    (∀ a ∈ before, carriedDirective? attributePrefix a.name = none) →
    carrier.Spelled → tail ≠ [] →
    Parsed attributePrefix (.element name d (carrier.value.getD []) (before ++ after) tail)
      ('<' :: name ++ (RawAttribute.sources before ++ carrier.source
        ++ RawAttribute.sources after) ++ tail)

/-- A tag is read off the beginning of a text, as long as its length says. -/
theorem append_of_brace? {s : Text} {r : Tag × Nat} (h : brace? s = some r) :
    ∃ content rest, s = content ++ '\x7d' :: rest ∧ ofContent? content = some r.1 ∧
      r.2 = content.length + 2 := by
  have hs := Quotation.spanUntil_append (· == '\x7d') none s
  rw [brace?] at h
  split at h
  · cases h
  next content c rest heq =>
    obtain ⟨t, ht, rfl⟩ := Option.map_eq_some_iff.1 h
    refine ⟨content, rest, ?_, ht, rfl⟩
    rw [heq] at hs
    have hc := Quotation.stop_of_spanUntil heq
    rw [← hs, eq_of_beq hc]

/-- The tag of a text in braces opens or closes a directive. -/
theorem ofContent?_ne_element {content name arguments tail : Text} {d : Directive}
    {as : List RawAttribute} : ofContent? content ≠ some (.element name d arguments as tail) := by
  intro h
  unfold ofContent? at h
  split at h
  · obtain ⟨d', -, h⟩ := Option.bind_eq_some_iff.1 h
    split at h <;> cases h
  · obtain ⟨d', -, h⟩ := Option.bind_eq_some_iff.1 h
    dsimp only at h
    split at h <;> cases h

theorem parsed_of_brace? {attributePrefix s : Text} {r : Tag × Nat} (h : brace? s = some r) :
    ∃ source rest, '\x7b' :: s = source ++ rest ∧ r.2 = source.length ∧
      Parsed attributePrefix r.1 source := by
  obtain ⟨content, rest, rfl, hcontent, hlength⟩ := append_of_brace? h
  refine ⟨'\x7b' :: content ++ ['\x7d'], rest, by simp, by simp [hlength], ?_⟩
  obtain ⟨t, n⟩ := r
  cases t with
  | opening d arguments selfClosing => exact .opening
  | closing d => exact .closing
  | element name d arguments as tail => exact absurd hcontent ofContent?_ne_element

theorem parsed_of_element? {attributePrefix s : Text} {r : Tag × Nat}
    (h : element? attributePrefix s = some r) :
    ∃ source rest, '<' :: s = source ++ rest ∧ r.2 = source.length ∧
      Parsed attributePrefix r.1 source := by
  rw [element?] at h
  split at h
  case isFalse => cases h
  obtain ⟨⟨as, tail⟩, has, h⟩ := Option.bind_eq_some_iff.1 h
  obtain ⟨⟨d, arguments, others⟩, hcarried, h⟩ := Option.bind_eq_some_iff.1 h
  cases h
  rw [Text.drop_length_takeWhile] at has
  have hs := List.takeWhile_append_dropWhile (p := isNameChar) (l := s)
  generalize s.takeWhile isNameChar = name at *
  obtain ⟨hspelled, htail, rest, hrest⟩ := append_of_attributes? has
  obtain ⟨before, carrier, after, rfl, rfl, rfl, hd, hfirst⟩ := append_of_carried? hcarried
  refine ⟨'<' :: name ++ (RawAttribute.sources before ++ carrier.source
    ++ RawAttribute.sources after) ++ tail, rest, ?_, ?_, ?_⟩
  · rw [← hs, hrest]
    simp
  · simp only [List.flatMap_append, List.flatMap_cons, List.length_append, List.length_cons,
      RawAttribute.sources]
    omega
  · exact .element hd hfirst (hspelled carrier (by simp)) htail

/-- **A tag is read off the beginning of a text.** -/
theorem parsed_of_read? {attributePrefix s : Text} {r : Tag × Nat}
    (h : read? attributePrefix s = some r) :
    ∃ source rest, s = source ++ rest ∧ r.2 = source.length ∧
      Parsed attributePrefix r.1 source := by
  unfold read? at h
  split at h
  · exact parsed_of_brace? h
  · exact parsed_of_element? h
  · cases h

theorem Parsed.source_ne_nil {attributePrefix source : Text} {t : Tag}
    (h : Parsed attributePrefix t source) : source ≠ [] := by
  cases h <;> simp

end Tag

/-! ## The tags of a template, one after the other -/

/-- A tag in a template, and what stands before it. -/
structure Site where
  /-- The template before the tag. -/
  before : Text
  /-- The tag. -/
  tag : Tag
  /-- The source of the tag. -/
  source : Text

namespace Site

/-- The line on which the tag starts. -/
def line (s : Site) : Nat := 1 + s.before.count '\n'

end Site

/-- The first tag of a text, with the text before it, and the text after
it. -/
def Tag.next? (attributePrefix : Text) : Text → Option (Site × Text)
  | [] => none
  | c :: s =>
    match Tag.read? attributePrefix (c :: s) with
    | some (tag, length) =>
      some ({ before := [], tag, source := (c :: s).take length }, (c :: s).drop length)
    | none => (next? attributePrefix s).map fun r => ({ r.1 with before := c :: r.1.before }, r.2)

/-- The first tag of a text cuts it in three. -/
theorem Tag.append_of_next? {attributePrefix s : Text} {r : Site × Text}
    (h : Tag.next? attributePrefix s = some r) :
    s = r.1.before ++ r.1.source ++ r.2 ∧ Tag.Parsed attributePrefix r.1.tag r.1.source := by
  induction s generalizing r with
  | nil => cases h
  | cons c s ih =>
    rw [Tag.next?] at h
    split at h
    next tag length hread =>
      cases h
      obtain ⟨source, rest, hs, hlength, hparsed⟩ := Tag.parsed_of_read? hread
      dsimp only at hlength hparsed ⊢
      rw [hs, hlength, List.take_left, List.drop_left]
      exact ⟨rfl, hparsed⟩
    next =>
      obtain ⟨q, hq, rfl⟩ := Option.map_eq_some_iff.1 h
      obtain ⟨hs, hparsed⟩ := ih hq
      exact ⟨by simpa using hs, hparsed⟩

/-- What follows the first tag is shorter than the text. -/
theorem Tag.length_lt_of_next? {attributePrefix s : Text} {r : Site × Text}
    (h : Tag.next? attributePrefix s = some r) : r.2.length < s.length := by
  obtain ⟨hs, hparsed⟩ := Tag.append_of_next? h
  have hpos := List.length_pos_iff.2 hparsed.source_ne_nil
  rw [hs]
  simp only [List.length_append]
  omega

/-- **The tags of a template**, each looked for from the end of the one
before; `before` is what has been scanned already. -/
def Site.scan (attributePrefix before rest : Text) : List Site :=
  match _h : Tag.next? attributePrefix rest with
  | none => []
  | some (site, after) =>
    { site with before := before ++ site.before } ::
      scan attributePrefix (before ++ site.before ++ site.source) after
termination_by rest.length
decreasing_by exact Tag.length_lt_of_next? _h

/-- The search for tags, step by step. -/
theorem Site.scan_eq (attributePrefix before rest : Text) :
    scan attributePrefix before rest =
      match Tag.next? attributePrefix rest with
      | none => []
      | some (site, after) =>
        { site with before := before ++ site.before } ::
          scan attributePrefix (before ++ site.before ++ site.source) after := by
  rw [scan]
  split <;> next h => rw [h]

/-- The tags of a template. -/
def Site.all (attributePrefix template : Text) : List Site := scan attributePrefix [] template

/-! ## The pieces of a template -/

namespace Piece

/-- The text between two tags as a piece, unless it is empty. -/
def ofGap (s : Text) : List Piece := if s.isEmpty then [] else [.text s]

/-- A character goes to the text in front of a tag. -/
theorem consText_ofGap (c : Char) (s : Text) (ps : List Piece)
    (hps : ∀ r qs, ps ≠ .text r :: qs) :
    consText c (ofGap s ++ ps) = ofGap (c :: s) ++ ps := by
  cases s with
  | cons d s => rfl
  | nil =>
    cases ps with
    | nil => rfl
    | cons p ps =>
      cases p with
      | text r => exact absurd rfl (hps r ps)
      | tag t source => rfl

/-- Pieces read after some characters are those of what is left. -/
theorem ofText_go_eq (attributePrefix : Text) (k : Nat) (s : Text) :
    ofText.go attributePrefix k s = ofText.go attributePrefix 0 (s.drop k) := by
  induction s generalizing k with
  | nil => cases k <;> rfl
  | cons c s ih =>
    cases k with
    | zero => rfl
    | succ k => rw [ofText.go, ih]; simp

/-- **The pieces of a template begin with those up to its first tag.** -/
theorem ofText_eq (attributePrefix s : Text) :
    ofText attributePrefix s =
      match Tag.next? attributePrefix s with
      | none => ofGap s
      | some (site, after) =>
        ofGap site.before ++ .tag site.tag site.source :: ofText attributePrefix after := by
  simp only [ofText]
  induction s with
  | nil => rfl
  | cons c s ih =>
    rw [ofText.go, Tag.next?]
    -- A tag is never empty, so the one character it starts with is its own.
    cases hread : Tag.read? attributePrefix (c :: s) with
    | some r =>
      obtain ⟨source, rest, hs, hlength, hparsed⟩ := Tag.parsed_of_read? hread
      have hpos := List.length_pos_iff.2 hparsed.source_ne_nil
      obtain ⟨tag, n, rfl⟩ : ∃ tag n, r = (tag, n + 1) :=
        ⟨r.1, r.2 - 1, Prod.ext rfl (by dsimp only; omega)⟩
      dsimp only
      rw [ofText_go_eq]
      rfl
    | none =>
      dsimp only
      rw [ih]
      cases Tag.next? attributePrefix s with
      | none => simpa using consText_ofGap c s [] (by simp)
      | some r =>
        exact consText_ofGap c r.1.before (.tag r.1.tag r.1.source :: ofText.go _ 0 r.2) (by simp)

/-- Induction over a template: it has no tag, or a first tag and the rest. -/
theorem ofText_induction (attributePrefix : Text) {motive : Text → Prop}
    (text : ∀ s, Tag.next? attributePrefix s = none → motive s)
    (tag : ∀ s site after, Tag.next? attributePrefix s = some (site, after) →
      motive after → motive s)
    (s : Text) : motive s := by
  induction hn : s.length using Nat.strong_induction_on generalizing s with
  | _ n ih =>
    cases h : Tag.next? attributePrefix s with
    | none => exact text s h
    | some r =>
      have hlt := Tag.length_lt_of_next? h
      exact tag s r.1 r.2 h (ih _ (by omega) r.2 rfl)

@[simp] theorem flatMap_source_ofGap (s : Text) : (ofGap s).flatMap source = s := by
  cases s <;> simp [ofGap, source]

/-- **The pieces of a template make up the template.** -/
theorem flatMap_source_ofText (attributePrefix s : Text) :
    (ofText attributePrefix s).flatMap source = s := by
  induction s using ofText_induction attributePrefix with
  | text s h => rw [ofText_eq, h]; exact flatMap_source_ofGap s
  | tag s site after h ih =>
    rw [ofText_eq, h]
    simp only [List.flatMap_append, List.flatMap_cons, flatMap_source_ofGap, ih, source]
    rw [(Tag.append_of_next? h).1, List.append_assoc]

/-- **A piece is a text that is not empty, or a tag with its source.** -/
def Faithful (attributePrefix : Text) : Piece → Prop
  | text s => s ≠ []
  | tag t s => Tag.Parsed attributePrefix t s

theorem faithful_of_mem_ofText {attributePrefix s : Text} {p : Piece}
    (hp : p ∈ ofText attributePrefix s) : p.Faithful attributePrefix := by
  have hgap : ∀ {s : Text}, p ∈ ofGap s → p.Faithful attributePrefix := by
    intro s hp
    cases s with
    | nil => simp [ofGap] at hp
    | cons c s => simp only [ofGap, List.isEmpty_cons, Bool.false_eq_true, if_false,
        List.mem_singleton] at hp; subst hp; exact List.cons_ne_nil c s
  induction s using ofText_induction attributePrefix with
  | text s h => rw [ofText_eq, h] at hp; exact hgap hp
  | tag s site after h ih =>
    rw [ofText_eq, h] at hp
    simp only [List.mem_append, List.mem_cons] at hp
    rcases hp with hp | rfl | hp
    · exact hgap hp
    · exact (Tag.append_of_next? h).2
    · exact ih hp

theorem Faithful.source_ne_nil {attributePrefix : Text} {p : Piece}
    (h : p.Faithful attributePrefix) : p.source ≠ [] := by
  cases p with
  | text s => exact h
  | tag t s => exact Tag.Parsed.source_ne_nil h

/-- The tags among pieces, at the places where their sources put them after
`before`. -/
def sites (before : Text) : List Piece → List Site
  | [] => []
  | text s :: ps => sites (before ++ s) ps
  | tag t s :: ps => { before, tag := t, source := s } :: sites (before ++ s) ps

theorem sites_ofGap (before s : Text) (ps : List Piece) :
    sites before (ofGap s ++ ps) = sites (before ++ s) ps := by
  cases s <;> simp [ofGap, sites]

theorem sites_append (before : Text) (ps qs : List Piece) :
    sites before (ps ++ qs) = sites before ps ++ sites (before ++ ps.flatMap source) qs := by
  induction ps generalizing before with
  | nil => simp [sites]
  | cons p ps ih => cases p <;> simp [sites, ih, source]

end Piece

/-- **The search for tags and the cut into pieces see the same tags.** -/
theorem scan_eq_sites (attributePrefix before s : Text) :
    Site.scan attributePrefix before s =
      Piece.sites before (Piece.ofText attributePrefix s) := by
  induction s using Piece.ofText_induction attributePrefix generalizing before with
  | text s h =>
    have hgap := Piece.sites_ofGap before s []
    rw [List.append_nil] at hgap
    rw [Site.scan_eq, Piece.ofText_eq, h, hgap]
    rfl
  | tag s site after h ih =>
    rw [Site.scan_eq, Piece.ofText_eq, h, Piece.sites_ofGap]
    simp only [Piece.sites, ih]

theorem Site.all_eq (attributePrefix template : Text) :
    Site.all attributePrefix template =
      Piece.sites [] (Piece.ofText attributePrefix template) :=
  scan_eq_sites attributePrefix [] template

end Template

end FormTemplate
