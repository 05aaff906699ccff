import FormTemplate.Proofs.Template.Scanning

/-!
# Reading with more behind

What a reader takes off the beginning of a text it also takes off the
beginning of a longer text (`Tag.read?_append`), although some of its
searches run to the end of the input: none of them is taken for a result
there. So the tags of a text are tags of the text with another behind it,
unless one begins in the text that by itself begins none. `Site.Kept` says
that there is no such tag, and `Site.kept_of_plain` that plain text between
the tags rules it out.
-/

namespace FormTemplate

namespace Template

/-! ## Attributes -/

namespace RawAttribute

/-- A value is the same with more behind it, unless it runs to the end. -/
theorem value?_append {s : Text} {v : Text × Text} (h : value? s = some v)
    (hlength : v.2.length < s.length) (t : Text) : value? (s ++ t) = some v := by
  cases s with
  | nil => cases h
  | cons c s =>
    rw [value?] at h
    rw [List.cons_append, value?]
    split at h
    · next hq =>
      obtain ⟨p, hp, rfl⟩ := Option.map_eq_some_iff.1 h
      rw [if_pos hq, Text.cut?_append_right hp]
      rfl
    · next hq =>
      cases h
      have hrest : (c :: s).dropWhile (fun d => !(Text.isBlank d || d == '>')) ≠ [] := by
        intro hnil
        have hall := List.takeWhile_append_dropWhile
          (p := fun d => !(Text.isBlank d || d == '>')) (l := c :: s)
        rw [hnil, List.append_nil] at hall
        rw [hall] at hlength
        exact absurd hlength (lt_irrefl _)
      have htake := (Text.takeWhile_append_right hrest t).1
      rw [List.cons_append] at htake
      rw [if_neg hq]
      dsimp only
      rw [htake]

/-- **An attribute is the same with more behind it**, unless it runs to the
end. -/
theorem read?_append {s : Text} {a : RawAttribute} (h : read? s = some a)
    (hlength : a.source.length < s.length) (t : Text) : read? (s ++ t) = some a := by
  simp only [read?] at h ⊢
  split at h
  · cases h
  next hne =>
  have hbody : s.dropWhile Text.isBlank ≠ [] := by
    intro hnil
    rw [hnil] at hne
    simp at hne
  obtain ⟨hblanks, hafter⟩ := Text.takeWhile_append_right hbody t
  rw [hblanks, hafter]
  have hs := List.takeWhile_append_dropWhile (p := Text.isBlank) (l := s)
  generalize s.takeWhile Text.isBlank = blanks at *
  generalize s.dropWhile Text.isBlank = body at *
  rw [Text.drop_length_takeWhile] at h
  have hrest : body.dropWhile (fun c => !(Text.isBlank c || c == '=' || c == '>')) ≠ [] := by
    intro hnil
    rw [hnil] at h
    cases h
  obtain ⟨hname, hvalue⟩ := Text.takeWhile_append_right hrest t
  rw [Text.drop_length_takeWhile, hname, hvalue, if_neg hne]
  have hbody' := List.takeWhile_append_dropWhile
    (p := fun c => !(Text.isBlank c || c == '=' || c == '>')) (l := body)
  generalize body.takeWhile _ = name at *
  generalize body.dropWhile _ = after at *
  split at h
  · cases h
  · next after =>
    obtain ⟨v, hv, rfl⟩ := Option.map_eq_some_iff.1 h
    have hshort : v.2.length < after.length := by
      rw [← hs, ← hbody'] at hlength
      simp only [List.length_append, List.length_cons] at hlength
      omega
    change (value? (after ++ t)).map _ = _
    rw [value?_append hv hshort]
    rfl
  · next hnil heq =>
    obtain ⟨c, after, rfl⟩ := List.exists_cons_of_ne_nil hrest
    rw [List.cons_append]
    split
    · next hcontra => cases hcontra
    · next hcontra =>
      obtain ⟨rfl, -⟩ := List.cons.inj hcontra
      exact absurd rfl (heq after)
    · exact h

/-- Where an attribute is read there are two characters at least behind the
white space. -/
theorem exists_of_read? {s : Text} {a : RawAttribute} (h : read? s = some a) :
    ∃ c d rest, s.dropWhile Text.isBlank = c :: d :: rest := by
  simp only [read?] at h
  split at h
  · cases h
  next hne =>
  rw [Bool.or_eq_true, not_or, List.isEmpty_iff, List.isEmpty_iff] at hne
  rw [Text.drop_length_takeWhile] at h
  rcases hbody : s.dropWhile Text.isBlank with - | ⟨c, - | ⟨d, rest⟩⟩
  · rw [hbody] at hne
    exact absurd rfl hne.2
  · -- The one character is the name, and nothing follows it.
    exfalso
    rw [hbody] at hne h
    cases hc : !(Text.isBlank c || c == '=' || c == '>') with
    | true =>
      rw [List.dropWhile_cons, if_pos hc] at h
      cases h
    | false =>
      rw [List.takeWhile_cons, if_neg (Bool.eq_false_iff.1 hc)] at hne
      exact hne.2 rfl
  · exact ⟨c, d, rest, rfl⟩

end RawAttribute

namespace Tag

variable {attributePrefix s : Text}

/-- **The end of a start tag is the same with more behind it.** -/
theorem tail?_append {tail : Text} (h : tail? s = some tail) (t : Text) :
    tail? (s ++ t) = some tail := by
  have hne : s.dropWhile Text.isBlank ≠ [] := by
    intro hnil
    rw [tail?, hnil] at h
    cases h
  obtain ⟨htake, hdrop⟩ := Text.takeWhile_append_right hne t
  rw [tail?] at h ⊢
  rw [htake, hdrop]
  split at h
  · next heq => rw [heq]; exact h
  · next heq => rw [heq]; exact h
  · cases h

/-- Nor does a start tag end where it went on with an attribute. -/
theorem tail?_append_eq_none {a : RawAttribute} (h : tail? s = none)
    (hread : RawAttribute.read? s = some a) (t : Text) : tail? (s ++ t) = none := by
  obtain ⟨c, d, rest, hbody⟩ := RawAttribute.exists_of_read? hread
  have hdrop := (Text.takeWhile_append_right (by rw [hbody]; exact List.cons_ne_nil _ _) t).2
  rw [tail?, hbody] at h
  rw [tail?, hdrop, hbody, List.cons_append, List.cons_append]
  split at h
  · cases h
  · cases h
  · next hnot hnot' =>
    split
    · next heq =>
      obtain ⟨rfl, -⟩ := List.cons.inj heq
      exact absurd rfl (hnot (d :: rest))
    · next heq =>
      obtain ⟨rfl, htail⟩ := List.cons.inj heq
      obtain ⟨rfl, -⟩ := List.cons.inj htail
      exact absurd rfl (hnot' rest)
    · rfl

/-- **Attributes are the same with more behind them.** -/
theorem attributes?_append {r : List RawAttribute × Text} (h : attributes? s = some r)
    (t : Text) : attributes? (s ++ t) = some r := by
  rw [attributes?] at h ⊢
  -- The length, because an attribute takes several characters at once.
  induction hn : s.length using Nat.strongRecOn generalizing s r with
  | ind n ih =>
    cases s with
    | nil => exact absurd h (by simp [attributes?_go_nil])
    | cons c s =>
      rw [attributes?_go_cons] at h
      rw [List.cons_append, attributes?_go_cons, ← List.cons_append]
      split at h
      next tail htail =>
        cases h
        rw [tail?_append htail]
      next htail =>
        obtain ⟨a, ha, hothers⟩ := Option.bind_eq_some_iff.1 h
        obtain ⟨q, hq, hresult⟩ := Option.bind_eq_some_iff.1 hothers
        obtain ⟨hspelled, rest, hrest⟩ := RawAttribute.append_of_read? ha
        obtain ⟨d, source, hsource⟩ := List.exists_cons_of_ne_nil hspelled.source_ne_nil
        have hcons := hrest
        rw [hsource, List.cons_append] at hcons
        obtain ⟨rfl, rfl⟩ := List.cons.inj hcons
        rw [attributes?_go_eq, hsource, List.length_cons, Nat.add_sub_cancel, List.drop_left] at hq
        -- Attributes are not read off nothing, so this one does not run to the end.
        have hrest_ne : rest ≠ [] := by
          rintro rfl
          rw [attributes?_go_nil] at hq
          cases hq
        have hlength : a.source.length < (c :: (source ++ rest)).length := by
          have hpos := List.length_pos_iff.2 hrest_ne
          rw [hsource, List.length_cons, List.length_cons, List.length_append]
          omega
        have hgo := ih rest.length
          (by simp only [List.length_cons, List.length_append] at hn; omega) hq rfl
        rw [tail?_append_eq_none htail ha, RawAttribute.read?_append ha hlength]
        dsimp only
        rw [Option.bind_some, attributes?_go_eq, hsource, List.length_cons, Nat.add_sub_cancel,
          List.append_assoc, List.drop_left, hgo]
        exact hresult

/-- A tag in braces is the same with more behind it. -/
theorem brace?_append {r : Tag × Nat} (h : brace? s = some r) (t : Text) :
    brace? (s ++ t) = some r := by
  rw [brace?] at h ⊢
  split at h
  · cases h
  · next content c rest heq =>
    rw [Quotation.spanUntil_append_right heq]
    exact h

/-- And so is a start tag. -/
theorem element?_append {r : Tag × Nat} (h : element? attributePrefix s = some r) (t : Text) :
    element? attributePrefix (s ++ t) = some r := by
  rw [element?] at h ⊢
  dsimp only at h ⊢
  split at h
  case isFalse => cases h
  next hfirst =>
  obtain ⟨⟨as, tail⟩, has, h⟩ := Option.bind_eq_some_iff.1 h
  rw [Text.drop_length_takeWhile] at has
  have hne : s.dropWhile isNameChar ≠ [] := by
    intro hnil
    rw [hnil, attributes?, attributes?_go_nil] at has
    cases has
  obtain ⟨htake, hdrop⟩ := Text.takeWhile_append_right hne t
  rw [Text.drop_length_takeWhile, htake, hdrop, if_pos hfirst, attributes?_append has]
  exact h

/-- **A tag is read in the same way with more behind it.** -/
theorem read?_append {r : Tag × Nat} (h : read? attributePrefix s = some r) (t : Text) :
    read? attributePrefix (s ++ t) = some r := by
  unfold read? at h
  split at h
  · exact brace?_append h t
  · exact element?_append h t
  · cases h

variable {site : Site} {after u : Text}

/-- Where no tag begins in the first of two texts, the first tag of both is
that of the second. -/
theorem next?_append (t : Text)
    (h : ∀ r, next? attributePrefix (s ++ t) = some r → s.length ≤ r.1.before.length) :
    next? attributePrefix (s ++ t) =
      (next? attributePrefix t).map fun r => ({ r.1 with before := s ++ r.1.before }, r.2) := by
  induction s with
  | nil => cases hnext : next? attributePrefix t <;> simp [hnext]
  | cons c s ih =>
    rw [List.cons_append, next?] at h ⊢
    cases hread : read? attributePrefix (c :: (s ++ t)) with
    | some r =>
      rw [hread] at h
      exact absurd (h _ rfl) (by simp)
    | none =>
      rw [hread] at h
      dsimp only at h ⊢
      rw [ih, Option.map_map]
      · rfl
      · intro r hr
        have hlength := h _ (by rw [hr]; rfl)
        simpa using hlength

/-- A tag begins with a brace or an angle bracket. -/
theorem read?_cons_eq_none {c : Char} (hbrace : c ≠ '\x7b') (hangle : c ≠ '<') :
    read? attributePrefix (c :: s) = none := by
  unfold read?
  split
  · next heq => exact absurd (List.cons.inj heq).1 hbrace
  · next heq => exact absurd (List.cons.inj heq).1 hangle
  · rfl

/-- Text without a brace or an angle bracket holds the beginning of no tag. -/
theorem le_length_of_next?_append (hplain : ∀ c ∈ s, c ≠ '\x7b' ∧ c ≠ '<') {t : Text}
    {r : Site × Text} (h : next? attributePrefix (s ++ t) = some r) :
    s.length ≤ r.1.before.length := by
  induction s generalizing r with
  | nil => exact Nat.zero_le _
  | cons c s ih =>
    obtain ⟨hc, hs⟩ := List.forall_mem_cons.1 hplain
    rw [List.cons_append, next?, read?_cons_eq_none hc.1 hc.2] at h
    obtain ⟨q, hq, rfl⟩ := Option.map_eq_some_iff.1 h
    exact Nat.succ_le_succ (ih hs hq)

/-- **The first tag is the first with more behind it**, when the text in
front of it holds the beginning of no other. -/
theorem next?_append_of_plain (h : next? attributePrefix s = some (site, after))
    (hplain : ∀ c ∈ site.before, c ≠ '\x7b' ∧ c ≠ '<') (t : Text) :
    next? attributePrefix (s ++ t) = some (site, after ++ t) := by
  induction s generalizing site with
  | nil => cases h
  | cons c s ih =>
    rw [next?] at h
    rw [List.cons_append, next?, ← List.cons_append]
    split at h
    next tag length hread =>
      cases h
      obtain ⟨source, rest, hs, hlength, -⟩ := parsed_of_read? hread
      dsimp only at hlength
      rw [read?_append hread, hs, hlength, List.append_assoc]
      simp
    next hread =>
      obtain ⟨q, hq, hsite⟩ := Option.map_eq_some_iff.1 h
      cases hsite
      obtain ⟨hc, hbefore⟩ := List.forall_mem_cons.1 hplain
      rw [List.cons_append, read?_cons_eq_none hc.1 hc.2]
      dsimp only
      rw [ih hq hbefore]
      rfl

end Tag

/-! ## The tags of two templates -/

namespace Site

variable {attributePrefix before s t : Text} {site : Site}

/-- A tag of a text begins in the text. -/
theorem bounds_of_mem_scan (h : site ∈ scan attributePrefix before s) :
    before.length ≤ site.before.length ∧ site.before.length < (before ++ s).length := by
  induction s using Piece.ofText_induction attributePrefix generalizing before with
  | text s hnext => rw [scan_eq, hnext] at h; cases h
  | tag s first after hnext ih =>
    obtain ⟨hs, hparsed⟩ := Tag.append_of_next? hnext
    have hpos := List.length_pos_iff.2 hparsed.source_ne_nil
    rw [scan_eq, hnext] at h
    dsimp only at hs hpos h
    rw [hs]
    rcases List.mem_cons.1 h with rfl | h
    · simp only [List.length_append]
      omega
    · obtain ⟨hle, hlt⟩ := ih h
      simp only [List.length_append] at hle hlt ⊢
      omega

/-- The tags of a text are its first tag and those that follow. -/
theorem scan_of_next? {after : Text} (h : Tag.next? attributePrefix s = some (site, after)) :
    scan attributePrefix before s = { site with before := before ++ site.before } ::
      scan attributePrefix (before ++ site.before ++ site.source) after := by
  rw [scan_eq, h]

/-- **The tags of two texts that begin in the first** are the tags that it
has by itself. -/
def Kept (attributePrefix before s t : Text) : Prop :=
  ∀ site, site ∈ scan attributePrefix before s ↔
    site ∈ scan attributePrefix before (s ++ t) ∧ site.before.length < (before ++ s).length

/-- Then the first tag is the first of both. -/
theorem Kept.next? {after : Text} (h : Kept attributePrefix before s t)
    (hnext : Tag.next? attributePrefix s = some (site, after)) :
    Tag.next? attributePrefix (s ++ t) = some (site, after ++ t) := by
  have hscan : scan attributePrefix before s = _ := scan_of_next? hnext
  obtain ⟨hmem, hlt⟩ := (h { site with before := before ++ site.before }).1
    (by rw [hscan]; exact List.mem_cons_self)
  cases hnext' : Tag.next? attributePrefix (s ++ t) with
  | none =>
    rw [scan_eq, hnext'] at hmem
    cases hmem
  | some r =>
    obtain ⟨site', after'⟩ := r
    have hboth : scan attributePrefix before (s ++ t) = _ := scan_of_next? hnext'
    -- The first tag of both begins no later than that of the first, so it
    -- is one of its tags, and none of those that follow.
    have hfirst : ({ site with before := before ++ site.before } : Site) =
        { site' with before := before ++ site'.before } := by
      rw [hboth] at hmem
      rcases List.mem_cons.1 hmem with heq | htail
      · exact heq
      have hlater := (bounds_of_mem_scan htail).1
      have hle : (before ++ site'.before).length ≤ (before ++ site.before).length := by
        simp only [List.length_append] at hlater ⊢
        omega
      have hmem' := (h { site' with before := before ++ site'.before }).2
        ⟨by rw [hboth]; exact List.mem_cons_self, lt_of_le_of_lt hle hlt⟩
      rw [hscan] at hmem'
      rcases List.mem_cons.1 hmem' with heq | htail'
      · exact heq.symm
      have hlater' := (bounds_of_mem_scan htail').1
      have hpos := List.length_pos_iff.2 (Tag.append_of_next? hnext).2.source_ne_nil
      simp only [List.length_append] at hlater' hle hpos
      omega
    obtain ⟨u, tag, source⟩ := site
    obtain ⟨u', tag', source'⟩ := site'
    simp only [Site.mk.injEq, List.append_cancel_left_eq] at hfirst
    obtain ⟨rfl, rfl, rfl⟩ := hfirst
    have hst := (Tag.append_of_next? hnext').1
    rw [(Tag.append_of_next? hnext).1, List.append_assoc (u ++ source)] at hst
    rw [List.append_cancel_left hst]

/-- And what follows it keeps its tags. -/
theorem Kept.tail {after : Text} (h : Kept attributePrefix before s t)
    (hnext : Tag.next? attributePrefix s = some (site, after)) :
    Kept attributePrefix (before ++ site.before ++ site.source) after t := by
  obtain ⟨hs, hparsed⟩ := Tag.append_of_next? hnext
  have hpos := List.length_pos_iff.2 hparsed.source_ne_nil
  intro site'
  have hsite := h site'
  rw [scan_of_next? hnext, scan_of_next? (h.next? hnext), List.mem_cons, List.mem_cons] at hsite
  -- The first tag begins before all that follow.
  have hne : ∀ {rest : Text}, site' ∈ scan attributePrefix
      (before ++ site.before ++ site.source) rest →
      site' ≠ { site with before := before ++ site.before } := by
    rintro rest hmem rfl
    have hle := (bounds_of_mem_scan hmem).1
    simp only [List.length_append] at hle hpos
    omega
  have hlength : before ++ s = before ++ site.before ++ site.source ++ after := by
    simp [hs]
  rw [hlength] at hsite
  constructor
  · intro hmem
    obtain ⟨heq | hboth, hlt⟩ := hsite.1 (.inr hmem)
    · exact absurd heq (hne hmem)
    · exact ⟨hboth, hlt⟩
  · rintro ⟨hmem, hlt⟩
    rcases hsite.2 ⟨.inr hmem, hlt⟩ with heq | hmem'
    · exact absurd heq (hne hmem)
    · exact hmem'

/-- **Where the text between the tags is plain**, the tags of two texts are
those of the first and those of the second. -/
theorem scan_append_of_plain
    (hplain : ∀ r, .text r ∈ Piece.ofText attributePrefix s → '\x7b' ∉ r ∧ '<' ∉ r) (t : Text) :
    scan attributePrefix before (s ++ t) =
      scan attributePrefix before s ++ scan attributePrefix (before ++ s) t := by
  have hgap : ∀ {u : Text} {ps : List Piece},
      (∀ r, .text r ∈ Piece.ofGap u ++ ps → '\x7b' ∉ r ∧ '<' ∉ r) →
      ∀ c ∈ u, c ≠ '\x7b' ∧ c ≠ '<' := by
    intro u ps hu c hc
    have hmem : Piece.text u ∈ Piece.ofGap u ++ ps := by
      rw [Piece.ofGap, if_neg (by simpa using List.ne_nil_of_mem hc)]
      exact List.mem_cons_self
    obtain ⟨hbrace, hangle⟩ := hu u hmem
    exact ⟨fun heq => hbrace (heq ▸ hc), fun heq => hangle (heq ▸ hc)⟩
  induction s using Piece.ofText_induction attributePrefix generalizing before with
  | text s hnext =>
    rw [Piece.ofText_eq, hnext, ← List.append_nil (Piece.ofGap s)] at hplain
    rw [scan_eq _ _ (s ++ t), scan_eq _ _ s, scan_eq _ _ t, hnext,
      Tag.next?_append t fun r => Tag.le_length_of_next?_append (hgap hplain)]
    cases Tag.next? attributePrefix t <;> simp
  | tag s site after hnext ih =>
    rw [Piece.ofText_eq, hnext] at hplain
    rw [scan_of_next? hnext,
      scan_of_next? (Tag.next?_append_of_plain hnext (hgap hplain) t), ih, List.cons_append,
      (Tag.append_of_next? hnext).1]
    · simp
    · exact fun r hr => hplain r (by simp [hr])

/-- So the second template leaves the tags of the first alone. -/
theorem kept_of_plain
    (hplain : ∀ r, .text r ∈ Piece.ofText attributePrefix s → '\x7b' ∉ r ∧ '<' ∉ r) (t : Text) :
    Kept attributePrefix before s t := by
  intro site
  rw [scan_append_of_plain hplain, List.mem_append]
  constructor
  · exact fun hmem => ⟨.inl hmem, (bounds_of_mem_scan hmem).2⟩
  · rintro ⟨hmem | hmem, hlt⟩
    · exact hmem
    · exact absurd (bounds_of_mem_scan hmem).1 (by omega)

/-- Tags are the same wherever their text stands. -/
theorem map_tag_scan (before before' : Text) :
    (scan attributePrefix before s).map tag = (scan attributePrefix before' s).map tag := by
  induction s using Piece.ofText_induction attributePrefix generalizing before before' with
  | text s hnext => simp [scan_eq, hnext]
  | tag s site after hnext ih =>
    rw [scan_of_next? hnext, scan_of_next? hnext, List.map_cons, List.map_cons, ih]

end Site

end Template

end FormTemplate
