import FormTemplate.Proofs.Template.Reached

/-!
# Which templates compile

A template compiles when its opening tags have names and its directives are
properly nested. Otherwise it is refused for its first offence: `Offence`
says what is wrong with a tag after the tags before it, and `Blamed` which
offence of a whole template counts. `compile_accepts_nested` says that
the compiler decides all this, error by error. What links the two sides is
`refused_iff_offence`: the directives that a compilation has open are
those that the tags so far leave open.
-/

namespace FormTemplate

namespace Template

open FormTemplate.Bracket

/-! ## Names and brackets -/

/-- **Whether the arguments of a directive name something.** An input is
named by what stands before the first colon of the first word. -/
def Directive.HasName : Directive → Text → Prop
  | .input, arguments =>
    ∃ word words, Arguments.words arguments = word :: words ∧ word.takeWhile (· != ':') ≠ []
  | _, arguments => Arguments.words arguments ≠ []

namespace Tag

/-- Whether a tag has the name it needs. -/
def Named : Tag → Prop
  | .opening d arguments _ => d.HasName arguments
  | .closing _ => True
  | .element _ _ arguments _ _ => Directive.HasName .input arguments

/-- The bracket that a tag is, if it opens a directive that is to be closed
or closes one. -/
def bracket? : Tag → Option (Bracket Directive)
  | .opening d _ selfClosing => if d.isPaired && !selfClosing then some (.opening d) else none
  | .closing d => some (.closing d)
  | .element .. => none

end Tag

namespace Site

/-- The brackets among tags. -/
def brackets (tags : List Site) : List (Bracket Directive) := tags.filterMap (·.tag.bracket?)

/-- **The innermost directive that tags leave open**, with its opening tag:
what follows that tag is properly nested. -/
def Innermost (tags : List Site) (o : Site) (d : Directive) : Prop :=
  o.tag.bracket? = some (.opening d) ∧
    ∃ before inside, tags = before ++ o :: inside ∧ Nested (brackets inside)

end Site

/-! ## Offences -/

/-- **What is wrong with a tag** that follows other tags, and the error it
is reported by. -/
inductive Offence (options : Options) (before : List Site) (s : Site) : CompileError → Prop
  /-- An opening tag has no name. -/
  | nameless {d : Directive} {arguments : Text} {selfClosing : Bool} :
    s.tag = .opening d arguments selfClosing → ¬ s.tag.Named →
    Offence options before s d.nameError
  /-- The directive that a start tag carries has no name. -/
  | namelessAttribute {name arguments tail : Text} {d : Directive}
      {attributes : List RawAttribute} :
    s.tag = .element name d arguments attributes tail → ¬ s.tag.Named →
    Offence options before s (.missingName (options.attributePrefix ++ d.name))
  /-- A closing tag comes when nothing is open. -/
  | unexpected {d : Directive} :
    s.tag = .closing d → Nested (Site.brackets before) →
    Offence options before s (.unexpectedClose d s.line)
  /-- A closing tag is not that of the innermost open directive. -/
  | mismatched {d e : Directive} {o : Site} :
    s.tag = .closing d → Site.Innermost before o e → e ≠ d →
    Offence options before s (.mismatchedClose e d s.line)

/-- Nothing is wrong with any of the tags. -/
def Clean (options : Options) (tags : List Site) : Prop :=
  ∀ before s after, tags = before ++ s :: after → ∀ e, ¬ Offence options before s e

/-- **The error for which tags are to blame**: that of the first offence,
or that of a directive that is never closed. -/
inductive Blamed (options : Options) (tags : List Site) : CompileError → Prop
  /-- The first tag with which something is wrong. -/
  | first {before after : List Site} {s : Site} {e : CompileError} :
    tags = before ++ s :: after → Clean options before → Offence options before s e →
    Blamed options tags e
  /-- Nothing is wrong with any tag, but a directive is left open. -/
  | unclosed {o : Site} {d : Directive} :
    Clean options tags → Site.Innermost tags o d →
    Blamed options tags (.unclosedDirective d o.line)

/-! ## What is open -/

namespace Site

variable {tags : List Site} {o o' : Site} {d d' : Directive}

@[simp] theorem brackets_append (tags others : List Site) :
    brackets (tags ++ others) = brackets tags ++ brackets others := List.filterMap_append

theorem brackets_cons (h : o.tag.bracket? = some (.opening d)) (tags : List Site) :
    brackets (o :: tags) = .opening d :: brackets tags := by
  rw [brackets, List.filterMap_cons, h]
  rfl

/-- The innermost open directive is on top of the stack. -/
theorem Innermost.opened (h : Innermost tags o d) :
    ∃ rest, opened (brackets tags) [] = d :: rest := by
  obtain ⟨ho, before, inside, rfl, hinside⟩ := h
  rw [brackets_append, brackets_cons ho, opened_append, opened_opening, opened_of_nested hinside]
  exact ⟨_, rfl⟩

/-- Properly nested tags leave nothing open. -/
theorem Innermost.not_nested (h : Innermost tags o d) : ¬ Nested (brackets tags) := by
  intro hnested
  obtain ⟨rest, hopened⟩ := h.opened
  rw [opened_of_nested hnested] at hopened
  cases hopened

/-- **Only one directive is the innermost.** -/
theorem Innermost.unique (h : Innermost tags o d) (h' : Innermost tags o' d') :
    o = o' ∧ d = d' := by
  -- What follows an innermost tag holds no other: that one would stay open.
  have hlater : ∀ {inside t inside' : List Site} {o' : Site} {d' : Directive},
      inside = t ++ o' :: inside' → o'.tag.bracket? = some (.opening d') →
      Nested (brackets inside') → ¬ Nested (brackets inside) :=
    fun heq ho' hinside' => Innermost.not_nested ⟨ho', _, _, heq, hinside'⟩
  obtain ⟨ho, before, inside, rfl, hinside⟩ := h
  obtain ⟨ho', before', inside', heq, hinside'⟩ := h'
  -- The two tags are the same, or one of them stands after the other.
  rcases List.append_eq_append_iff.1 heq with ⟨t, rfl, ht⟩ | ⟨t, rfl, ht⟩
  · cases t with
    | nil =>
      obtain ⟨rfl, -⟩ := List.cons.inj ht
      exact ⟨rfl, Bracket.opening.inj (Option.some.inj (ho.symm.trans ho'))⟩
    | cons x t => exact absurd hinside (hlater (List.cons.inj ht).2 ho' hinside')
  · cases t with
    | nil =>
      obtain ⟨rfl, -⟩ := List.cons.inj ht
      exact ⟨rfl, Bracket.opening.inj (Option.some.inj (ho.symm.trans ho'))⟩
    | cons x t => exact absurd hinside' (hlater (List.cons.inj ht).2 ho hinside)

end Site

/-! ## Names and steps -/

namespace Directive

/-- A word refers to a control when something stands before its first
colon. -/
theorem reference?_eq_none {word : Text} :
    reference? word = none ↔ word.takeWhile (· != ':') = [] := by
  obtain ⟨rest, hpieces⟩ := Text.exists_pieces_eq (· == ':') word
  have htake : (fun c => !(c == ':')) = fun c : Char => c != ':' := rfl
  rw [htake] at hpieces
  unfold reference?
  rw [hpieces]
  simp [List.isEmpty_iff]

/-- A start tag without a step is one without a name. -/
theorem attributeStep?_eq_none {name arguments : Text} {attributes : List RawAttribute} :
    attributeStep? name arguments attributes = none ↔ ¬ HasName .input arguments := by
  unfold attributeStep? HasName
  cases h : Arguments.words arguments with
  | nil => simp [h]
  | cons word words => simp [h, reference?_eq_none, -List.takeWhile_eq_nil_iff]

/-- **An opening tag without a step is one without a name.** -/
theorem openingStep?_eq_none {d : Directive} {arguments : Text} :
    d.openingStep? arguments false = none ↔ ¬ d.HasName arguments := by
  unfold openingStep? HasName
  cases h : Arguments.words arguments with
  | nil => cases d <;> simp [h]
  | cons word words => cases d <;> simp [h, reference?_eq_none, -List.takeWhile_eq_nil_iff]

end Directive

/-! ## The tags among pieces -/

namespace Piece

variable {before tags : List Site} {s : Site} {after : List Site} {ps : List Piece} {read : Text}

/-- A tag at a place of pieces is a piece there. -/
theorem exists_of_sites_eq (h : sites read ps = before ++ s :: after) :
    ∃ qs rs, ps = qs ++ .tag s.tag s.source :: rs ∧ sites read qs = before ∧
      s.before = read ++ qs.flatMap source := by
  induction ps generalizing read before with
  | nil => simp [sites] at h
  | cons p ps ih =>
    cases p with
    | text r =>
      obtain ⟨qs, rs, rfl, hqs, hs⟩ := ih h
      exact ⟨.text r :: qs, rs, rfl, hqs, by simp [hs, source]⟩
    | tag t r =>
      -- The tag looked for is this one when no tag is before it.
      cases before with
      | nil =>
        obtain ⟨rfl, -⟩ := List.cons.inj (show _ :: sites (read ++ r) ps = s :: after from h)
        exact ⟨[], ps, rfl, rfl, by simp⟩
      | cons x before =>
        have hrest := (List.cons.inj
          (show _ :: sites (read ++ r) ps = x :: (before ++ s :: after) from h)).2
        obtain ⟨qs, rs, rfl, rfl, hs⟩ := ih hrest
        have hfirst := (List.cons.inj
          (show _ :: sites (read ++ r) _ = x :: (_ ++ s :: after) from h)).1
        exact ⟨.tag t r :: qs, rs, rfl, by rw [← hfirst]; rfl, by simp [hs, source]⟩

theorem sites_append_tag (read : Text) (qs : List Piece) (t : Tag) (r : Text) (rs : List Piece) :
    sites read (qs ++ .tag t r :: rs) =
      sites read qs ++ { before := read ++ qs.flatMap source, tag := t, source := r } ::
        sites (read ++ qs.flatMap source ++ r) rs := by
  rw [sites_append]
  rfl

end Piece

theorem Site.brackets_sites_tag (read : Text) (t : Tag) (r : Text) :
    brackets (Piece.sites read [.tag t r]) = t.bracket?.toList := by
  cases h : t.bracket? <;> simp [Piece.sites, brackets, h]

/-- **A laid-out part of a template is properly nested.** -/
theorem LaidOut.nested {ps : List Piece} {parts : List Script} (h : LaidOut ps parts)
    (read : Text) : Nested (Site.brackets (Piece.sites read ps)) := by
  induction h generalizing read with
  | nil | text => exact .nil
  | append _ _ ih₁ ih₂ =>
    rw [Piece.sites_append, Site.brackets_append]
    exact .append (ih₁ _) (ih₂ _)
  | unpaired hpaired =>
    rw [Site.brackets_sites_tag, Tag.bracket?, hpaired]
    exact .nil
  | selfClosing hpaired =>
    rw [Site.brackets_sites_tag, Tag.bracket?, hpaired]
    exact .nil
  | element =>
    rw [Site.brackets_sites_tag]
    exact .nil
  | @block d arguments source source' step body parts hpaired _ _ ih =>
    rw [List.cons_append, ← List.singleton_append, Piece.sites_append, Piece.sites_append,
      Site.brackets_append, Site.brackets_append, Site.brackets_sites_tag, Site.brackets_sites_tag,
      Tag.bracket?, hpaired]
    exact .pair d (ih _)

/-! ## The open directives of a compilation -/

namespace Reached

variable {options : Options} {ps : List Piece} {c : Compilation}

/-- A compilation with nothing open has taken properly nested tags. -/
theorem nested (h : Reached options.runtimePath ps c) (hclosed : c.unclosed = []) :
    Nested (Site.brackets (Piece.sites [] ps)) := by
  obtain ⟨parts, hlaidOut, -⟩ := h.laidOut hclosed
  exact hlaidOut.nested []

/-- **The innermost open directive of a compilation** is the innermost that
the tags leave open, and remembers the line of its tag. -/
theorem innermost (h : Reached options.runtimePath ps c) {inner : OpenDirective}
    {unclosed : List OpenDirective} (hunclosed : c.unclosed = inner :: unclosed) :
    ∃ o, Site.Innermost (Piece.sites [] ps) o inner.directive ∧
      inner.occurrence.line = o.line := by
  -- The top of the stack was pushed by a tag after which all is laid out.
  obtain ⟨outer, body, parts, before, rfl, hunderway, hbody, -⟩ := h.layout
  rw [hunclosed] at hunderway
  cases hunderway with
  | @cons outer former parts' _ before d arguments source step a _ _ hpaired _ =>
    have hsites := Piece.sites_append_tag [] (outer ++ former) (.opening d arguments false) source
      body
    rw [List.append_assoc, List.singleton_append]
    exact ⟨_, ⟨by simp [Tag.bracket?, hpaired], _, _, hsites, hbody.nested _⟩, rfl⟩

end Reached

/-- **A compilation refuses a tag exactly when something is wrong with it**
after the tags it has taken. -/
theorem refused_iff_offence {options : Options} {ps : List Piece} {c : Compilation}
    (h : Reached options.runtimePath ps c) {t : Tag} {source : Text} {e : CompileError} :
    Refused options c t e ↔
      Offence options (Piece.sites [] ps) ⟨ps.flatMap Piece.source, t, source⟩ e := by
  have hline : ∀ s : Site, s.before = ps.flatMap Piece.source → c.line = s.line := by
    intro s hs
    rw [h.line, Site.line, hs]
  constructor
  · rintro (hname | hname | hclosed | ⟨hunclosed, hne⟩)
    · exact .nameless rfl (Directive.openingStep?_eq_none.1 hname)
    · exact .namelessAttribute rfl (Directive.attributeStep?_eq_none.1 hname)
    · rw [hline ⟨ps.flatMap Piece.source, _, source⟩ rfl]
      exact .unexpected rfl (h.nested hclosed)
    · obtain ⟨o, ho, -⟩ := h.innermost hunclosed
      rw [hline ⟨ps.flatMap Piece.source, _, source⟩ rfl]
      exact .mismatched rfl ho hne
  · intro hoffence
    cases hoffence with
    | nameless ht hname =>
      cases ht
      exact .nameless (Directive.openingStep?_eq_none.2 hname)
    | namelessAttribute ht hname =>
      cases ht
      exact .namelessAttribute (Directive.attributeStep?_eq_none.2 hname)
    -- For a closing tag both sides speak of the top of the stack: what is
    -- there is the innermost directive that the tags leave open.
    | unexpected ht hnested =>
      cases ht
      rw [← hline _ rfl]
      cases hunclosed : c.unclosed with
      | nil => exact .unexpected hunclosed
      | cons inner unclosed =>
        obtain ⟨o, ho, -⟩ := h.innermost hunclosed
        exact absurd hnested ho.not_nested
    | mismatched ht hinnermost hne =>
      cases ht
      rw [← hline _ rfl]
      cases hunclosed : c.unclosed with
      | nil => exact absurd (h.nested hunclosed) hinnermost.not_nested
      | cons inner unclosed =>
        obtain ⟨o, ho, -⟩ := h.innermost hunclosed
        obtain ⟨-, rfl⟩ := ho.unique hinnermost
        exact .mismatched hunclosed hne

/-! ## Runs of the compiler -/

section Run

variable {options : Options} {ps : List Piece} {c : Compilation} {e : CompileError}

/-- A run that fails does so at some piece. -/
theorem exists_of_foldlM_eq_error {c : Compilation}
    (h : ps.foldlM (Compilation.piece options) c = .error e) :
    ∃ qs p rs c', ps = qs ++ p :: rs ∧ qs.foldlM (Compilation.piece options) c = .ok c' ∧
      c'.piece options p = .error e := by
  induction ps generalizing c with
  | nil => cases h
  | cons p ps ih =>
    rw [List.foldlM_cons] at h
    cases hp : c.piece options p with
    | error e' =>
      rw [hp] at h
      cases h
      exact ⟨[], p, ps, c, rfl, rfl, hp⟩
    | ok c₁ =>
      rw [hp] at h
      obtain ⟨qs, q, rs, c', rfl, hqs, hq⟩ := ih h
      refine ⟨p :: qs, q, rs, c', rfl, ?_, hq⟩
      rw [List.foldlM_cons, hp]
      exact hqs

theorem foldlM_append_cons_eq_error {qs : List Piece} {p : Piece} {c c' : Compilation}
    (rs : List Piece) (hqs : qs.foldlM (Compilation.piece options) c = .ok c')
    (hp : c'.piece options p = .error e) :
    (qs ++ p :: rs).foldlM (Compilation.piece options) c = .error e := by
  rw [List.foldlM_append, hqs]
  change (p :: rs).foldlM (Compilation.piece options) c' = .error e
  rw [List.foldlM_cons, hp]
  rfl

/-- Something wrong with the next tag is an error there. -/
theorem piece_eq_error_of_offence {s : Site} (h : Reached options.runtimePath ps c)
    (hs : s.before = [] ++ ps.flatMap Piece.source)
    (hfaithful : (Piece.tag s.tag s.source).Faithful options.attributePrefix)
    (hoffence : Offence options (Piece.sites [] ps) s e) :
    c.piece options (.tag s.tag s.source) = .error e := by
  have hsite : s = ⟨ps.flatMap Piece.source, s.tag, s.source⟩ := by
    rw [← List.nil_append (ps.flatMap Piece.source), ← hs]
  rw [hsite] at hoffence
  exact (h.piece_eq_error hfaithful).2 ⟨_, _, rfl, (refused_iff_offence h).2 hoffence⟩

/-- **Where a run goes through, nothing is wrong.** -/
theorem clean_of_run (hps : ∀ p ∈ ps, p.Faithful options.attributePrefix)
    (hrun : ps.foldlM (Compilation.piece options) {} = .ok c) :
    Clean options (Piece.sites [] ps) := by
  intro before s after hsites e hoffence
  obtain ⟨qs, rs, rfl, rfl, hs⟩ := Piece.exists_of_sites_eq hsites
  rw [List.foldlM_append] at hrun
  cases hqs : qs.foldlM (Compilation.piece options) {} with
  | error e' => rw [hqs] at hrun; cases hrun
  | ok c' =>
    have hreached := (Reached.nil options.runtimePath).run (fun q hq => hps q (by simp [hq])) hqs
    rw [List.nil_append] at hreached
    have hpiece := piece_eq_error_of_offence hreached hs (hps _ (by simp)) hoffence
    have hfail := foldlM_append_cons_eq_error rs hqs hpiece
    rw [List.foldlM_append, hrun] at hfail
    cases hfail

/-- **Where a run fails, something is wrong**, and with no tag before. -/
theorem offence_of_run (hps : ∀ p ∈ ps, p.Faithful options.attributePrefix)
    (hrun : ps.foldlM (Compilation.piece options) {} = .error e) :
    ∃ before s after, Piece.sites [] ps = before ++ s :: after ∧ Clean options before ∧
      Offence options before s e := by
  obtain ⟨qs, p, rs, c, rfl, hqs, hp⟩ := exists_of_foldlM_eq_error hrun
  have hfaithful : ∀ q ∈ qs, q.Faithful options.attributePrefix := fun q hq => hps q (by simp [hq])
  have hreached := (Reached.nil options.runtimePath).run hfaithful hqs
  rw [List.nil_append] at hreached
  obtain ⟨t, source, rfl, hrefused⟩ := (hreached.piece_eq_error (hps p (by simp))).1 hp
  exact ⟨_, _, _, Piece.sites_append_tag [] qs t source rs, clean_of_run hfaithful hqs,
    (refused_iff_offence hreached).1 hrefused⟩

/-- **Up to the first offence a run goes through.** -/
theorem run_of_clean (hps : ∀ p ∈ ps, p.Faithful options.attributePrefix)
    (hclean : Clean options (Piece.sites [] ps)) :
    ∃ c, ps.foldlM (Compilation.piece options) {} = .ok c ∧
      Reached options.runtimePath ps c := by
  cases hrun : ps.foldlM (Compilation.piece options) {} with
  | ok c => exact ⟨c, rfl, (Reached.nil options.runtimePath).run hps hrun⟩
  | error e =>
    obtain ⟨before, s, after, hsites, -, hoffence⟩ := offence_of_run hps hrun
    exact absurd hoffence (hclean before s after hsites e)

end Run

/-! ## Acceptance -/

section Acceptance

variable {options : Options} {tags : List Site} {template : Text} {e : CompileError}

/-- **Tags with names that are properly nested are clean.** -/
theorem clean_of_nested (hnamed : ∀ s ∈ tags, s.tag.Named)
    (hnested : Nested (Site.brackets tags)) : Clean options tags := by
  rintro before s after rfl e hoffence
  -- A closing tag among nested ones closes what is on top there.
  have hclosing : ∀ {d : Directive}, s.tag = .closing d →
      ∃ rest, opened (Site.brackets before) [] = d :: rest := by
    intro d hs
    refine opened_of_nested_split (w := Site.brackets after) ?_
    rw [Site.brackets_append] at hnested
    simpa [Site.brackets, hs, Tag.bracket?] using hnested
  cases hoffence with
  | nameless _ hname => exact hname (hnamed s (by simp))
  | namelessAttribute _ hname => exact hname (hnamed s (by simp))
  | unexpected hs hbefore =>
    obtain ⟨rest, hopened⟩ := hclosing hs
    rw [opened_of_nested hbefore] at hopened
    cases hopened
  | mismatched hs ho hne =>
    obtain ⟨rest, hopened⟩ := hclosing hs
    obtain ⟨rest', hopened'⟩ := ho.opened
    exact hne (List.cons.inj (hopened'.symm.trans hopened)).1

theorem Clean.named (h : Clean options tags) : ∀ s ∈ tags, s.tag.Named := by
  intro s hs
  obtain ⟨before, after, rfl⟩ := List.append_of_mem hs
  by_contra hname
  cases htag : s.tag with
  | opening d arguments selfClosing => exact h _ _ _ rfl _ (.nameless htag hname)
  | closing d => rw [htag] at hname; exact hname trivial
  | element name d arguments attributes tail =>
    exact h _ _ _ rfl _ (.namelessAttribute htag hname)

theorem compile_of_run {c : Compilation}
    (hrun : (Piece.ofText options.attributePrefix template).foldlM (Compilation.piece options) {} =
      .ok c) :
    compile options template = c.finish := by
  rw [compile, hrun]
  rfl

theorem compile_of_run_error
    (hrun : (Piece.ofText options.attributePrefix template).foldlM (Compilation.piece options) {} =
      .error e) :
    compile options template = .error e := by
  rw [compile, hrun]
  rfl

/-- **Tags with names that are properly nested compile.** -/
theorem compile_of_nested
    (hnamed : ∀ s ∈ Site.all options.attributePrefix template, s.tag.Named)
    (hnested : Nested (Site.brackets (Site.all options.attributePrefix template))) :
    ∃ p, compile options template = .ok p := by
  have hclean : Clean options _ := clean_of_nested hnamed hnested
  rw [Site.all_eq] at hclean hnested
  obtain ⟨c, hrun, hreached⟩ := run_of_clean (fun p hp => Piece.faithful_of_mem_ofText hp) hclean
  cases hunclosed : c.unclosed with
  | nil => exact ⟨c.program, (compile_of_run hrun).trans (hreached.finish hunclosed)⟩
  | cons inner unclosed =>
    obtain ⟨o, ho, -⟩ := hreached.innermost hunclosed
    exact absurd hnested ho.not_nested

/-- **A template that does not compile is to blame for the error.** -/
theorem blamed_of_compile (h : compile options template = .error e) :
    Blamed options (Site.all options.attributePrefix template) e := by
  rw [Site.all_eq]
  have hfaithful : ∀ p ∈ Piece.ofText options.attributePrefix template,
      p.Faithful options.attributePrefix := fun p hp => Piece.faithful_of_mem_ofText hp
  cases hrun : (Piece.ofText options.attributePrefix template).foldlM
    (Compilation.piece options) {} with
  | error e' =>
    cases h.symm.trans (compile_of_run_error hrun)
    obtain ⟨before, s, after, hsites, hclean, hoffence⟩ := offence_of_run hfaithful hrun
    exact .first hsites hclean hoffence
  | ok c =>
    have hreached := (Reached.nil options.runtimePath).run hfaithful hrun
    rw [List.nil_append] at hreached
    have hfinish := h.symm.trans (compile_of_run hrun)
    cases hunclosed : c.unclosed with
    | nil => cases hfinish.trans (hreached.finish hunclosed)
    | cons inner unclosed =>
      obtain ⟨o, ho, hline⟩ := hreached.innermost hunclosed
      rw [Compilation.finish, hunclosed] at hfinish
      cases hfinish
      rw [hline]
      exact .unclosed (clean_of_run hfaithful hrun) ho

/-- **The error for which a template is to blame is the one it gets.** -/
theorem compile_of_blamed (h : Blamed options (Site.all options.attributePrefix template) e) :
    compile options template = .error e := by
  rw [Site.all_eq] at h
  have hfaithful : ∀ p ∈ Piece.ofText options.attributePrefix template,
      p.Faithful options.attributePrefix := fun p hp => Piece.faithful_of_mem_ofText hp
  cases h with
  | @first before after s _ hsites hclean hoffence =>
    obtain ⟨qs, rs, hps, rfl, hs⟩ := Piece.exists_of_sites_eq hsites
    have hqs : ∀ q ∈ qs, q.Faithful options.attributePrefix :=
      fun q hq => hfaithful q (by rw [hps]; simp [hq])
    obtain ⟨c, hrun, hreached⟩ := run_of_clean hqs hclean
    have hpiece := piece_eq_error_of_offence hreached hs (hfaithful _ (by rw [hps]; simp)) hoffence
    refine compile_of_run_error ?_
    rw [hps]
    exact foldlM_append_cons_eq_error _ hrun hpiece
  -- Without an offence the run ends, and `finish` reports what is open.
  | @unclosed o d hclean ho =>
    obtain ⟨c, hrun, hreached⟩ := run_of_clean hfaithful hclean
    rw [compile_of_run hrun]
    cases hunclosed : c.unclosed with
    | nil => exact absurd (hreached.nested hunclosed) ho.not_nested
    | cons inner unclosed =>
      obtain ⟨o', ho', hline⟩ := hreached.innermost hunclosed
      obtain ⟨rfl, rfl⟩ := ho'.unique ho
      rw [Compilation.finish, hunclosed, ← hline]

/-- **The compiler accepts exactly the properly nested templates** whose
tags have names, and reports of every other template the error for which
its tags are to blame. It never finds a fault of its own. -/
theorem compile_accepts_nested (options : Options) (template : Text) :
    ((∃ p, compile options template = .ok p) ↔
      (∀ s ∈ Site.all options.attributePrefix template, s.tag.Named) ∧
        Nested (Site.brackets (Site.all options.attributePrefix template))) ∧
    (∀ e, compile options template = .error e ↔
      Blamed options (Site.all options.attributePrefix template) e) ∧
    ∀ fault, compile options template ≠ .error (.internal fault) := by
  refine ⟨⟨?_, fun h => compile_of_nested h.1 h.2⟩,
    fun e => ⟨blamed_of_compile, compile_of_blamed⟩, ?_⟩
  · rintro ⟨p, hp⟩
    obtain ⟨parts, hlaidOut, -⟩ := laidOut_of_compile hp
    rw [Site.all_eq]
    refine ⟨?_, hlaidOut.nested []⟩
    cases hrun : (Piece.ofText options.attributePrefix template).foldlM
      (Compilation.piece options) {} with
    | error e => cases hp.symm.trans (compile_of_run_error hrun)
    | ok c => exact (clean_of_run (fun p hp => Piece.faithful_of_mem_ofText hp) hrun).named
  -- No offence is reported by a fault, nor is a directive left open.
  · intro fault hfault
    cases blamed_of_compile hfault with
    | first _ _ hoffence =>
      generalize he : CompileError.internal fault = e at hoffence
      cases hoffence with
      | @nameless d => cases d <;> cases he
      | namelessAttribute | unexpected | mismatched => cases he

end Acceptance

end Template

end FormTemplate
