import FormTemplate.Proofs.Form.Addresses

/-!
# Controls that share an id

The id of a control joins the names that lead to it by hyphens, and a name may
hold hyphens itself. So an id tells the pieces of the names between hyphens
(`syllables`), but not which of them make up one name: two controls share an
id exactly when their paths have the same pieces (`dashed_eq_iff`). Where no
name holds a hyphen the pieces are the names, no two controls share an id, and
a label points at its own control only.
-/

namespace FormTemplate

namespace Form

open Component Markup

variable {path path' : List Text}

/-! ## What an id spells -/

/-- The names of a path, each cut at its hyphens. -/
def syllables (path : List Text) : List Text := path.flatMap (Text.pieces (· == '-'))

theorem pieces_append_dashed (s : Text) (path : List Text) :
    Text.pieces (· == '-') (s ++ dashed path) = Text.pieces (· == '-') s ++ syllables path := by
  induction path generalizing s with
  | nil => simp [dashed, syllables]
  | cons name path ih =>
    have hdashed : s ++ dashed (name :: path) = s ++ '-' :: (name ++ dashed path) := rfl
    rw [hdashed, Text.pieces_append (by rfl), ih name]
    rfl

/-- **What hyphens join is told by the pieces between them**, whichever of the
hyphens belong to names. -/
theorem dashed_eq_iff : dashed path = dashed path' ↔ syllables path = syllables path' := by
  have hpieces : ∀ path, Text.pieces (· == '-') (dashed path) = [] :: syllables path :=
    fun path => pieces_append_dashed [] path
  constructor
  · intro h
    have hcut := congrArg (Text.pieces (· == '-')) h
    rw [hpieces, hpieces] at hcut
    exact (List.cons.inj hcut).2
  · intro h
    rw [← Text.intercalate_pieces '-' (dashed path), ← Text.intercalate_pieces '-' (dashed path'),
      hpieces, hpieces, h]

/-- A path without hyphens is read back from its pieces. -/
theorem syllables_eq_self (h : ∀ name ∈ path, '-' ∉ name) : syllables path = path := by
  induction path with
  | nil => rfl
  | cons name path ih =>
    obtain ⟨hname, hpath⟩ := List.forall_mem_cons.1 h
    have hcut : syllables (name :: path) = Text.pieces (· == '-') name ++ syllables path := rfl
    rw [hcut, Text.pieces_of_not_mem hname, ih hpath, List.singleton_append]

/-! ## Which controls share an id -/

namespace Container

variable {c : Container}

/-- **Two controls share an id when their paths have the same pieces.** -/
theorem Addressed.htmlId_eq_iff (h : c.Addressed) {p q : List Text × Control}
    (hp : p ∈ c.directory) (hq : q ∈ c.directory) :
    p.2.htmlId = q.2.htmlId ↔ syllables p.1 = syllables q.1 := by
  rw [h.htmlId_controlAt (h.mem_directory_iff.1 hp), h.htmlId_controlAt (h.mem_directory_iff.1 hq),
    List.append_cancel_left_eq, dashed_eq_iff]

/-- So no two do exactly when the pieces tell the paths apart. -/
theorem Addressed.nodup_htmlId_iff (h : c.Addressed) :
    (c.directory.map fun p => p.2.htmlId).Nodup ↔
      ∀ p ∈ c.directory, ∀ q ∈ c.directory, syllables p.1 = syllables q.1 → p.1 = q.1 := by
  rw [List.nodup_map_iff_inj_on h.nodup_directory.of_map]
  constructor
  · intro hinj p hp q hq heq
    exact congrArg Prod.fst (hinj p hp q hq ((h.htmlId_eq_iff hp hq).2 heq))
  · intro hpaths p hp q hq heq
    exact List.inj_on_of_nodup_map h.nodup_directory hp hq
      (hpaths p hp q hq ((h.htmlId_eq_iff hp hq).1 heq))

end Container

/-! ## Labels -/

/-- **A label points at a control** when it names the control's id. -/
def PointsAt (label : Element) (c : Control) : Prop :=
  label.getText? "for".toList = some c.htmlId

/-- The label of a control points at the controls that share its id; the
label of a group points at none. -/
theorem Control.pointsAt_label_iff {c d : Control} {caption : Option Text} {label : Element}
    (h : c.label caption = some label) :
    PointsAt label d ↔ c.kind.isRadioList = false ∧ c.htmlId = d.htmlId := by
  have hpointing : (c.pointingLabel caption).attributes = [("for".toList, .text c.htmlId)] := by
    rw [pointingLabel]
    split <;> rfl
  rw [Control.label] at h
  split at h
  · cases h
    rw [PointsAt]
    cases hgroup : c.kind.isRadioList with
    | true => simp [Element.getText?, Element.get?, Element.erase, hpointing, Attributes.erase,
        Attributes.get?]
    | false => simp [Element.getText?, Element.get?, hpointing, Attributes.get?,
        AttributeValue.text?]
  · cases h

/-! ## Forms as they are stored -/

namespace Storage

variable {s : Storage} {containers containers' : List Text} {name name' : Text} {c c' : Control}

/-- What the directory lists is led to. -/
theorem exists_leadTo_of_mem_directory (hs : s.toContainer.Addressed) {p : List Text × Control}
    (hp : p ∈ s.toContainer.directory) :
    ∃ containers name, p.1 = containers ++ [name] ∧ s.LeadTo containers name p.2 := by
  obtain ⟨path, c⟩ := p
  have hat := hs.mem_directory_iff.1 hp
  rcases List.eq_nil_or_concat' path with rfl | ⟨containers, name, rfl⟩
  · cases hat
  · exact ⟨containers, name, rfl, controlAt_toContainer.1 hat⟩

/-- A path tells the containers from the name at its end. -/
theorem path_inj (h : containers ++ [name] = containers' ++ [name']) :
    containers = containers' ∧ name = name' := by
  obtain ⟨hcontainers, hname⟩ := List.append_inj' h rfl
  exact ⟨hcontainers, List.singleton_inj.1 hname⟩

theorem LeadTo.htmlId_eq_iff (h : s.LeadTo containers name c) (h' : s.LeadTo containers' name' c')
    (hs : s.toContainer.Addressed) :
    c.htmlId = c'.htmlId ↔
      syllables (containers ++ [name]) = syllables (containers' ++ [name']) :=
  hs.htmlId_eq_iff (h.mem_directory hs) (h'.mem_directory hs)

/-- **When all ids of a form differ.** -/
theorem nodup_htmlId_iff (hs : s.toContainer.Addressed) :
    (((s.walk true).filterMap Stored.control?).map Control.htmlId).Nodup ↔
      ∀ containers name c containers' name' c', s.LeadTo containers name c →
        s.LeadTo containers' name' c' →
          syllables (containers ++ [name]) = syllables (containers' ++ [name']) →
            containers = containers' ∧ name = name' := by
  have hids : ((s.walk true).filterMap Stored.control?).map Control.htmlId =
      s.toContainer.directory.map fun p => p.2.htmlId := by
    rw [← controls_toContainer, ← Container.map_snd_directory, List.map_map]
    rfl
  rw [hids, hs.nodup_htmlId_iff]
  constructor
  · intro hpaths containers name c containers' name' c' hc hc' heq
    exact path_inj (hpaths _ (hc.mem_directory hs) _ (hc'.mem_directory hs) heq)
  · intro hpaths p hp q hq heq
    obtain ⟨containers, name, hpath, hc⟩ := exists_leadTo_of_mem_directory hs hp
    obtain ⟨containers', name', hpath', hc'⟩ := exists_leadTo_of_mem_directory hs hq
    rw [hpath, hpath'] at heq ⊢
    obtain ⟨rfl, rfl⟩ := hpaths _ _ _ _ _ _ hc hc' heq
    rfl

/-- Without hyphens in names the pieces of a path are its names. -/
theorem LeadTo.syllables_eq (h : s.LeadTo containers name c) (hs : s.toContainer.Addressed)
    (hnames : ∀ d ∈ s.walk true, '-' ∉ d.name) :
    syllables (containers ++ [name]) = containers ++ [name] := by
  refine syllables_eq_self fun n hn => ?_
  -- The names on a path are names of components.
  obtain ⟨d, hd, rfl⟩ := Container.exists_of_mem_path (h.mem_directory hs) hn
  rw [← map_walk] at hd
  obtain ⟨e, he, rfl⟩ := List.mem_map.1 hd
  rw [name_toComponent]
  exact hnames e he

/-- **Whatever is added to a form**, two controls share an id exactly when
the names that lead to them, cut at their hyphens, have the same pieces, and
the label of the one points at the other then. So no two controls at any depth
share an id exactly when no two paths have the same pieces; in particular
when no component has a hyphen in its name, and then a label points at one
control only. -/
theorem addAll_pageIds (formName : Text) (as : List Addition) :
    let s := (root formName).addAll as
    let ids := ((s.walk true).filterMap Stored.control?).map Control.htmlId
    (∀ containers name c containers' name' c', s.LeadTo containers name c →
      s.LeadTo containers' name' c' →
      (c.htmlId = c'.htmlId ↔
        syllables (containers ++ [name]) = syllables (containers' ++ [name'])) ∧
      ∀ caption label, c.label caption = some label →
        (PointsAt label c' ↔ c.kind.isRadioList = false ∧
          syllables (containers ++ [name]) = syllables (containers' ++ [name']))) ∧
    (ids.Nodup ↔ ∀ containers name c containers' name' c', s.LeadTo containers name c →
      s.LeadTo containers' name' c' →
        syllables (containers ++ [name]) = syllables (containers' ++ [name']) →
          containers = containers' ∧ name = name') ∧
    ((∀ d ∈ s.walk true, '-' ∉ d.name) → ids.Nodup ∧
      ∀ containers name c containers' name' c', s.LeadTo containers name c →
        s.LeadTo containers' name' c' → ∀ caption label, c.label caption = some label →
          PointsAt label c' → containers = containers' ∧ name = name') := by
  intro s ids
  have hs : s.toContainer.Addressed := (built_toContainer formName as).addressed
  have hnodup := nodup_htmlId_iff hs
  refine ⟨fun containers name c containers' name' c' hc hc' => ?_, hnodup, fun hnames => ?_⟩
  · refine ⟨hc.htmlId_eq_iff hc' hs, fun caption label hlabel => ?_⟩
    rw [Control.pointsAt_label_iff hlabel, hc.htmlId_eq_iff hc' hs]
  · have hpath : ∀ containers name c containers' name' c', s.LeadTo containers name c →
        s.LeadTo containers' name' c' →
          syllables (containers ++ [name]) = syllables (containers' ++ [name']) →
            containers = containers' ∧ name = name' := by
      intro containers name c containers' name' c' hc hc' heq
      rw [hc.syllables_eq hs hnames, hc'.syllables_eq hs hnames] at heq
      exact path_inj heq
    refine ⟨hnodup.2 hpath, fun containers name c containers' name' c' hc hc' caption label
      hlabel hpoints => ?_⟩
    have hid := (Control.pointsAt_label_iff hlabel).1 hpoints
    exact hpath _ _ _ _ _ _ hc hc' ((hc.htmlId_eq_iff hc' hs).1 hid.2)

/-- A container with a control and a control of the joined name share an id,
and the label of the second points at the first; with other names it is theirs
alone. -/
theorem addAll_pageIds_of_hyphen :
    let s := (root ['f']).addAll
      [.container ['a'] [.control ['b'] .text {}], .control "a-b".toList .text {}]
    (∃ c c' label, s.LeadTo [['a']] ['b'] c ∧ s.LeadTo [] "a-b".toList c' ∧
      c.htmlName ≠ c'.htmlName ∧ c.htmlId = c'.htmlId ∧ c'.label none = some label ∧
      PointsAt label c' ∧ PointsAt label c) ∧
    ¬ (((s.walk true).filterMap Stored.control?).map Control.htmlId).Nodup ∧
    (((((root ['f']).addAll [.container ['a'] [.control ['b'] .text {}],
      .control "a_b".toList .text {}]).walk true).filterMap Stored.control?).map
        Control.htmlId).Nodup := by
  intro s
  obtain ⟨c, hc, hname⟩ : ∃ c, s.LeadTo [['a']] ['b'] c ∧ c.htmlName = "a[b]".toList :=
    ⟨_, ⟨_, rfl, rfl⟩, by decide⟩
  obtain ⟨c', hc', hname', hkind⟩ : ∃ c', s.LeadTo [] "a-b".toList c' ∧
      c'.htmlName = "a-b".toList ∧ c'.kind = .text := ⟨_, ⟨_, rfl, rfl⟩, by decide, rfl⟩
  obtain ⟨label, hlabel⟩ : ∃ label, c'.label none = some label := by
    rw [Control.label, hkind]
    exact ⟨_, rfl⟩
  have hgroup : c'.kind.isRadioList = false := by rw [hkind]; rfl
  have hpieces : syllables ([] ++ ["a-b".toList]) = syllables ([['a']] ++ [['b']]) := by decide
  obtain ⟨hshare, hnodup, -⟩ := addAll_pageIds ['f']
    [.container ['a'] [.control ['b'] .text {}], .control "a-b".toList .text {}]
  obtain ⟨hid, hpoints⟩ := hshare _ _ _ _ _ _ hc' hc
  refine ⟨⟨c, c', label, hc, hc', ?_, (hid.2 hpieces).symm, hlabel, ?_, ?_⟩,
    fun hdistinct => ?_, ?_⟩
  · rw [hname, hname']
    decide
  · exact ((hshare _ _ _ _ _ _ hc' hc').2 none label hlabel).2 ⟨hgroup, rfl⟩
  · exact (hpoints none label hlabel).2 ⟨hgroup, hpieces⟩
  · exact absurd (hnodup.1 hdistinct _ _ _ _ _ _ hc' hc hpieces).1 (by decide)
  · exact ((addAll_pageIds ['f'] [.container ['a'] [.control ['b'] .text {}],
      .control "a_b".toList .text {}]).2.2 (by decide)).1

end Storage

end Form

end FormTemplate
