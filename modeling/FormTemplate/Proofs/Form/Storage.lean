import FormTemplate.Proofs.Form.StoredPage

/-!
# Storages are maps in order of arrival

Whatever is added to a container and, through the slots that the additions
give, to the containers in it, each of them is a map from names to components
in the order in which the names arrived (`Storage.IsMap`,
`Storage.addAll_isMap`): its slots are in order, an insertion appends a new
name and exchanges the component of an old one, and to look up and to walk is
to look into the list of its components.
-/

namespace FormTemplate

namespace Form

namespace Storage

variable {s t : Storage} {c d : Stored} {name : Text}

/-! ## Looking up -/

/-- A name leads to the one component that has it. -/
theorem Ordered.component?_eq_some (h : s.Ordered) :
    s.component? name = some d ↔ d ∈ s.components ∧ d.name = name :=
  find?_name_eq_some h.distinct

theorem Ordered.component?_eq_control {c : Control} (h : s.Ordered) :
    s.component? name = some (.control c) ↔ .control c ∈ s.components ∧ c.name = name :=
  h.component?_eq_some

theorem Ordered.component?_eq_container (h : s.Ordered) :
    s.component? name = some (.container t) ↔ .container t ∈ s.components ∧ t.name = name :=
  h.component?_eq_some

theorem component?_eq_none : s.component? name = none ↔ ∀ d ∈ s.components, d.name ≠ name := by
  simp [component?]

theorem contains_iff : s.contains name ↔ ∃ d ∈ s.components, d.name = name := by
  simp [contains, component?]

/-- A control of a name is found, or the component of the name is a
container, or there is none. -/
theorem Ordered.control_cases (h : s.Ordered) (name : Text) :
    (∀ c, s.control name = .ok c ↔ .control c ∈ s.components ∧ c.name = name) ∧
      (s.control name = .error (.notAControl name) ↔
        ∃ t, .container t ∈ s.components ∧ t.name = name) ∧
      (s.control name = .error (.componentNotFound name) ↔
        ∀ d ∈ s.components, d.name ≠ name) := by
  simp only [← h.component?_eq_control, ← h.component?_eq_container, ← component?_eq_none]
  rw [control]
  rcases s.component? name with _ | (c | t) <;> simp

/-- And so it is with containers. -/
theorem Ordered.container_cases (h : s.Ordered) (name : Text) :
    (∀ t, s.container name = .ok t ↔ .container t ∈ s.components ∧ t.name = name) ∧
      (s.container name = .error (.notAContainer name) ↔
        ∃ c, .control c ∈ s.components ∧ c.name = name) ∧
      (s.container name = .error (.componentNotFound name) ↔
        ∀ d ∈ s.components, d.name ≠ name) := by
  simp only [← h.component?_eq_control, ← h.component?_eq_container, ← component?_eq_none]
  rw [container]
  rcases s.component? name with _ | (c | t) <;> simp

/-! ## The map -/

/-- **A storage that is a map from names to components**, in the order in
which the names arrived. -/
structure IsMap (s : Storage) : Prop where
  /-- The order lists every slot in use, and each once. -/
  lists : Slot.Lists s.shelves s.order
  /-- Components have distinct names. -/
  distinct : (s.components.map Stored.name).Nodup
  /-- A component of a new name goes to the end. -/
  insert_new : ∀ c, (∀ d ∈ s.components, d.name ≠ c.name) →
    (s.insert c).1.components = s.components ++ [c]
  /-- One of an old name takes the place of the old one, and the others stay
  as they are. -/
  insert_old : ∀ c before d after, s.components = before ++ d :: after → d.name = c.name →
    (s.insert c).1.components = before ++ c :: after
  /-- The slot that an insertion gives is that of the component inserted. -/
  insert_slot : ∀ c, Slot.item? (s.insert c).1.shelves (s.insert c).2 = some c
  /-- An addition is the insertion of the component that it makes. -/
  add_eq : ∀ a, s.add a = (s.insert (s.added a)).1 ∧ (s.added a).name = a.name
  /-- A name leads to the component that has it. -/
  component?_eq : ∀ name d, s.component? name = some d ↔ d ∈ s.components ∧ d.name = name
  /-- The names of the components are those that the container contains. -/
  contains_iff : ∀ name, s.contains name ↔ ∃ d ∈ s.components, d.name = name
  /-- A control is found under its name. -/
  control_ok : ∀ name c, s.control name = .ok c ↔ .control c ∈ s.components ∧ c.name = name
  /-- The name of a container is not that of a control. -/
  control_other : ∀ name, s.control name = .error (.notAControl name) ↔
    ∃ t, .container t ∈ s.components ∧ t.name = name
  /-- No control is found under a name that no component has. -/
  control_none : ∀ name, s.control name = .error (.componentNotFound name) ↔
    ∀ d ∈ s.components, d.name ≠ name
  /-- A container is found under its name. -/
  container_ok : ∀ name t, s.container name = .ok t ↔ .container t ∈ s.components ∧ t.name = name
  /-- The name of a control is not that of a container. -/
  container_other : ∀ name, s.container name = .error (.notAContainer name) ↔
    ∃ c, .control c ∈ s.components ∧ c.name = name
  /-- No container is found under a name that no component has. -/
  container_none : ∀ name, s.container name = .error (.componentNotFound name) ↔
    ∀ d ∈ s.components, d.name ≠ name
  /-- A walk that does not go deep goes through the components. -/
  walk_shallow : s.walk false = s.components
  /-- In a deep walk each container is directly followed by the deep walk
  through it. -/
  walk_deep : s.walk true = s.components.flatMap fun
    | .control c => [.control c]
    | .container t => .container t :: t.walk true

theorem Ordered.isMap (h : s.Ordered) : s.IsMap where
  lists := h.lists
  distinct := h.distinct
  insert_new _ := h.components_insert_of_new
  insert_old _ _ _ _ := h.components_insert_of_old
  insert_slot := h.item?_insert
  add_eq a := ⟨h.add_eq a, name_added s a⟩
  component?_eq _ _ := h.component?_eq_some
  contains_iff _ := contains_iff
  control_ok name := (h.control_cases name).1
  control_other name := (h.control_cases name).2.1
  control_none name := (h.control_cases name).2.2
  container_ok name := (h.container_cases name).1
  container_other name := (h.container_cases name).2.1
  container_none name := (h.container_cases name).2.2
  walk_shallow := rfl
  walk_deep := by
    refine (contents_eq s).trans (congrArg (s.components.flatMap ·) (funext fun d => ?_))
    cases d <;> rfl

/-- The containers that a walk comes by are in order. -/
theorem Sound.of_mem_contents (h : s.Sound) (ht : .container t ∈ s.contents) : t.Sound := by
  induction h with
  | @intro s ordered containers ih =>
    rw [contents_eq, List.mem_flatMap] at ht
    obtain ⟨d, hd, ht⟩ := ht
    cases d with
    | control c => cases List.mem_singleton.1 ht
    | container u =>
      have hu := ordered.container_mem_components.1 hd
      rcases List.mem_cons.1 ht with heq | ht
      · cases heq
        exact containers t hu
      · exact ih u hu ht

/-- **Whatever is added to a container and to the containers in it, each of
them is a map in order of arrival**, and the page sees the container that the
additions build. -/
theorem addAll_isMap (name : Text) (naming : Naming) (as : List Addition) :
    let s := (empty name naming).addAll as
    s.IsMap ∧ (∀ t, .container t ∈ s.walk true → t.IsMap) ∧
      s.toContainer = Container.addAll { name, naming } as := by
  have hsound : ((empty name naming).addAll as).Sound := (sound_empty name naming).addAll as
  refine ⟨hsound.ordered.isMap, fun t ht => ?_, ?_⟩
  · exact (hsound.of_mem_contents ht).ordered.isMap
  · exact (ordered_empty name naming).toContainer_addAll as

-- A container takes the place of the first of three controls.
example :
    ((empty [] ⟨none, []⟩).addAll
      [.control ['a'] .text {}, .control ['b'] .text {}, .control ['c'] .text {},
        .container ['a'] []]).order =
      [⟨.containers, 0⟩, ⟨.controls, 0⟩, ⟨.controls, 1⟩] := by
  decide

end Storage

end Form

end FormTemplate
