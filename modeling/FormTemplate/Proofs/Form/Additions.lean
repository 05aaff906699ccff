import FormTemplate.Proofs.Form.Building
import FormTemplate.Proofs.Form.Insertion

/-!
# Additions to a storage

What is added to a container is inserted first and set up then, through the
slot that the insertion gives. `Ordered.add_eq` says that an addition is one
insertion, that of the component it makes. So whatever is added, a storage
stays in order, and so do the containers in it, at any depth
(`Sound.addAll`).
-/

namespace FormTemplate

namespace Form

/-- The name under which something is added. -/
def Addition.name : Addition → Text
  | control name _ _ => name
  | container name _ => name

namespace Storage

variable {s t : Storage} {c d : Stored} {name : Text}

/-! ## Additions -/

mutual

/-- The storage after an addition. What is added is set up through the slot
that its insertion gives. -/
def add (s : Storage) : Addition → Storage
  | .control name kind d =>
    let (t, slot) := s.insert (.control (s.newControl name kind))
    t.changeControl slot.index d.apply
  | .container name inner =>
    let (t, slot) := s.insert (.container (s.newContainer name))
    t.changeContainer slot.index fun u => u.addAll inner

/-- **The storage after additions.** -/
def addAll (s : Storage) : List Addition → Storage
  | [] => s
  | a :: as => (s.add a).addAll as

end

/-- The component that an addition makes. -/
def added (s : Storage) : Addition → Stored
  | .control name kind d => .control (d.apply (s.newControl name kind))
  | .container name inner => .container ((s.newContainer name).addAll inner)

theorem address_place (s : Storage) (slot : Slot) (at? : Option Nat) :
    (s.place slot at?).name = s.name ∧ (s.place slot at?).naming = s.naming := by
  cases at? with
  | none => exact ⟨rfl, rfl⟩
  | some i =>
    rw [place]
    split
    · rw [remove]
      split <;> exact ⟨rfl, rfl⟩
    · exact ⟨rfl, rfl⟩

theorem address_replace (s : Storage) (i : Nat) (c : Stored) :
    (s.replace i c).name = s.name ∧ (s.replace i c).naming = s.naming := by
  cases c <;> exact ⟨rfl, rfl⟩

/-- An insertion keeps the name of the container and how it names what it
holds. -/
theorem address_insert (s : Storage) (c : Stored) :
    (s.insert c).1.name = s.name ∧ (s.insert c).1.naming = s.naming := by
  have hpush : (s.push c).name = s.name ∧ (s.push c).naming = s.naming := by
    cases c <;> exact ⟨rfl, rfl⟩
  have hplace : ∀ slot at?, ((s.push c).place slot at?).name = s.name ∧
      ((s.push c).place slot at?).naming = s.naming := fun slot at? =>
    ⟨(address_place _ slot at?).1.trans hpush.1, (address_place _ slot at?).2.trans hpush.2⟩
  rw [insert]
  split
  · split
    · exact address_replace ..
    · exact hplace _ _
  · exact hplace _ _

theorem address_add (s : Storage) (a : Addition) :
    (s.add a).name = s.name ∧ (s.add a).naming = s.naming := by
  cases a <;> exact address_insert s _

theorem address_addAll (s : Storage) (as : List Addition) :
    (s.addAll as).name = s.name ∧ (s.addAll as).naming = s.naming := by
  induction as generalizing s with
  | nil => exact ⟨rfl, rfl⟩
  | cons a as ih => exact ⟨(ih _).1.trans (address_add s a).1, (ih _).2.trans (address_add s a).2⟩

/-- What is added has the name of the addition. -/
theorem name_added (s : Storage) (a : Addition) : (s.added a).name = a.name := by
  cases a with
  | control name kind d => rfl
  | container name inner => exact (address_addAll (s.newContainer name) inner).1

/-- **An addition is one insertion** of the component that it makes. -/
theorem Ordered.add_eq (h : s.Ordered) (a : Addition) : s.add a = (s.insert (s.added a)).1 := by
  cases a with
  | control name kind d => exact h.changeControl_insert rfl
  | container name inner => exact h.changeContainer_insert (name_added s (.container name inner))

/-- So a storage stays in order whatever is added. -/
theorem Ordered.add (h : s.Ordered) (a : Addition) : (s.add a).Ordered := by
  rw [h.add_eq a]
  exact h.insert _

/-! ## The containers inside -/

/-- **A storage that is in order at every depth.** -/
inductive Sound : Storage → Prop
  /-- It is in order itself, and so is what each of its containers holds. -/
  | intro {s : Storage} (ordered : s.Ordered) (containers : ∀ t ∈ s.containers, Sound t) : Sound s

theorem Sound.ordered (h : s.Sound) : s.Ordered := by
  cases h
  assumption

theorem Sound.containers (h : s.Sound) : ∀ t ∈ s.containers, t.Sound := by
  cases h
  assumption

theorem sound_empty (name : Text) (naming : Naming) : (empty name naming).Sound :=
  .intro (ordered_empty name naming) nofun

/-- The document has the containers that stand on their shelf. -/
theorem Ordered.container_mem_components (h : s.Ordered) :
    .container t ∈ s.components ↔ t ∈ s.containers := by
  constructor
  · intro ht
    obtain ⟨slot, -, hitem⟩ := Slot.mem_items.1 ht
    exact List.mem_of_getElem? (container_of_item? hitem)
  · intro ht
    obtain ⟨i, hlt, rfl⟩ := List.getElem_of_mem ht
    have hitem : Slot.item? s.shelves ⟨.containers, i⟩ = some (.container s.containers[i]) := by
      simp [Slot.item?, shelves, hlt]
    exact Slot.mem_items.2 ⟨_, h.lists.mem_of_item? hitem, hitem⟩

/-- What the container holds after an insertion was inserted or held
before. -/
theorem Ordered.mem_components_insert (h : s.Ordered) (hd : d ∈ (s.insert c).1.components) :
    d = c ∨ d ∈ s.components := by
  rcases h.components_insert c with ⟨-, hcomponents⟩ | ⟨i, e, -, -, hcomponents⟩
  · rw [hcomponents, List.mem_append, List.mem_singleton] at hd
    exact hd.symm
  · rw [hcomponents] at hd
    exact (List.mem_or_eq_of_mem_set hd).symm

theorem Sound.insert (h : s.Sound) (hc : ∀ t, c = .container t → t.Sound) :
    (s.insert c).1.Sound := by
  refine .intro (h.ordered.insert c) fun t ht => ?_
  have ht := (h.ordered.insert c).container_mem_components.2 ht
  rcases h.ordered.mem_components_insert ht with heq | ht
  · exact hc t heq.symm
  · exact h.containers t (h.ordered.container_mem_components.1 ht)

mutual

/-- **Additions keep a storage in order at every depth.** -/
theorem Sound.add {s : Storage} (h : s.Sound) : ∀ a, (s.add a).Sound
  | .control name kind d => by
    rw [h.ordered.add_eq]
    exact h.insert nofun
  | .container name inner => by
    rw [h.ordered.add_eq]
    refine h.insert fun t ht => ?_
    cases ht
    exact Sound.addAll (sound_empty name _) inner

theorem Sound.addAll {s : Storage} (h : s.Sound) : ∀ as, (s.addAll as).Sound
  | [] => h
  | a :: as => Sound.addAll (Sound.add h a) as

end

end Storage

end Form

end FormTemplate
