import FormTemplate.Proofs.Form.Slots

/-!
# Insertions into a storage

A storage is in order (`Ordered`) when its order lists every slot in use once
and its components have distinct names. An insertion keeps it in order
(`Ordered.insert`), and in the document it is an addition at the end or a
change of one component (`Ordered.components_insert_of_new`,
`Ordered.components_insert_of_old`). The slot that it gives is that of the
component inserted, so to change this component through the slot is to insert
it as it is after the change (`Ordered.changeControl_insert`,
`Ordered.changeContainer_insert`).
-/

namespace FormTemplate

namespace Form

namespace Storage

variable {s t : Storage} {c c' d : Stored} {name : Text} {slot : Slot} {i : Nat}

/-! ## Shelves -/

theorem shelf_of_mem_shelves {k : Shelf} (h : c ∈ s.shelves k) : c.shelf = k := by
  cases k <;>
  · obtain ⟨x, -, rfl⟩ := List.mem_map.1 h
    rfl

theorem shelves_push : (s.push c).shelves = Slot.pushed s.shelves c.shelf c := by
  funext k
  rw [Slot.pushed]
  cases c <;> cases k <;> simp [push, shelves, Stored.shelf]

theorem shelves_replace (h : slot.shelf = c.shelf) :
    (s.replace slot.index c).shelves = Slot.replaced s.shelves slot c := by
  funext k
  rw [Slot.replaced, h]
  cases c <;> cases k <;> simp [replace, shelves, Stored.shelf, List.map_set]

theorem shelves_remove : (s.remove slot).shelves = Slot.removed s.shelves slot := by
  obtain ⟨l, i⟩ := slot
  funext k
  rw [Slot.removed]
  cases l <;> cases k <;> simp [remove, shelves, List.eraseIdx_map]

/-! ## One insertion -/

/-- **A storage in order**: its slots are those of its order, and no name is
used twice. -/
structure Ordered (s : Storage) : Prop where
  /-- The order lists every slot in use once. -/
  lists : Slot.Lists s.shelves s.order
  /-- Components have distinct names. -/
  distinct : (s.components.map Stored.name).Nodup

theorem ordered_empty (name : Text) (naming : Naming) : (empty name naming).Ordered where
  lists := .nil fun k => by cases k <;> rfl
  distinct := .nil

/-- **A name is new, or a component has it**, in a place of the document
and in the slot of that place. -/
theorem Ordered.existing?_cases (h : s.Ordered) (name : Text) :
    (s.existing? name = none ∧ ∀ d ∈ s.components, d.name ≠ name) ∨
      ∃ i slot d, s.existing? name = some (i, slot) ∧ s.order[i]? = some slot ∧
        s.components[i]? = some d ∧ Slot.item? s.shelves slot = some d ∧ d.name = name := by
  rw [existing?]
  cases hi : s.components.findIdx? (·.name == name) with
  | none =>
    refine .inl ⟨rfl, fun d hd => ?_⟩
    simpa using List.findIdx?_eq_none_iff.1 hi d hd
  | some i =>
    obtain ⟨hlt, hname, -⟩ := List.findIdx?_eq_some_iff_getElem.1 hi
    have hd : s.components[i]? = some s.components[i] := List.getElem?_eq_getElem hlt
    have hbind := h.lists.getElem?_items.symm.trans hd
    obtain ⟨slot, hslot, hitem⟩ := Option.bind_eq_some_iff.1 hbind
    refine .inr ⟨i, slot, _, ?_, hslot, hd, hitem, by simpa using hname⟩
    simp [hslot]

/-- What an insertion does when the name is new. -/
theorem insert_of_new (h : s.existing? c.name = none) :
    s.insert c = ((s.push c).place (Slot.free s.shelves c.shelf) none,
      Slot.free s.shelves c.shelf) := by
  rw [insert, h]

/-- What it does when a component of the same sort has the name. -/
theorem insert_of_same (h : s.existing? c.name = some (i, slot)) (hshelf : slot.shelf = c.shelf) :
    s.insert c = (s.replace slot.index c, slot) := by
  rw [insert, h]
  exact if_pos hshelf

/-- And when a component of the other sort has it. -/
theorem insert_of_other (h : s.existing? c.name = some (i, slot)) (hshelf : slot.shelf ≠ c.shelf) :
    s.insert c = ((s.push c).place (Slot.free s.shelves c.shelf) (some i),
      Slot.free s.shelves c.shelf) := by
  rw [insert, h]
  exact if_neg hshelf

theorem order_push : (s.push c).order = s.order := by
  cases c <;> rfl

theorem order_replace : (s.replace i c).order = s.order := by
  cases c <;> rfl

theorem place_some {gone : Slot} (h : s.order[i]? = some gone) :
    s.place slot (some i) =
      { s.remove gone with order := (s.order.set i slot).map (Slot.closeGap gone) } := by
  rw [place, h]

/-- The shelves do not depend on the order. -/
theorem shelves_withOrder (s : Storage) (order : List Slot) :
    { s with order }.shelves = s.shelves := by
  funext k
  cases k <;> rfl

/-- **What an insertion makes of shelves and order.** A component goes to the
end of both, or takes over a slot, or goes to the end of its shelf and takes
the place of one that leaves the other. -/
theorem Ordered.insert_cases (h : s.Ordered) (c : Stored) :
    ((∀ d ∈ s.components, d.name ≠ c.name) ∧
        (s.insert c).1.shelves = Slot.pushed s.shelves c.shelf c ∧
        (s.insert c).1.order = s.order ++ [Slot.free s.shelves c.shelf] ∧
        (s.insert c).2 = Slot.free s.shelves c.shelf) ∨
      ∃ i slot d, s.order[i]? = some slot ∧ s.components[i]? = some d ∧ d.name = c.name ∧
        (slot.shelf = c.shelf ∧
            (s.insert c).1.shelves = Slot.replaced s.shelves slot c ∧
            (s.insert c).1.order = s.order ∧ (s.insert c).2 = slot ∨
          slot.shelf ≠ c.shelf ∧
            (s.insert c).1.shelves = Slot.removed (Slot.pushed s.shelves c.shelf c) slot ∧
            (s.insert c).1.order =
              (s.order.set i (Slot.free s.shelves c.shelf)).map (Slot.closeGap slot) ∧
            (s.insert c).2 = Slot.free s.shelves c.shelf) := by
  rcases h.existing?_cases c.name with ⟨hnone, hnew⟩ | ⟨i, slot, d, hsome, hslot, hd, -, hname⟩
  · refine .inl ⟨hnew, ?_⟩
    rw [insert_of_new hnone, place, shelves_withOrder, order_push, shelves_push]
    exact ⟨rfl, rfl, rfl⟩
  · refine .inr ⟨i, slot, d, hslot, hd, hname, ?_⟩
    by_cases hshelf : slot.shelf = c.shelf
    · rw [insert_of_same hsome hshelf, order_replace, shelves_replace hshelf]
      exact .inl ⟨hshelf, rfl, rfl, rfl⟩
    · have hslot' : (s.push c).order[i]? = some slot := by rwa [order_push]
      rw [insert_of_other hsome hshelf, place_some hslot', shelves_withOrder, shelves_remove,
        shelves_push, order_push]
      exact .inr ⟨hshelf, rfl, rfl, rfl⟩

/-- **An insertion keeps the slots in order.** -/
theorem Ordered.lists_insert (h : s.Ordered) (c : Stored) :
    Slot.Lists (s.insert c).1.shelves (s.insert c).1.order := by
  rcases h.insert_cases c with ⟨-, hshelves, horder, -⟩ |
    ⟨i, slot, d, hslot, -, -, ⟨-, hshelves, horder, -⟩ | ⟨-, hshelves, horder, -⟩⟩
  · rw [hshelves, horder]
    exact h.lists.append c.shelf c
  · rw [hshelves, horder]
    exact h.lists.set slot c
  · rw [hshelves, horder]
    exact h.lists.move hslot c.shelf c

/-- **The slot that it gives is that of the component inserted.** -/
theorem Ordered.item?_insert (h : s.Ordered) (c : Stored) :
    Slot.item? (s.insert c).1.shelves (s.insert c).2 = some c := by
  rcases h.insert_cases c with ⟨-, hshelves, -, hfresh⟩ |
    ⟨i, slot, d, hslot, -, -, ⟨-, hshelves, -, hsame⟩ | ⟨hne, hshelves, -, hfresh⟩⟩
  · rw [hshelves, hfresh, Slot.item?_pushed_free]
  · rw [hshelves, hsame]
    exact Slot.item?_replaced ((h.lists.mem_iff slot).1 (List.mem_of_getElem? hslot))
  · have hfree : Slot.free s.shelves c.shelf ≠ slot := fun heq => hne (heq ▸ rfl)
    have hstays : Slot.closeGap slot (Slot.free s.shelves c.shelf) = Slot.free s.shelves c.shelf :=
      Slot.closeGap_of_shelf_ne hne.symm
    rw [hshelves, hfresh, ← hstays, Slot.item?_removed hfree, Slot.item?_pushed_free]

/-! ## The document after an insertion -/

/-- **An insertion appends a new name, or exchanges one component.** -/
theorem Ordered.components_insert (h : s.Ordered) (c : Stored) :
    (∀ d ∈ s.components, d.name ≠ c.name) ∧ (s.insert c).1.components = s.components ++ [c] ∨
      ∃ i d, s.components[i]? = some d ∧ d.name = c.name ∧
        (s.insert c).1.components = s.components.set i c := by
  rcases h.insert_cases c with ⟨hnew, hshelves, horder, -⟩ |
    ⟨i, slot, d, hslot, hd, hname, ⟨-, hshelves, horder, -⟩ | ⟨hne, hshelves, horder, -⟩⟩
  · refine .inl ⟨hnew, ?_⟩
    rw [components, hshelves, horder]
    exact h.lists.items_append c.shelf c
  · refine .inr ⟨i, d, hd, hname, ?_⟩
    rw [components, hshelves, horder]
    exact h.lists.items_replaced hslot c
  · refine .inr ⟨i, d, hd, hname, ?_⟩
    rw [components, hshelves, horder]
    exact h.lists.items_move hslot hne c

/-- **A new name goes to the end.** -/
theorem Ordered.components_insert_of_new (h : s.Ordered)
    (hnew : ∀ d ∈ s.components, d.name ≠ c.name) :
    (s.insert c).1.components = s.components ++ [c] := by
  rcases h.components_insert c with ⟨-, hcomponents⟩ | ⟨i, d, hd, hname, -⟩
  · exact hcomponents
  · exact absurd hname (hnew d (List.mem_of_getElem? hd))

/-- **An old name keeps its place**, and all other components stay as they
are. -/
theorem Ordered.components_insert_of_old {before after : List Stored} (h : s.Ordered)
    (hold : s.components = before ++ d :: after) (hname : d.name = c.name) :
    (s.insert c).1.components = before ++ c :: after := by
  rcases h.components_insert c with ⟨hnew, -⟩ | ⟨i, e, he, hname', hcomponents⟩
  · exact absurd hname (hnew d (by simp [hold]))
  · have hd : s.components[before.length]? = some d := by simp [hold]
    have hsame : (s.components.map Stored.name)[before.length]? =
        (s.components.map Stored.name)[i]? := by
      rw [List.getElem?_map, List.getElem?_map, hd, he, Option.map_some, Option.map_some, hname,
        hname']
    have hlt : before.length < (s.components.map Stored.name).length := by simp [hold]
    obtain rfl : before.length = i := (List.getElem?_inj hlt h.distinct).1 hsame
    rw [hcomponents, hold, List.set_append_right _ _ (Nat.le_refl _), Nat.sub_self,
      List.set_cons_zero]

/-- **A storage stays in order** whatever is inserted. -/
theorem Ordered.insert (h : s.Ordered) (c : Stored) : (s.insert c).1.Ordered where
  lists := h.lists_insert c
  distinct := by
    rcases h.components_insert c with ⟨hnew, hcomponents⟩ | ⟨i, d, hd, hname, hcomponents⟩
    · rw [hcomponents, List.map_append]
      refine List.Nodup.append h.distinct (List.nodup_singleton _) ?_
      simpa [eq_comm] using hnew
    · obtain ⟨hlt, rfl⟩ := List.getElem?_eq_some_iff.1 hd
      rw [hcomponents, List.map_set, ← hname, ← List.map_set, List.set_getElem_self hlt]
      exact h.distinct

/-! ## Changes through the slot -/

/-- What an insertion made of one component it makes of another of the same
sort and name. -/
theorem Ordered.replace_insert (h : s.Ordered) (hshelf : c'.shelf = c.shelf)
    (hname : c'.name = c.name) :
    (s.insert c).1.replace (s.insert c).2.index c' = (s.insert c').1 := by
  rcases h.existing?_cases c.name with ⟨hnone, -⟩ | ⟨i, slot, d, hsome, hslot, -, -, -⟩
  · rw [insert_of_new hnone, insert_of_new (hname ▸ hnone), hshelf]
    cases c <;> cases c' <;> cases hshelf <;>
      simp [push, place, replace, Slot.free, shelves, Stored.shelf]
  · by_cases hsame : slot.shelf = c.shelf
    · rw [insert_of_same hsome hsame, insert_of_same (hname ▸ hsome) (hsame.trans hshelf.symm)]
      cases c <;> cases c' <;> cases hshelf <;> simp [replace]
    · have hslot' : ∀ e, (s.push e).order[i]? = some slot := fun e => by rwa [order_push]
      rw [insert_of_other hsome hsame,
        insert_of_other (hname ▸ hsome) fun heq => hsame (heq.trans hshelf), hshelf,
        place_some (hslot' c), place_some (hslot' c')]
      obtain ⟨k, j⟩ := slot
      cases c <;> cases c' <;> cases hshelf <;> cases k <;>
        simp [push, remove, replace, Slot.free, shelves, Stored.shelf] at hsame ⊢

theorem control_of_item? {x : Control} (h : Slot.item? s.shelves slot = some (.control x)) :
    s.controls[slot.index]? = some x := by
  obtain ⟨k, i⟩ := slot
  cases k with
  | controls => simpa [Slot.item?, shelves] using h
  | containers => simp [Slot.item?, shelves] at h

theorem container_of_item? (h : Slot.item? s.shelves slot = some (.container t)) :
    s.containers[slot.index]? = some t := by
  obtain ⟨k, i⟩ := slot
  cases k with
  | controls => simp [Slot.item?, shelves] at h
  | containers => simpa [Slot.item?, shelves] using h

theorem changeControl_eq_replace {x : Control} {f : Control → Control}
    (h : s.controls[i]? = some x) : s.changeControl i f = s.replace i (.control (f x)) := by
  simp [changeControl, replace, List.modify_eq_set_getElem?, h]

theorem changeContainer_eq_replace {f : Storage → Storage} (h : s.containers[i]? = some t) :
    s.changeContainer i f = s.replace i (.container (f t)) := by
  simp [changeContainer, replace, List.modify_eq_set_getElem?, h]

/-- **A control changed through the slot of its insertion** is a control
inserted as it is after the change. -/
theorem Ordered.changeControl_insert {x : Control} {f : Control → Control} (h : s.Ordered)
    (hname : (f x).name = x.name) :
    (s.insert (.control x)).1.changeControl (s.insert (.control x)).2.index f =
      (s.insert (.control (f x))).1 := by
  rw [changeControl_eq_replace (control_of_item? (h.item?_insert (.control x)))]
  exact h.replace_insert rfl hname

/-- And so is a container. -/
theorem Ordered.changeContainer_insert {f : Storage → Storage} (h : s.Ordered)
    (hname : (f t).name = t.name) :
    (s.insert (.container t)).1.changeContainer (s.insert (.container t)).2.index f =
      (s.insert (.container (f t))).1 := by
  rw [changeContainer_eq_replace (container_of_item? (h.item?_insert (.container t)))]
  exact h.replace_insert rfl hname

end Storage

end Form

end FormTemplate
