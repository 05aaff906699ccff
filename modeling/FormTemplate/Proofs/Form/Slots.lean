import FormTemplate.Form.Storage
import Mathlib.Data.List.Nodup
import Mathlib.Data.List.Perm.Basic
import Mathlib.Logic.Function.Basic

/-!
# Slots in order

The order of a storage is to list every slot in use once (`Slot.Lists`).
Three things happen to order and shelves: a component goes to the end of a
shelf and of the order, a component takes over the slot of another, and a
component at the end of one shelf takes the place of one that leaves the
other. Each keeps the slots listed (`Lists.append`, `Lists.set`,
`Lists.move`), and in the document it is an addition at the end or a change
in one place (`Lists.items_append`, `Lists.items_set`).
-/

namespace FormTemplate

namespace Form

namespace Slot

variable {α β : Type} {shelves shelves' : Shelf → List α} {order : List Slot}
variable {slot gone fresh : Slot} {c : α} {k : Shelf} {i : Nat}

/-- **An order that lists every slot in use**, and each once. -/
structure Lists (shelves : Shelf → List α) (order : List Slot) : Prop where
  /-- No slot is listed twice. -/
  nodup : order.Nodup
  /-- The slots listed are those in which something stands. -/
  mem_iff : ∀ slot : Slot, slot ∈ order ↔ slot.index < (shelves slot.shelf).length

theorem Lists.nil (h : ∀ k, shelves k = []) : Lists shelves [] :=
  ⟨.nil, fun slot => by simp [h]⟩

/-- In a slot that is listed something stands. -/
theorem Lists.exists_item? (h : Lists shelves order) (hslot : slot ∈ order) :
    ∃ c, item? shelves slot = some c :=
  ⟨_, List.getElem?_eq_getElem ((h.mem_iff slot).1 hslot)⟩

theorem Lists.mem_of_item? (h : Lists shelves order) (hc : item? shelves slot = some c) :
    slot ∈ order :=
  (h.mem_iff slot).2 (List.getElem?_eq_some_iff.1 hc).1

/-- So the document goes through the slots one by one. -/
theorem Lists.map_item? (h : Lists shelves order) :
    order.map (item? shelves) = (items shelves order).map some := by
  have hall : ∀ slot ∈ order, ∃ c, item? shelves slot = some c := fun _ => h.exists_item?
  clear h
  induction order with
  | nil => rfl
  | cons slot order ih =>
    obtain ⟨c, hc⟩ := hall slot List.mem_cons_self
    rw [items, List.filterMap_cons_some hc, List.map_cons, List.map_cons, hc]
    exact congrArg _ (ih fun x hx => hall x (List.mem_cons_of_mem slot hx))

/-- What the document has in a place stands in the slot of that place. -/
theorem Lists.getElem?_items (h : Lists shelves order) :
    (items shelves order)[i]? = order[i]?.bind (item? shelves) := by
  have hat := congrArg (fun l : List (Option α) => l[i]?) h.map_item?
  simp only [List.getElem?_map] at hat
  cases hslot : order[i]? with
  | none => simpa [hslot] using hat.symm
  | some slot =>
    cases hitem : (items shelves order)[i]? <;> simp_all

/-- The document takes up what its components are changed to. -/
theorem items_map (f : α → β) :
    items (fun k => (shelves k).map f) order = (items shelves order).map f := by
  rw [items, items, List.map_filterMap]
  refine List.filterMap_congr fun slot _ => ?_
  rw [item?, item?, List.getElem?_map]

theorem mem_items : c ∈ items shelves order ↔ ∃ slot ∈ order, item? shelves slot = some c :=
  List.mem_filterMap

/-! ## At the end of the document -/

/-- The shelves with a component at the end of one of them. -/
def pushed (shelves : Shelf → List α) (k : Shelf) (c : α) : Shelf → List α :=
  Function.update shelves k (shelves k ++ [c])

theorem item?_pushed_free : item? (pushed shelves k c) (free shelves k) = some c := by
  simp [item?, pushed, free]

theorem item?_pushed (h : slot.index < (shelves slot.shelf).length) :
    item? (pushed shelves k c) slot = item? shelves slot := by
  rw [item?, item?, pushed]
  by_cases hk : slot.shelf = k
  · rw [hk, Function.update_self, List.getElem?_append_left (hk ▸ h)]
  · rw [Function.update_of_ne hk]

theorem length_pushed (l : Shelf) :
    (pushed shelves k c l).length = (shelves l).length + if l = k then 1 else 0 := by
  by_cases hl : l = k
  · subst hl
    simp [pushed]
  · simp [pushed, hl]

/-- **A component at the end of its shelf goes to the end of the
document.** -/
theorem Lists.append (h : Lists shelves order) (k : Shelf) (c : α) :
    Lists (pushed shelves k c) (order ++ [free shelves k]) where
  nodup := by
    refine List.Nodup.append h.nodup (List.nodup_singleton _) ?_
    simp [h.mem_iff, free]
  mem_iff := by
    rintro ⟨l, i⟩
    rw [List.mem_append, List.mem_singleton, h.mem_iff, length_pushed, free,
      Slot.mk.injEq]
    by_cases hl : l = k
    · subst hl
      simp
      omega
    · simp [hl]

theorem Lists.items_append (h : Lists shelves order) (k : Shelf) (c : α) :
    items (pushed shelves k c) (order ++ [free shelves k]) =
      items shelves order ++ [c] := by
  have hold : order.filterMap (item? (pushed shelves k c)) = items shelves order :=
    List.filterMap_congr fun slot hslot => item?_pushed ((h.mem_iff slot).1 hslot)
  rw [items, List.filterMap_append, hold]
  simp [item?_pushed_free]

/-! ## In the place of another component -/

/-- **A change in one place of the document.** The slot of the place is
exchanged for another, the rest may move but keep what stands in them. -/
theorem Lists.items_set (h : Lists shelves order) {g : Slot → Slot} (hi : order[i]? = some gone)
    (hfresh : item? shelves' (g fresh) = some c)
    (hothers : ∀ slot ∈ order, slot ≠ gone → item? shelves' (g slot) = item? shelves slot) :
    items shelves' ((order.set i fresh).map g) = (items shelves order).set i c := by
  have hall : ∀ slot ∈ order, ∃ d, item? shelves slot = some d := fun _ => h.exists_item?
  have hnodup := h.nodup
  clear h
  induction order generalizing i with
  | nil => cases hi
  | cons slot order ih =>
    obtain ⟨d, hd⟩ := hall slot List.mem_cons_self
    obtain ⟨hslot, hnodup⟩ := List.nodup_cons.1 hnodup
    rw [items, items, List.filterMap_cons_some hd]
    cases i with
    | zero =>
      obtain rfl : slot = gone := Option.some.inj hi
      rw [List.set_cons_zero, List.map_cons, List.filterMap_cons_some hfresh, List.set_cons_zero,
        List.filterMap_map]
      refine congrArg _ (List.filterMap_congr fun x hx => ?_)
      exact hothers x (List.mem_cons_of_mem slot hx) (ne_of_mem_of_not_mem hx hslot)
    | succ i =>
      have hgone : gone ∈ order := List.mem_of_getElem? hi
      have hne : slot ≠ gone := (ne_of_mem_of_not_mem hgone hslot).symm
      rw [List.set_cons_succ, List.map_cons,
        List.filterMap_cons_some ((hothers slot List.mem_cons_self hne).trans hd),
        List.set_cons_succ]
      exact congrArg _ (ih hi (fun x hx => hothers x (List.mem_cons_of_mem slot hx))
        (fun x hx => hall x (List.mem_cons_of_mem slot hx)) hnodup)

/-- The shelves with a component in a slot. -/
def replaced (shelves : Shelf → List α) (slot : Slot) (c : α) : Shelf → List α :=
  Function.update shelves slot.shelf ((shelves slot.shelf).set slot.index c)

theorem item?_replaced (h : slot.index < (shelves slot.shelf).length) :
    item? (replaced shelves slot c) slot = some c := by
  simp [item?, replaced, h]

theorem item?_replaced_of_ne {other : Slot} (h : other ≠ slot) :
    item? (replaced shelves slot c) other = item? shelves other := by
  rw [item?, item?, replaced]
  by_cases hk : other.shelf = slot.shelf
  · have hne : slot.index ≠ other.index := by
      intro heq
      obtain ⟨l, i⟩ := slot
      obtain ⟨l', i'⟩ := other
      simp_all
    rw [hk, Function.update_self, List.getElem?_set_ne hne]
  · rw [Function.update_of_ne hk]

/-- **A component that takes over a slot** leaves the slots as they are. -/
theorem Lists.set (h : Lists shelves order) (slot : Slot) (c : α) :
    Lists (replaced shelves slot c) order where
  nodup := h.nodup
  mem_iff x := by
    rw [h.mem_iff, replaced]
    by_cases hk : x.shelf = slot.shelf
    · rw [hk, Function.update_self, List.length_set]
    · rw [Function.update_of_ne hk]

theorem Lists.items_replaced (h : Lists shelves order) (hi : order[i]? = some slot) (c : α) :
    items (replaced shelves slot c) order = (items shelves order).set i c := by
  have hslot := (h.mem_iff slot).1 (List.mem_of_getElem? hi)
  obtain ⟨hlt, hget⟩ := List.getElem?_eq_some_iff.1 hi
  have hsame : order.set i slot = order := hget ▸ List.set_getElem_self hlt
  have hset : items (replaced shelves slot c) ((order.set i slot).map id) =
      (items shelves order).set i c :=
    h.items_set hi (item?_replaced hslot) fun x _ hx => item?_replaced_of_ne hx
  rwa [hsame, List.map_id] at hset

/-! ## In the place of a component of the other sort -/

/-- The shelves without what stands in a slot. -/
def removed (shelves : Shelf → List α) (slot : Slot) : Shelf → List α :=
  Function.update shelves slot.shelf ((shelves slot.shelf).eraseIdx slot.index)

/-- Where a component stood before that of another slot was gone. -/
def openGap (gone slot : Slot) : Slot :=
  if slot.shelf = gone.shelf ∧ gone.index ≤ slot.index then
    { slot with index := slot.index + 1 }
  else slot

theorem closeGap_of_shelf_ne (h : slot.shelf ≠ gone.shelf) : closeGap gone slot = slot :=
  if_neg fun hlt => h hlt.1

theorem shelf_closeGap : (closeGap gone slot).shelf = slot.shelf := by
  rw [closeGap]
  split <;> rfl

theorem closeGap_openGap : closeGap gone (openGap gone slot) = slot := by
  rw [openGap]
  split
  · next h =>
    rw [closeGap, if_pos ⟨h.1, Nat.lt_succ_of_le h.2⟩]
    rfl
  · next h => rw [closeGap, if_neg fun hlt => h ⟨hlt.1, Nat.le_of_lt hlt.2⟩]

theorem openGap_ne : openGap gone slot ≠ gone := by
  rw [openGap]
  split
  · next h =>
    intro heq
    have hindex : slot.index + 1 = gone.index := congrArg Slot.index heq
    omega
  · next h =>
    rintro rfl
    exact h ⟨rfl, Nat.le_refl _⟩

theorem openGap_closeGap (h : slot ≠ gone) : openGap gone (closeGap gone slot) = slot := by
  obtain ⟨k, i⟩ := slot
  obtain ⟨l, j⟩ := gone
  rw [closeGap]
  split
  · next hlt =>
    obtain ⟨rfl, hlt⟩ : k = l ∧ j < i := hlt
    rw [openGap, if_pos ⟨rfl, Nat.le_sub_one_of_lt hlt⟩]
    exact congrArg (Slot.mk k) (Nat.sub_add_cancel (Nat.one_le_of_lt hlt))
  · next hlt =>
    rw [openGap, if_neg]
    rintro ⟨hk, hle⟩
    obtain rfl : k = l := hk
    have heq : j = i := Nat.le_antisymm hle (Nat.not_lt.1 fun h' => hlt ⟨rfl, h'⟩)
    exact h (by rw [heq])

theorem mem_map_closeGap (h : gone ∉ order) :
    slot ∈ order.map (closeGap gone) ↔ openGap gone slot ∈ order := by
  rw [List.mem_map]
  constructor
  · rintro ⟨x, hx, rfl⟩
    rwa [openGap_closeGap (ne_of_mem_of_not_mem hx h)]
  · exact fun hslot => ⟨_, hslot, closeGap_openGap⟩

/-- What stands in the slots that are left moves up with them. -/
theorem item?_removed (h : slot ≠ gone) :
    item? (removed shelves gone) (closeGap gone slot) = item? shelves slot := by
  obtain ⟨k, i⟩ := slot
  obtain ⟨l, j⟩ := gone
  rw [item?, item?, removed, shelf_closeGap]
  by_cases hk : k = l
  · subst hk
    have hne : i ≠ j := fun heq => h (by rw [heq])
    rw [Function.update_self, List.getElem?_eraseIdx, closeGap]
    split
    · next hlt =>
      have hindex : i - 1 + 1 = i := Nat.sub_add_cancel (Nat.one_le_of_lt hlt.2)
      rw [if_neg (Nat.not_lt.2 (Nat.le_sub_one_of_lt hlt.2)), hindex]
    · next hlt =>
      have hlt : i < j := Nat.lt_of_le_of_ne (Nat.not_lt.1 fun h' => hlt ⟨rfl, h'⟩) hne
      rw [if_pos hlt]
  · rw [Function.update_of_ne hk, closeGap, if_neg fun hlt => hk hlt.1]

theorem lt_length_removed (h : gone.index < (shelves gone.shelf).length) :
    slot.index < (removed shelves gone slot.shelf).length ↔
      (openGap gone slot).index < (shelves (openGap gone slot).shelf).length := by
  obtain ⟨k, i⟩ := slot
  obtain ⟨l, j⟩ := gone
  rw [openGap, removed]
  by_cases hk : k = l
  · subst hk
    rw [Function.update_self, List.length_eraseIdx_of_lt h]
    split
    · next hle =>
      dsimp only
      omega
    · next hle =>
      have hlt : i < j := Nat.not_le.1 fun h' => hle ⟨rfl, h'⟩
      dsimp only at h ⊢
      omega
  · rw [Function.update_of_ne hk, if_neg fun hle => hk hle.1]

theorem Lists.perm {order' : List Slot} (h : Lists shelves order) (hperm : order.Perm order') :
    Lists shelves order' :=
  ⟨hperm.nodup_iff.1 h.nodup, fun slot => hperm.mem_iff.symm.trans (h.mem_iff slot)⟩

/-- **What leaves its shelf leaves the order**, and the rest moves up. -/
theorem Lists.erase (h : Lists shelves (gone :: order)) :
    Lists (removed shelves gone) (order.map (closeGap gone)) where
  nodup := by
    obtain ⟨hgone, hnodup⟩ := List.nodup_cons.1 h.nodup
    refine hnodup.map_on fun x hx y hy heq => ?_
    rw [← openGap_closeGap (ne_of_mem_of_not_mem hx hgone), heq,
      openGap_closeGap (ne_of_mem_of_not_mem hy hgone)]
  mem_iff slot := by
    have hgone := (List.nodup_cons.1 h.nodup).1
    rw [mem_map_closeGap hgone, lt_length_removed ((h.mem_iff gone).1 List.mem_cons_self),
      ← h.mem_iff, List.mem_cons, or_iff_right openGap_ne]

/-- **A component at the end of one shelf that takes the place of one on the
other** leaves the slots listed. -/
theorem Lists.move (h : Lists shelves order) (hi : order[i]? = some gone) (k : Shelf) (c : α) :
    Lists (removed (pushed shelves k c) gone)
      ((order.set i (free shelves k)).map (closeGap gone)) := by
  obtain ⟨hlt, hget⟩ := List.getElem?_eq_some_iff.1 hi
  have hold : order.Perm (gone :: order.eraseIdx i) :=
    hget ▸ (List.getElem_cons_eraseIdx_perm hlt).symm
  have hnew : (order.set i (free shelves k)).Perm
      (free shelves k :: order.eraseIdx i) := List.set_perm_cons_eraseIdx hlt _
  have happend : (order ++ [free shelves k]).Perm
      (gone :: free shelves k :: order.eraseIdx i) :=
    (List.perm_append_singleton _ order).trans ((hold.cons _).trans (.swap _ _ _))
  exact ((h.append k c).perm happend).erase.perm (hnew.map _).symm

theorem Lists.items_move (h : Lists shelves order) (hi : order[i]? = some gone)
    (hk : gone.shelf ≠ k) (c : α) :
    items (removed (pushed shelves k c) gone)
        ((order.set i (free shelves k)).map (closeGap gone)) =
      (items shelves order).set i c := by
  refine h.items_set hi ?_ fun slot hslot hne => ?_
  · rw [item?_removed fun heq => hk (congrArg Slot.shelf heq).symm, item?_pushed_free]
  · rw [item?_removed hne, item?_pushed ((h.mem_iff slot).1 hslot)]

end Slot

end Form

end FormTemplate
