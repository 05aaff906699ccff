import FormTemplate.Markup.Attributes
import Mathlib.Data.List.Nodup

/-!
# Attributes as a map in order of arrival

An element's attributes are a map from names to values: setting, erasing and
merging keep the names distinct (`Distinct.set`, `Distinct.erase`,
`Distinct.merge`) and leave every name alone that they do not mention
(`get?_merge`).
-/

namespace FormTemplate

namespace Markup

namespace Attributes

variable {as : Attributes} {name other : Text} {value : AttributeValue}

/-- No name is used twice. -/
def Distinct (as : Attributes) : Prop := (as.map Prod.fst).Nodup

instance (as : Attributes) : Decidable as.Distinct :=
  inferInstanceAs (Decidable (as.map Prod.fst).Nodup)

/-- A new name goes to the end. -/
theorem set_of_not_mem (h : name ∉ as.map Prod.fst) : as.set name value = as ++ [(name, value)] := by
  induction as with
  | nil => rfl
  | cons a as ih =>
    rw [List.map_cons, List.mem_cons, not_or] at h
    rw [set, if_neg (Ne.symm h.1), ih h.2, List.cons_append]

/-- A name that is set again keeps its place. -/
theorem map_fst_set_of_mem (h : name ∈ as.map Prod.fst) :
    (as.set name value).map Prod.fst = as.map Prod.fst := by
  induction as with
  | nil => cases h
  | cons a as ih =>
    rw [set]
    split
    · next ha => simp [ha]
    · next ha =>
      rw [List.map_cons, List.mem_cons] at h
      rw [List.map_cons, List.map_cons, ih (h.resolve_left (Ne.symm ha))]

theorem Distinct.set (h : as.Distinct) (name : Text) (value : AttributeValue) :
    (as.set name value).Distinct := by
  by_cases hmem : name ∈ as.map Prod.fst
  · rw [Distinct, map_fst_set_of_mem hmem]
    exact h
  · rw [Distinct, set_of_not_mem hmem, List.map_append]
    exact List.Nodup.append h (List.nodup_singleton _) (by simpa using hmem)

theorem Distinct.erase (h : as.Distinct) (name : Text) : (as.erase name).Distinct :=
  List.Nodup.sublist (List.filter_sublist.map Prod.fst) h

/-- Merging an entry takes its name away or sets it. -/
theorem mergeEntry_eq (entry : Text × Option AttributeValue) :
    as.mergeEntry entry = as.erase entry.1 ∨
      ∃ value, as.mergeEntry entry = as.set entry.1 value := by
  obtain ⟨name, value⟩ := entry
  match value with
  | none => exact .inl rfl
  | some (.flag false) => exact .inl rfl
  | some (.flag true) => exact .inr ⟨_, rfl⟩
  | some (.text s) => exact .inr ⟨_, rfl⟩

theorem Distinct.mergeEntry (h : as.Distinct) (entry : Text × Option AttributeValue) :
    (as.mergeEntry entry).Distinct := by
  rcases mergeEntry_eq entry with heq | ⟨value, heq⟩
  · exact heq ▸ h.erase entry.1
  · exact heq ▸ h.set entry.1 value

/-- **Merging keeps the names distinct.** -/
theorem Distinct.merge (h : as.Distinct) (m : Merge) : (as.merge m).Distinct := by
  induction m generalizing as with
  | nil => exact h
  | cons entry m ih => exact ih (h.mergeEntry entry)

/-! ## Names -/

/-- The attributes without those of some names. -/
def without (names : List Text) (as : Attributes) : Attributes := as.filter (·.1 ∉ names)

theorem mem_without {names : List Text} {a : Text × AttributeValue} :
    a ∈ as.without names ↔ a ∈ as ∧ a.1 ∉ names := by
  rw [without, List.mem_filter, decide_eq_true_eq]

theorem Distinct.without (h : as.Distinct) (names : List Text) : (as.without names).Distinct :=
  List.Nodup.sublist (List.filter_sublist.map Prod.fst) h

/-- **Entries without value take their names away** and leave all else as it
is. -/
theorem merge_absent (names : List Text) (as : Attributes) :
    as.merge (names.map fun name => (name, none)) = as.without names := by
  induction names generalizing as with
  | nil => simp [merge, without]
  | cons name names ih =>
    have hfirst : (as.erase name).without names = as.without (name :: names) := by
      rw [without, erase, List.filter_filter, without]
      exact List.filter_congr fun a _ => by simp [Bool.and_comm]
    exact (ih (as.erase name)).trans hfirst

/-- What is set is there. -/
theorem mem_set_self (name : Text) (value : AttributeValue) (as : Attributes) :
    (name, value) ∈ as.set name value := by
  induction as with
  | nil => exact List.mem_singleton_self _
  | cons a as ih =>
    rw [set]
    split
    · exact List.mem_cons_self
    · exact List.mem_cons_of_mem a ih

/-- What was there under another name is still there. -/
theorem mem_set_of_ne {a : Text × AttributeValue} (ha : a ∈ as) (h : a.1 ≠ name) :
    a ∈ as.set name value := by
  induction as with
  | nil => cases ha
  | cons b as ih =>
    rw [set]
    rcases List.mem_cons.1 ha with rfl | ha
    · rw [if_neg h]
      exact List.mem_cons_self
    · split
      · exact List.mem_cons_of_mem _ ha
      · exact List.mem_cons_of_mem b (ih ha)

theorem mem_of_mem_set {a : Text × AttributeValue} (h : a ∈ as.set name value) :
    a = (name, value) ∨ a ∈ as := by
  induction as with
  | nil => exact .inl (List.mem_singleton.1 h)
  | cons b as ih =>
    rw [set] at h
    split at h
    · exact (List.mem_cons.1 h).imp_right (List.mem_cons_of_mem b)
    · rcases List.mem_cons.1 h with rfl | h
      · exact .inr List.mem_cons_self
      · exact (ih h).imp_right (List.mem_cons_of_mem b)

theorem forall_fst_mergeEntry {P : Text → Prop} {entry : Text × Option AttributeValue}
    (has : ∀ a ∈ as, P a.1) (hentry : P entry.1) : ∀ a ∈ as.mergeEntry entry, P a.1 := by
  intro a ha
  rcases mergeEntry_eq entry with heq | ⟨value, heq⟩
  · exact has a (List.mem_of_mem_filter (heq ▸ ha))
  · rcases mem_of_mem_set (heq ▸ ha) with rfl | ha
    · exact hentry
    · exact has a ha

/-- **A merge brings in no names but its own.** -/
theorem forall_fst_merge {P : Text → Prop} {m : Merge} (has : ∀ a ∈ as, P a.1)
    (hm : ∀ entry ∈ m, P entry.1) : ∀ a ∈ as.merge m, P a.1 := by
  induction m generalizing as with
  | nil => exact has
  | cons entry m ih =>
    obtain ⟨hentry, hm⟩ := List.forall_mem_cons.1 hm
    exact ih (forall_fst_mergeEntry has hentry) hm

/-! ## Changes in another order -/

/-- What is set twice has the last value. -/
theorem set_set (last : AttributeValue) :
    (as.set name value).set name last = as.set name last := by
  induction as with
  | nil => simp [set]
  | cons a as ih =>
    by_cases ha : a.1 = name
    · simp [set, ha]
    · simp [set, ha, ih]

/-- A name that is there already may be set before another one. -/
theorem set_comm_of_mem {first last : AttributeValue} (h : name ∈ as.map Prod.fst)
    (hne : name ≠ other) :
    (as.set other first).set name last = (as.set name last).set other first := by
  induction as with
  | nil => cases h
  | cons a as ih =>
    by_cases hname : a.1 = name
    · have hother : a.1 ≠ other := fun heq => hne (hname.symm.trans heq)
      simp [set, hname, hne]
    · have hmem : name ∈ as.map Prod.fst := (List.mem_cons.1 h).resolve_left (Ne.symm hname)
      by_cases hother : a.1 = other
      · simp [set, hother, Ne.symm hne]
      · simp [set, hname, hother, ih hmem]

/-- A name may be taken away before another one is set. -/
theorem erase_set_of_ne (hne : name ≠ other) :
    (as.set name value).erase other = (as.erase other).set name value := by
  induction as with
  | nil => simp [set, erase, hne]
  | cons a as ih =>
    rw [erase] at ih
    by_cases hname : a.1 = name
    · have hother : a.1 ≠ other := fun heq => hne (hname.symm.trans heq)
      simp [set, erase, hname, hne]
    · by_cases hother : a.1 = other
      · simpa [set, erase, hname, hother, Ne.symm hne] using ih
      · simpa [set, erase, hname, hother] using ih

theorem erase_erase : (as.erase name).erase name = as.erase name := by
  simp [erase]

theorem mem_map_fst_set_self : name ∈ (as.set name value).map Prod.fst :=
  List.mem_map_of_mem (mem_set_self name value as)

theorem mem_map_fst_set (h : name ∈ as.map Prod.fst) :
    name ∈ (as.set other value).map Prod.fst := by
  by_cases hne : name = other
  · exact hne ▸ mem_map_fst_set_self
  · obtain ⟨a, ha, rfl⟩ := List.mem_map.1 h
    exact List.mem_map_of_mem (mem_set_of_ne ha hne)

/-! ## Values -/

theorem get?_cons (a : Text × AttributeValue) :
    get? name (a :: as) = if name = a.1 then some a.2 else get? name as := by
  rw [get?, get?, List.lookup_cons]
  by_cases h : name = a.1
  · simp [h]
  · simp [h, beq_false_of_ne h]

/-- A name has the value it was set to, and the others keep theirs. -/
theorem get?_set : (as.set name value).get? other =
    if other = name then some value else as.get? other := by
  induction as with
  | nil => exact get?_cons _
  | cons a as ih =>
    rw [set]
    split
    · next ha =>
      rw [get?_cons, get?_cons, ha]
      by_cases h : other = name <;> simp [h]
    · next ha =>
      rw [get?_cons, get?_cons, ih]
      by_cases h : other = a.1
      · simp [h, ha]
      · simp [h]

theorem get?_erase_of_ne (h : other ≠ name) : (as.erase name).get? other = as.get? other := by
  induction as with
  | nil => rfl
  | cons a as ih =>
    rw [erase, List.filter_cons]
    split
    · rw [get?_cons, get?_cons]
      exact if_congr Iff.rfl rfl ih
    · next ha =>
      have hname : other ≠ a.1 := fun heq => h (heq.trans (by simpa using ha))
      rw [get?_cons, if_neg hname]
      exact ih

theorem get?_mergeEntry {entry : Text × Option AttributeValue} (h : other ≠ entry.1) :
    (as.mergeEntry entry).get? other = as.get? other := by
  rcases mergeEntry_eq entry with heq | ⟨value, heq⟩
  · exact heq ▸ get?_erase_of_ne h
  · exact heq ▸ get?_set.trans (if_neg h)

/-- **A merge leaves alone what it does not mention.** -/
theorem get?_merge {m : Merge} (h : ∀ entry ∈ m, entry.1 ≠ other) :
    (as.merge m).get? other = as.get? other := by
  induction m generalizing as with
  | nil => rfl
  | cons entry m ih =>
    obtain ⟨hentry, hm⟩ := List.forall_mem_cons.1 h
    exact (ih hm).trans (get?_mergeEntry hentry.symm)

theorem get?_erase_self : (as.erase name).get? name = none := by
  induction as with
  | nil => rfl
  | cons a as ih =>
    rw [erase, List.filter_cons]
    split
    · next ha =>
      have hne : name ≠ a.1 := fun heq => absurd heq.symm (by simpa using ha)
      rw [get?_cons, if_neg hne]
      exact ih
    · exact ih

/-- The value that an entry gives its name, if it does not take the name
away. -/
def entryValue : Option AttributeValue → Option AttributeValue
  | some (.flag false) => none
  | value => value

/-- What a merge does to a name that it mentions: the last entry gives it a
value or takes it away. -/
def given? (name : Text) : Merge → Option (Option AttributeValue)
  | [] => none
  | entry :: m =>
    (given? name m).or (if entry.1 = name then some (entryValue entry.2) else none)

theorem get?_mergeEntry_self (value : Option AttributeValue) :
    (as.mergeEntry (name, value)).get? name = entryValue value := by
  match value with
  | none => exact get?_erase_self
  | some (.flag false) => exact get?_erase_self
  | some (.flag true) => exact get?_set.trans (if_pos rfl)
  | some (.text s) => exact get?_set.trans (if_pos rfl)

/-- **What a merge gives a name is its value**; a name that is not mentioned
keeps its own. -/
theorem get?_merge_eq (name : Text) (m : Merge) (as : Attributes) :
    (as.merge m).get? name = (given? name m).getD (as.get? name) := by
  induction m generalizing as with
  | nil => rfl
  | cons entry m ih =>
    obtain ⟨other, value⟩ := entry
    have hentry : (as.mergeEntry (other, value)).get? name =
        (if other = name then some (entryValue value) else none).getD (as.get? name) := by
      split
      · next heq => rw [heq, get?_mergeEntry_self, Option.getD_some]
      · next hne => rw [get?_mergeEntry (Ne.symm hne), Option.getD_none]
    rw [merge, List.foldl_cons, ← merge, ih, hentry, given?]
    cases given? name m <;> rfl

/-- Where a merge mentions names once, each has what its entry says. -/
theorem get?_merge_of_mem {m : Merge} {given : Option AttributeValue}
    (hm : (m.map Prod.fst).Nodup) (h : (name, given) ∈ m) :
    (as.merge m).get? name = entryValue given := by
  induction m generalizing as with
  | nil => cases h
  | cons entry m ih =>
    obtain ⟨hfirst, hrest⟩ := List.nodup_cons.1 hm
    rcases List.mem_cons.1 h with rfl | h
    · have hothers : ∀ other ∈ m, other.1 ≠ name := fun other hother heq =>
        hfirst (List.mem_map.2 ⟨other, hother, heq⟩)
      exact (get?_merge hothers).trans (get?_mergeEntry_self given)
    · exact ih hrest h

theorem mem_of_get? (h : as.get? name = some value) : (name, value) ∈ as := by
  obtain ⟨before, after, rfl, -⟩ := List.lookup_eq_some_iff.1 h
  simp

theorem ne_of_get?_eq_none (h : as.get? name = none) : ∀ a ∈ as, a.1 ≠ name :=
  fun a ha => (bne_iff_ne.1 (List.lookup_eq_none_iff.1 h a ha)).symm

/-- A name does not stand beside itself. -/
theorem Distinct.ne_of_mem {before after : Attributes}
    (h : Distinct (before ++ (name, value) :: after)) : ∀ a ∈ before ++ after, a.1 ≠ name := by
  rw [Distinct, List.map_append, List.map_cons, List.nodup_middle, List.nodup_cons,
    ← List.map_append] at h
  exact fun a ha heq => h.1 (List.mem_map.2 ⟨a, ha, heq⟩)

/-- **A name that has a value stands in one place.** -/
theorem Distinct.exists_of_get? (h : as.Distinct) (hget : as.get? name = some value) :
    ∃ before after, as = before ++ (name, value) :: after ∧
      ∀ a ∈ before ++ after, a.1 ≠ name := by
  induction as with
  | nil => cases hget
  | cons a as ih =>
    obtain ⟨hfirst, hrest⟩ := List.nodup_cons.1 h
    rw [get?_cons] at hget
    split at hget
    · next hname =>
      cases hget
      refine ⟨[], as, by rw [hname]; rfl, fun b hb heq => hfirst ?_⟩
      exact hname ▸ heq ▸ List.mem_map_of_mem hb
    · next hname =>
      obtain ⟨before, after, rfl, hothers⟩ := ih hrest hget
      refine ⟨a :: before, after, rfl, fun b hb => ?_⟩
      rcases List.mem_cons.1 hb with rfl | hb
      · exact Ne.symm hname
      · exact hothers b hb

/-- What a text among the attributes prints. -/
theorem source_append_cons (before after : Attributes) (name value : Text) :
    source (before ++ (name, .text value) :: after) =
      before.source ++ (' ' :: name ++ "=\"".toList ++ escape value ++ ['"']) ++ after.source := by
  rw [source, List.flatMap_append, List.flatMap_cons, ← List.append_assoc]
  rfl

end Attributes

end Markup

end FormTemplate
