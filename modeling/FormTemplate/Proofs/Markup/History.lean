import FormTemplate.Markup.Element
import FormTemplate.Proofs.Markup.Attributes
import FormTemplate.Proofs.Markup.Reading
import Mathlib.Data.List.Induction

/-!
# Attributes and their history

What is done to the attributes of an element is a history of events, each of
which gives a name a value or takes a name away; a merge is one event for
each of its entries. Whatever is done, the attributes are a map in order of
arrival: the value of a name is the one last given to it and not taken away
since (`LastGiven`), and the names stand in the order of the moments at which
they arrived and stayed (`ArrivedAt`). One event keeps this
(`Tells.apply`), so a history does (`tells_after`).
-/

namespace FormTemplate

namespace Markup

/-! ## Events -/

/-- **What happens to the attributes of an element.** -/
inductive Event where
  /-- A name is set to a value. -/
  | set (name : Text) (value : AttributeValue)
  /-- A name is taken away. -/
  | erase (name : Text)
deriving Repr, DecidableEq

namespace Event

/-- The name that the event is about. -/
def name : Event → Text
  | set name _ => name
  | erase name => name

/-- What an entry of a merge does. -/
def ofEntry : Text × Option AttributeValue → Event
  | (name, none) => erase name
  | (name, some (.flag false)) => erase name
  | (name, some value) => set name value

end Event

/-- One change of the attributes of an element: an event, or a merge. -/
inductive Change where
  /-- A single event. -/
  | event (event : Event)
  /-- A merge of entries. -/
  | merge (entries : Merge)
deriving Repr, DecidableEq

/-- The events of a change. -/
def Change.events : Change → List Event
  | event e => [e]
  | merge m => m.map Event.ofEntry

/-- The attributes after an event. -/
def Attributes.apply (as : Attributes) : Event → Attributes
  | .set name value => as.set name value
  | .erase name => as.erase name

namespace Element

/-- The element after an event. -/
def apply (e : Element) : Event → Element
  | .set name value => e.set name value
  | .erase name => e.erase name

/-- The element after a change. -/
def change (e : Element) : Change → Element
  | .event x => e.apply x
  | .merge m => e.merge m

/-- **The element after changes.** -/
def changeAll (e : Element) (l : List Change) : Element := l.foldl change e

end Element

/-! ## What a history says -/

/-- **The value last given to a name**, which was not taken away since. -/
def LastGiven (h : List Event) (name : Text) (value : AttributeValue) : Prop :=
  ∃ before after, h = before ++ .set name value :: after ∧ ∀ x ∈ after, x.name ≠ name

/-- **The moment at which a name arrived**: it was set, had no value before,
and was not taken away since. -/
def ArrivedAt (h : List Event) (name : Text) (i : Nat) : Prop :=
  ∃ before value after, h = before ++ .set name value :: after ∧ before.length = i ∧
    (∀ v, ¬LastGiven before name v) ∧ .erase name ∉ after

variable {h : List Event} {name other : Text} {value v : AttributeValue} {x : Event} {i j : Nat}

/-- What stands in a history before one more event, and after. -/
theorem append_singleton_eq_append_cons {before after : List Event} {y : Event} :
    h ++ [x] = before ++ y :: after ↔
      (h = before ∧ x = y ∧ after = []) ∨
        ∃ rest, after = rest ++ [x] ∧ h = before ++ y :: rest := by
  constructor
  · intro heq
    rcases List.eq_nil_or_concat after with rfl | ⟨rest, z, rfl⟩
    · obtain ⟨rfl, hxy⟩ := List.append_inj' heq rfl
      exact .inl ⟨rfl, (List.cons.inj hxy).1, rfl⟩
    · rw [List.concat_eq_append, ← List.cons_append, ← List.append_assoc] at heq
      obtain ⟨rfl, hxz⟩ := List.append_inj' heq rfl
      cases hxz
      exact .inr ⟨rest, List.concat_eq_append, rfl⟩
  · rintro (⟨rfl, rfl, rfl⟩ | ⟨rest, rfl, rfl⟩)
    · rfl
    · simp

theorem lastGiven_append_of_ne (hx : x.name ≠ name) :
    LastGiven (h ++ [x]) name v ↔ LastGiven h name v := by
  constructor
  · rintro ⟨before, after, heq, hafter⟩
    rcases append_singleton_eq_append_cons.1 heq with ⟨-, rfl, -⟩ | ⟨rest, rfl, rfl⟩
    · exact absurd rfl hx
    · exact ⟨before, rest, rfl, fun y hy => hafter y (List.mem_append_left _ hy)⟩
  · rintro ⟨before, after, rfl, hafter⟩
    refine ⟨before, after ++ [x], by simp, fun y hy => ?_⟩
    rcases List.mem_append.1 hy with hy | hy
    · exact hafter y hy
    · exact List.mem_singleton.1 hy ▸ hx

theorem lastGiven_append_set : LastGiven (h ++ [.set name value]) name v ↔ v = value := by
  constructor
  · rintro ⟨before, after, heq, hafter⟩
    rcases append_singleton_eq_append_cons.1 heq with ⟨-, hset, -⟩ | ⟨rest, rfl, -⟩
    · cases hset
      rfl
    · exact absurd rfl (hafter _ (List.mem_append_right _ List.mem_cons_self))
  · rintro rfl
    exact ⟨h, [], rfl, nofun⟩

theorem not_lastGiven_append_erase : ¬LastGiven (h ++ [.erase name]) name v := by
  rintro ⟨before, after, heq, hafter⟩
  rcases append_singleton_eq_append_cons.1 heq with ⟨-, hset, -⟩ | ⟨rest, rfl, -⟩
  · cases hset
  · exact absurd rfl (hafter _ (List.mem_append_right _ List.mem_cons_self))

theorem arrivedAt_append_of_ne (hx : x.name ≠ name) :
    ArrivedAt (h ++ [x]) name i ↔ ArrivedAt h name i := by
  constructor
  · rintro ⟨before, value, after, heq, hi, hnew, hafter⟩
    rcases append_singleton_eq_append_cons.1 heq with ⟨-, rfl, -⟩ | ⟨rest, rfl, rfl⟩
    · exact absurd rfl hx
    · exact ⟨before, value, rest, rfl, hi, hnew, fun hy => hafter (List.mem_append_left _ hy)⟩
  · rintro ⟨before, value, after, rfl, hi, hnew, hafter⟩
    refine ⟨before, value, after ++ [x], by simp, hi, hnew, ?_⟩
    rw [List.mem_append, List.mem_singleton]
    rintro (hy | rfl)
    · exact hafter hy
    · exact hx rfl

/-- A name that is set arrives then, unless it is there. -/
theorem arrivedAt_append_set : ArrivedAt (h ++ [.set name value]) name i ↔
    ArrivedAt h name i ∨ h.length = i ∧ ∀ v, ¬LastGiven h name v := by
  constructor
  · rintro ⟨before, w, after, heq, hi, hnew, hafter⟩
    rcases append_singleton_eq_append_cons.1 heq with ⟨rfl, -, -⟩ | ⟨rest, rfl, rfl⟩
    · exact .inr ⟨hi, hnew⟩
    · exact .inl ⟨before, w, rest, rfl, hi, hnew, fun hy => hafter (List.mem_append_left _ hy)⟩
  · rintro (⟨before, w, after, rfl, hi, hnew, hafter⟩ | ⟨hi, hnew⟩)
    · refine ⟨before, w, after ++ [.set name value], by simp, hi, hnew, ?_⟩
      simpa using hafter
    · exact ⟨h, value, [], rfl, hi, hnew, nofun⟩

/-- A name that has a value keeps its moment when it is set. -/
theorem arrivedAt_append_set_of_lastGiven (hv : LastGiven h name v) :
    ArrivedAt (h ++ [.set name value]) other i ↔ ArrivedAt h other i := by
  by_cases hname : name = other
  · subst hname
    rw [arrivedAt_append_set, or_iff_left fun hnew => hnew.2 v hv]
  · exact arrivedAt_append_of_ne hname

theorem not_arrivedAt_append_erase : ¬ArrivedAt (h ++ [.erase name]) name i := by
  rintro ⟨before, value, after, heq, -, -, hafter⟩
  rcases append_singleton_eq_append_cons.1 heq with ⟨-, hset, -⟩ | ⟨rest, rfl, -⟩
  · cases hset
  · exact hafter (List.mem_append_right _ List.mem_cons_self)

theorem ArrivedAt.lt_length (hi : ArrivedAt h name i) : i < h.length := by
  obtain ⟨before, value, after, rfl, rfl, -, -⟩ := hi
  simp

/-! ## What the attributes say -/

namespace Attributes

variable {as : Attributes}

/-- **Attributes that say what a history says.** -/
structure Tells (h : List Event) (as : Attributes) : Prop where
  /-- No name is used twice. -/
  distinct : as.Distinct
  /-- A name has the value that it was given last. -/
  value : ∀ name v, as.get? name = some v ↔ LastGiven h name v
  /-- The names are those that arrived and stayed. -/
  arrived : ∀ name, name ∈ as.map Prod.fst ↔ ∃ i, ArrivedAt h name i
  /-- They stand in the order of their arrival. -/
  order : (as.map Prod.fst).Pairwise fun name other =>
    ∀ i j, ArrivedAt h name i → ArrivedAt h other j → i < j

theorem mem_map_fst_iff : name ∈ as.map Prod.fst ↔ ∃ v, as.get? name = some v := by
  induction as with
  | nil => simp [get?]
  | cons a as ih =>
    rw [List.map_cons, List.mem_cons, get?_cons, ih]
    by_cases hname : name = a.1 <;> simp [hname]

variable (ht : Tells h as)
include ht

theorem Tells.value_set (name : Text) (value : AttributeValue) (other : Text) (v : AttributeValue) :
    (as.set name value).get? other = some v ↔ LastGiven (h ++ [.set name value]) other v := by
  rw [get?_set]
  split
  · next heq => rw [heq, lastGiven_append_set, Option.some.injEq, eq_comm]
  · next hne => rw [lastGiven_append_of_ne (Ne.symm hne), ht.value]

/-- A name that is there keeps its place when it is set. -/
theorem Tells.set_of_mem (hmem : name ∈ as.map Prod.fst) (value : AttributeValue) :
    Tells (h ++ [.set name value]) (as.set name value) := by
  obtain ⟨v, hv⟩ := mem_map_fst_iff.1 hmem
  have hlast := (ht.value name v).1 hv
  have hnames : (as.set name value).map Prod.fst = as.map Prod.fst := map_fst_set_of_mem hmem
  refine ⟨ht.distinct.set name value, ht.value_set name value, fun other => ?_, ?_⟩
  · rw [hnames, ht.arrived]
    exact exists_congr fun i => (arrivedAt_append_set_of_lastGiven hlast).symm
  · rw [hnames]
    refine ht.order.imp fun hbefore i j hi hj => ?_
    rw [arrivedAt_append_set_of_lastGiven hlast] at hi hj
    exact hbefore i j hi hj

/-- A name that is not there goes to the end. -/
theorem Tells.set_of_not_mem (hmem : name ∉ as.map Prod.fst) (value : AttributeValue) :
    Tells (h ++ [.set name value]) (as.set name value) := by
  have hlast : ∀ v, ¬LastGiven h name v := fun v hv =>
    hmem (mem_map_fst_iff.2 ⟨v, (ht.value name v).2 hv⟩)
  have harrived : ∀ i, ArrivedAt (h ++ [.set name value]) name i ↔ h.length = i := by
    intro i
    rw [arrivedAt_append_set, or_iff_right fun hi => hmem ((ht.arrived name).2 ⟨i, hi⟩)]
    exact and_iff_left hlast
  have hother : ∀ {other}, other ∈ as.map Prod.fst → ∀ i,
      ArrivedAt (h ++ [.set name value]) other i ↔ ArrivedAt h other i := by
    intro other hm i
    refine arrivedAt_append_of_ne ?_
    rintro rfl
    exact hmem hm
  have hnames : (as.set name value).map Prod.fst = as.map Prod.fst ++ [name] := by
    rw [Attributes.set_of_not_mem hmem, List.map_append]
    rfl
  refine ⟨ht.distinct.set name value, ht.value_set name value, fun other => ?_, ?_⟩
  · rw [hnames, List.mem_append, List.mem_singleton]
    by_cases heq : other = name
    · subst heq
      exact iff_of_true (.inr rfl) ⟨_, (harrived _).2 rfl⟩
    · rw [or_iff_left heq, ht.arrived]
      exact exists_congr fun i => (arrivedAt_append_of_ne (Ne.symm heq)).symm
  · rw [hnames, List.pairwise_append]
    refine ⟨ht.order.imp_of_mem fun ha hb hbefore i j hi hj => ?_, List.pairwise_singleton _ _,
      fun a ha b hb i j hi hj => ?_⟩
    · exact hbefore i j ((hother ha i).1 hi) ((hother hb j).1 hj)
    · obtain rfl := List.mem_singleton.1 hb
      exact (harrived j).1 hj ▸ ((hother ha i).1 hi).lt_length

/-- A name that is taken away leaves the others where they are. -/
theorem Tells.erase (name : Text) : Tells (h ++ [.erase name]) (as.erase name) := by
  have hnames : (as.erase name).map Prod.fst = (as.map Prod.fst).filter (· ≠ name) := by
    rw [Attributes.erase, List.filter_map]
    rfl
  have hother : ∀ {other}, other ≠ name → ∀ i,
      ArrivedAt (h ++ [.erase name]) other i ↔ ArrivedAt h other i :=
    fun hne _ => arrivedAt_append_of_ne (Ne.symm hne)
  refine ⟨ht.distinct.erase name, fun other v => ?_, fun other => ?_, ?_⟩
  · by_cases heq : other = name
    · rw [heq, get?_erase_self]
      exact iff_of_false (Option.some_ne_none v).symm not_lastGiven_append_erase
    · rw [get?_erase_of_ne heq, lastGiven_append_of_ne (Ne.symm heq), ht.value]
  · rw [hnames, List.mem_filter, decide_eq_true_eq, ht.arrived]
    by_cases heq : other = name
    · subst heq
      refine iff_of_false (fun hne => hne.2 rfl) ?_
      rintro ⟨i, hi⟩
      exact not_arrivedAt_append_erase hi
    · rw [and_iff_left heq]
      exact exists_congr fun i => (hother heq i).symm
  · rw [hnames]
    refine (ht.order.sublist List.filter_sublist).imp_of_mem fun ha hb hbefore i j hi hj => ?_
    have hne : ∀ {a}, a ∈ (as.map Prod.fst).filter (· ≠ name) → a ≠ name := fun ha =>
      of_decide_eq_true (List.mem_filter.1 ha).2
    exact hbefore i j ((hother (hne ha) i).1 hi) ((hother (hne hb) j).1 hj)

/-- **An event keeps the attributes in line with the history.** -/
theorem Tells.apply (x : Event) : Tells (h ++ [x]) (as.apply x) := by
  cases x with
  | set name value =>
    by_cases hmem : name ∈ as.map Prod.fst
    · exact ht.set_of_mem hmem value
    · exact ht.set_of_not_mem hmem value
  | erase name => exact ht.erase name

omit ht

/-- **So they are in line with every history.** -/
theorem tells_after (h : List Event) : Tells h (h.foldl Attributes.apply []) := by
  induction h using List.reverseRecOn with
  | nil =>
    have hnot : ∀ {name i}, ¬ArrivedAt [] name i := fun hi => absurd hi.lt_length (by simp)
    refine ⟨.nil, fun name v => ?_, fun name => ?_, .nil⟩
    · refine iff_of_false nofun ?_
      rintro ⟨before, after, heq, -⟩
      simp at heq
    · exact iff_of_false nofun fun ⟨_, hi⟩ => hnot hi
  | append_singleton h x ih =>
    rw [List.foldl_append]
    exact ih.apply x

/-! ## Merges -/

/-- An entry of a merge is one event. -/
theorem mergeEntry_eq_apply (as : Attributes) (entry : Text × Option AttributeValue) :
    as.mergeEntry entry = as.apply (.ofEntry entry) := by
  obtain ⟨name, value⟩ := entry
  match value with
  | none => rfl
  | some (.flag false) => rfl
  | some (.flag true) => rfl
  | some (.text s) => rfl

theorem merge_eq_foldl (m : Merge) (as : Attributes) :
    as.merge m = (m.map Event.ofEntry).foldl Attributes.apply as := by
  rw [merge, List.foldl_map]
  exact List.foldl_ext _ _ _ fun as entry _ => mergeEntry_eq_apply as entry

end Attributes

/-! ## Elements -/

namespace Element

theorem apply_eq (e : Element) (x : Event) :
    e.apply x = { e with attributes := e.attributes.apply x } := by
  cases x <;> rfl

theorem foldl_apply_eq (e : Element) (h : List Event) :
    h.foldl apply e = { e with attributes := h.foldl Attributes.apply e.attributes } := by
  induction h generalizing e with
  | nil => rfl
  | cons x h ih => rw [List.foldl_cons, ih, apply_eq, List.foldl_cons]

/-- A merge is its entries, one after the other. -/
theorem merge_eq_foldl (m : Merge) (e : Element) :
    e.merge m = (m.map Event.ofEntry).foldl apply e := by
  rw [foldl_apply_eq, ← Attributes.merge_eq_foldl]
  rfl

/-- So changes are their events, one after the other. -/
theorem changeAll_eq (l : List Change) (e : Element) :
    e.changeAll l = (l.flatMap Change.events).foldl apply e := by
  rw [changeAll, List.foldl_flatMap]
  refine List.foldl_ext _ _ _ fun e c _ => ?_
  cases c with
  | event x => rfl
  | merge m => exact merge_eq_foldl m e

/-- **An element whose attributes are a map in the order in which the names
arrived**, as a history says. -/
structure Recalls (h : List Event) (e : Element) : Prop where
  /-- No name is used twice. -/
  distinct : (e.attributes.map Prod.fst).Nodup
  /-- A name has the value that it was given last, if it was not taken away
  since. -/
  get?_eq_some : ∀ name v, e.get? name = some v ↔ LastGiven h name v
  /-- The names are those that arrived and stayed. -/
  arrived : ∀ name, name ∈ e.attributes.map Prod.fst ↔ ∃ i, ArrivedAt h name i
  /-- They stand in the order of their arrival. -/
  order : (e.attributes.map Prod.fst).Pairwise fun name other =>
    ∀ i j, ArrivedAt h name i → ArrivedAt h other j → i < j
  /-- A merge is its entries, one after the other. -/
  merge_eq : ∀ m, e.merge m = (m.map Event.ofEntry).foldl apply e
  /-- So a merge may be made in two parts. -/
  merge_append : ∀ m n, e.merge (m ++ n) = (e.merge m).merge n
  /-- All attributes but the flags that are off are printed, in order. -/
  source_eq : e.attributes.source = (e.attributes.filter (·.2 ≠ .flag false)).flatMap fun a =>
    ' ' :: a.1 ++ valueSource a.2

/-- **Whatever is done to the attributes of an element, they recall it.** -/
theorem changeAll_recalls (name : Text) (l : List Change) :
    Recalls (l.flatMap Change.events) (({ name } : Element).changeAll l) := by
  have htells := Attributes.tells_after (l.flatMap Change.events)
  rw [changeAll_eq, foldl_apply_eq]
  refine ⟨htells.distinct, htells.value, htells.arrived, htells.order,
    fun m => merge_eq_foldl m _, fun m n => ?_, source_eq_flatMap_shown _⟩
  rw [merge_eq_foldl, merge_eq_foldl, merge_eq_foldl, List.map_append, List.foldl_append]

-- A flag that is off stays and a merge takes one away; a name that comes back goes to the end.
example :
    (({ name := [] } : Element).changeAll
      [.event (.set ['a'] (.flag true)), .event (.set ['b'] (.flag false)),
        .merge [(['a'], some (.flag false)), (['c'], some (.text []))],
        .event (.set ['a'] (.text []))]).attributes =
      [(['b'], .flag false), (['c'], .text []), (['a'], .text [])] := by
  decide

end Element

end Markup

end FormTemplate
