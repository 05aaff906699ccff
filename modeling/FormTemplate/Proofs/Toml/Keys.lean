import FormTemplate.Toml.Document
import Mathlib.Data.List.Nodup

/-!
# Keys of tables

A key is given a value once. `Value.WellBuilt` says so of every table in a
value, however deep it lies, and `Entries.wellBuilt_of_ofSource?` says it of
every document that can be read: each step that builds tables leads from
well-built tables to well-built tables.
-/

namespace FormTemplate

namespace Toml

mutual

/-- **The values that documents have**: no table has a key twice. -/
inductive Value.WellBuilt : Value → Prop
  /-- A string. -/
  | string (text : Text) : Value.WellBuilt (.string text)
  /-- An integer. -/
  | integer (value : Option Int) : Value.WellBuilt (.integer value)
  /-- A float. -/
  | float (magnitude : Option Decimal) : Value.WellBuilt (.float magnitude)
  /-- A truth value. -/
  | boolean (value : Bool) : Value.WellBuilt (.boolean value)
  /-- A date. -/
  | dateTime : Value.WellBuilt .dateTime
  /-- An array. -/
  | array {items : List Value} (hitems : ∀ v ∈ items, Value.WellBuilt v) :
      Value.WellBuilt (.array items)
  /-- An array of tables. -/
  | tables {earlier : List Value} {last : Entries}
      (hearlier : ∀ v ∈ earlier, Value.WellBuilt v) (hlast : Entries.WellBuilt last) :
      Value.WellBuilt (.tables earlier last)
  /-- A table. -/
  | table {origin : TableOrigin} {entries : Entries} (hentries : Entries.WellBuilt entries) :
      Value.WellBuilt (.table origin entries)

/-- The same of what a table holds. -/
inductive Entries.WellBuilt : Entries → Prop
  /-- No key is there twice, and the values are well built. -/
  | intro {es : Entries} (hkeys : (es.map Prod.fst).Nodup)
      (hvalues : ∀ e ∈ es, Value.WellBuilt e.2) : Entries.WellBuilt es

end

namespace Entries

variable {es es' : Entries} {key first : Text} {others : List Text} {v : Value}

theorem WellBuilt.nodup (h : WellBuilt es) : (es.map Prod.fst).Nodup := by
  cases h with
  | intro hkeys _ => exact hkeys

theorem WellBuilt.of_mem (h : WellBuilt es) {e : Text × Value} (he : e ∈ es) : e.2.WellBuilt := by
  cases h with
  | intro _ hvalues => exact hvalues e he

theorem wellBuilt_nil : WellBuilt [] := .intro List.nodup_nil (List.forall_mem_nil _)

/-! ## Giving a key its value -/

/-- A key that is new comes last, and the others stay in their places. -/
theorem map_fst_alter {f : Option Value → Option Value} (h : alter key f es = some es') :
    es'.map Prod.fst =
      if key ∈ es.map Prod.fst then es.map Prod.fst else es.map Prod.fst ++ [key] := by
  induction es generalizing es' with
  | nil =>
    obtain ⟨v, -, rfl⟩ := Option.map_eq_some_iff.1 h
    rfl
  | cons e es ih =>
    obtain ⟨k, w⟩ := e
    rw [alter] at h
    split at h
    · next hk =>
      obtain ⟨v, -, rfl⟩ := Option.map_eq_some_iff.1 h
      rw [if_pos (by simp [hk])]
      rfl
    · next hk =>
      obtain ⟨fs, hfs, rfl⟩ := Option.map_eq_some_iff.1 h
      have hmem : key ∈ ((k, w) :: es).map Prod.fst ↔ key ∈ es.map Prod.fst := by
        simp [Ne.symm hk]
      rw [List.map_cons, ih hfs, if_congr hmem rfl rfl, List.map_cons]
      split <;> rfl

/-- Entries are the old ones, but for the one that gets its value. -/
theorem mem_of_mem_alter {f : Option Value → Option Value} (h : alter key f es = some es')
    {e : Text × Value} (he : e ∈ es') :
    e ∈ es ∨ ∃ old, (∀ w ∈ old, (key, w) ∈ es) ∧ f old = some e.2 := by
  induction es generalizing es' with
  | nil =>
    obtain ⟨v, hv, rfl⟩ := Option.map_eq_some_iff.1 h
    cases List.mem_singleton.1 he
    exact .inr ⟨none, nofun, hv⟩
  | cons d es ih =>
    obtain ⟨k, w⟩ := d
    rw [alter] at h
    split at h
    · next hk =>
      obtain ⟨v, hv, rfl⟩ := Option.map_eq_some_iff.1 h
      rcases List.mem_cons.1 he with rfl | he
      · refine .inr ⟨some w, ?_, hv⟩
        rintro _ ⟨⟩
        exact hk ▸ List.mem_cons_self
      · exact .inl (List.mem_cons_of_mem _ he)
    · obtain ⟨fs, hfs, rfl⟩ := Option.map_eq_some_iff.1 h
      rcases List.mem_cons.1 he with rfl | he
      · exact .inl List.mem_cons_self
      · rcases ih hfs he with he | ⟨old, hold, hv⟩
        · exact .inl (List.mem_cons_of_mem _ he)
        · exact .inr ⟨old, fun w hw => List.mem_cons_of_mem _ (hold w hw), hv⟩

/-- **No step doubles a key.** The entry that is changed is well built if its
new value is, whatever well-built value it had. -/
theorem wellBuilt_alter {f : Option Value → Option Value} (hes : WellBuilt es)
    (hf : ∀ old v, (∀ w ∈ old, w.WellBuilt) → f old = some v → v.WellBuilt)
    (h : alter key f es = some es') : WellBuilt es' := by
  refine .intro ?_ fun e he => ?_
  · rw [map_fst_alter h]
    split
    · exact hes.nodup
    · next hkey => exact List.concat_eq_append ▸ hes.nodup.concat hkey
  · rcases mem_of_mem_alter h he with he | ⟨old, hold, hv⟩
    · exact hes.of_mem he
    · exact hf old e.2 (fun w hw => hes.of_mem (hold w hw)) hv

theorem wellBuilt_assign (hv : v.WellBuilt) (hes : WellBuilt es)
    (h : assign v first others es = some es') : WellBuilt es' := by
  induction others generalizing first es es' with
  | nil =>
    refine wellBuilt_alter hes (fun old w _ hw => ?_) h
    split at hw
    · cases hw
      exact hv
    · cases hw
  | cons next others ih =>
    refine wellBuilt_alter hes (fun old w hold hw => ?_) h
    split at hw
    · obtain ⟨fs, hfs, rfl⟩ := Option.map_eq_some_iff.1 hw
      exact .table (ih wellBuilt_nil hfs)
    · obtain ⟨fs, hfs, rfl⟩ := Option.map_eq_some_iff.1 hw
      cases hold _ rfl with
      | table hentries => exact .table (ih hentries hfs)
    · obtain ⟨fs, hfs, rfl⟩ := Option.map_eq_some_iff.1 hw
      cases hold _ rfl with
      | table hentries => exact .table (ih hentries hfs)
    · split at hw
      · cases hw
      · obtain ⟨fs, hfs, rfl⟩ := Option.map_eq_some_iff.1 hw
        cases hold _ rfl with
        | tables hearlier hlast => exact .tables hearlier (ih hlast hfs)
    · cases hw

/-- Nor is one doubled by pairs that are added one after the other. -/
theorem wellBuilt_assignAll {pairs : List (KeyPath × Value)} (hpairs : ∀ p ∈ pairs, p.2.WellBuilt)
    (hes : WellBuilt es) (h : assignAll pairs es = some es') : WellBuilt es' := by
  induction pairs generalizing es with
  | nil =>
    cases h
    exact hes
  | cons p pairs ih =>
    obtain ⟨hp, hpairs⟩ := List.forall_mem_cons.1 hpairs
    obtain ⟨fs, hfs, h⟩ := Option.bind_eq_some_iff.1 h
    exact ih hpairs (wellBuilt_assign hp hes hfs) h

/-- Nor by a table that is begun. -/
theorem wellBuilt_start {what : Beginning} {fill : Entries → Option Entries}
    (hfill : ∀ es es', WellBuilt es → fill es = some es' → WellBuilt es') (hes : WellBuilt es)
    (h : start what fill first others es = some es') : WellBuilt es' := by
  induction others generalizing first es es' with
  | nil =>
    refine wellBuilt_alter hes (fun old w hold hw => ?_) h
    split at hw
    · obtain ⟨fs, hfs, rfl⟩ := Option.map_eq_some_iff.1 hw
      exact .table (hfill _ _ wellBuilt_nil hfs)
    · obtain ⟨fs, hfs, rfl⟩ := Option.map_eq_some_iff.1 hw
      cases hold _ rfl with
      | table hentries => exact .table (hfill _ _ hentries hfs)
    · obtain ⟨fs, hfs, rfl⟩ := Option.map_eq_some_iff.1 hw
      exact .tables (List.forall_mem_nil _) (hfill _ _ wellBuilt_nil hfs)
    · obtain ⟨fs, hfs, rfl⟩ := Option.map_eq_some_iff.1 hw
      cases hold _ rfl with
      | tables hearlier hlast =>
        refine .tables ?_ (hfill _ _ wellBuilt_nil hfs)
        exact List.forall_mem_append.2 ⟨hearlier, List.forall_mem_singleton.2 (.table hlast)⟩
    · cases hw
  | cons next others ih =>
    refine wellBuilt_alter hes (fun old w hold hw => ?_) h
    split at hw
    · obtain ⟨fs, hfs, rfl⟩ := Option.map_eq_some_iff.1 hw
      exact .table (ih wellBuilt_nil hfs)
    · cases hw
    · obtain ⟨fs, hfs, rfl⟩ := Option.map_eq_some_iff.1 hw
      cases hold _ rfl with
      | table hentries => exact .table (ih hentries hfs)
    · obtain ⟨fs, hfs, rfl⟩ := Option.map_eq_some_iff.1 hw
      cases hold _ rfl with
      | tables hearlier hlast => exact .tables hearlier (ih hlast hfs)
    · cases hw

end Entries

/-! ## Reading values -/

/-- Each item of a list was read by the reader of items. -/
theorem forall_mem_of_items {α : Type} {P : α → Prop} {item : Reader α} {mark : Char}
    {s rest : Text} {as : List α} (hitem : ∀ t a u, item t = some (a, u) → P a)
    (h : items item mark s = some (as, rest)) : ∀ a ∈ as, P a := by
  induction hn : s.length using Nat.strongRecOn generalizing s as rest with
  | _ n ih =>
    subst hn
    rw [items] at h
    split at h
    · cases h
    split at h
    · cases h
      exact List.forall_mem_nil _
    split at h
    · cases h
    · next a u ha =>
      split at h
      · next c v _ =>
        split at h
        · cases h
          exact List.forall_mem_singleton.2 (hitem _ _ _ ha)
        split at h
        · next hc =>
          obtain ⟨⟨bs, w⟩, hbs, h⟩ := Option.map_eq_some_iff.1 h
          cases h
          have hlt : v.length < s.length := of_decide_eq_true (Bool.and_eq_true_iff.1 hc).2
          exact List.forall_mem_cons.2 ⟨hitem _ _ _ ha, ih _ hlt hbs rfl⟩
        · cases h
      · cases h

/-- A bare word stands for a value without a table. -/
theorem wellBuilt_of_ofWord? {word : Text} {v : Value} (h : Value.ofWord? word = some v) :
    v.WellBuilt := by
  rw [Value.ofWord?] at h
  split at h
  · cases h
    exact .boolean true
  split at h
  · cases h
    exact .boolean false
  split at h
  · cases h
    exact .dateTime
  rcases Option.or_eq_some_iff.1 h with h | ⟨-, h⟩
  · obtain ⟨n, -, rfl⟩ := Option.map_eq_some_iff.1 h
    exact .integer n
  · obtain ⟨x, -, rfl⟩ := Option.map_eq_some_iff.1 h
    exact .float x

theorem wellBuilt_of_bareValue {s rest : Text} {v : Value} (h : bareValue s = some (v, rest)) :
    v.WellBuilt := by
  have hword : ∀ {word t : Text},
      (Value.ofWord? word).map (fun v => (v, t)) = some (v, rest) → v.WellBuilt := by
    intro word t h
    obtain ⟨w, hw, hwv⟩ := Option.map_eq_some_iff.1 h
    cases hwv
    exact wellBuilt_of_ofWord? hw
  rw [bareValue] at h
  split at h
  split at h
  · split at h
    split at h
    · exact hword h
    · exact hword h
  · exact hword h

theorem wellBuilt_of_pair {skip : Text → Option Text} {read : Reader Value} {s rest : Text}
    {p : KeyPath × Value} (hread : ∀ t v u, read t = some (v, u) → v.WellBuilt)
    (h : pair skip read s = some (p, rest)) : p.2.WellBuilt := by
  rw [pair] at h
  obtain ⟨⟨path, s₁⟩, -, h⟩ := Option.bind_eq_some_iff.1 h
  obtain ⟨s₂, -, h⟩ := Option.bind_eq_some_iff.1 h
  split at h
  · obtain ⟨s₃, -, h⟩ := Option.bind_eq_some_iff.1 h
    obtain ⟨⟨v, s₄⟩, hv, h⟩ := Option.bind_eq_some_iff.1 h
    cases h
    exact hread _ _ _ hv
  · cases h

/-- **A value that is read is well built**, down to any depth. -/
theorem wellBuilt_of_value {depth : Nat} {s rest : Text} {v : Value}
    (h : value depth s = some (v, rest)) : v.WellBuilt := by
  have hstring : ∀ {r : Option (Text × Text)} {v : Value} {rest : Text},
      r.map (fun p => (Value.string p.1, p.2)) = some (v, rest) → v.WellBuilt := by
    intro r v rest h
    obtain ⟨⟨text, t⟩, -, h⟩ := Option.map_eq_some_iff.1 h
    cases h
    exact .string text
  -- What lies in a value is read one level down.
  induction depth using Nat.strongRecOn generalizing s v rest with
  | _ depth ih =>
    rw [value.eq_def] at h
    split at h
    · exact hstring h
    · exact hstring h
    · exact hstring h
    · exact hstring h
    · next inner s =>
      obtain ⟨⟨vs, t⟩, hvs, h⟩ := Option.map_eq_some_iff.1 h
      cases h
      exact .array (forall_mem_of_items (fun t v u => ih inner (Nat.lt_succ_self _)) hvs)
    · next inner s =>
      obtain ⟨⟨pairs, t⟩, hpairs, h⟩ := Option.bind_eq_some_iff.1 h
      obtain ⟨es, hes, h⟩ := Option.bind_eq_some_iff.1 h
      cases h
      have hread : ∀ t v u, value inner t = some (v, u) → v.WellBuilt :=
        fun t v u => ih inner (Nat.lt_succ_self _)
      have hbuilt := forall_mem_of_items (fun t p u => wellBuilt_of_pair hread) hpairs
      exact .table (Entries.wellBuilt_assignAll hbuilt Entries.wellBuilt_nil hes)
    · exact wellBuilt_of_bareValue h

/-! ## Reading documents -/

/-- A statement whose value, if it gives one, is well built. -/
def Statement.WellBuilt : Statement → Prop
  | .pair _ v => v.WellBuilt
  | .header _ _ => True

theorem wellBuilt_of_statement {s rest : Text} {st : Statement}
    (h : statement s = some (st, rest)) : st.WellBuilt := by
  rw [statement.eq_def] at h
  split at h
  · obtain ⟨⟨path, t⟩, -, h⟩ := Option.map_eq_some_iff.1 h
    cases h
    trivial
  · obtain ⟨⟨path, t⟩, -, h⟩ := Option.map_eq_some_iff.1 h
    cases h
    trivial
  · obtain ⟨⟨⟨path, v⟩, t⟩, hpair, h⟩ := Option.map_eq_some_iff.1 h
    cases h
    exact wellBuilt_of_pair (fun t v u => wellBuilt_of_value) hpair

theorem wellBuilt_of_statements {s : Text} {sts : List Statement} (h : statements s = some sts) :
    ∀ st ∈ sts, st.WellBuilt := by
  induction hn : s.length using Nat.strongRecOn generalizing s sts with
  | _ n ih =>
    subst hn
    rw [statements] at h
    split at h
    · cases h
    · cases h
      exact List.forall_mem_nil _
    split at h
    · cases h
    · next st u hst =>
      split at h
      · cases h
      split at h
      · next hlt =>
        obtain ⟨sts, hsts, rfl⟩ := Option.map_eq_some_iff.1 h
        exact List.forall_mem_cons.2 ⟨wellBuilt_of_statement hst, ih _ hlt hsts rfl⟩
      · cases h

/-- The leading pairs and the statements behind them are all statements
there are. -/
theorem wellBuilt_leadingPairs {sts : List Statement} (h : ∀ st ∈ sts, st.WellBuilt) :
    (∀ p ∈ (leadingPairs sts).1, p.2.WellBuilt) ∧ ∀ st ∈ (leadingPairs sts).2, st.WellBuilt := by
  fun_induction leadingPairs sts with
  | case1 path v sts pairs rest hsts ih =>
    obtain ⟨hv, hrest⟩ := List.forall_mem_cons.1 h
    obtain ⟨hpairs, hbehind⟩ := ih hrest
    rw [hsts] at hpairs hbehind
    exact ⟨List.forall_mem_cons.2 ⟨hv, hpairs⟩, hbehind⟩
  | case2 sts => exact ⟨List.forall_mem_nil _, h⟩

namespace Entries

theorem wellBuilt_addSections {es es' : Entries} {sts : List Statement} (hes : WellBuilt es)
    (hsts : ∀ st ∈ sts, st.WellBuilt) (h : addSections es sts = some es') : WellBuilt es' := by
  fun_induction addSections es sts with
  | case1 es what path sts es₁ hes₁ ih =>
    obtain ⟨-, hsts⟩ := List.forall_mem_cons.1 hsts
    obtain ⟨hpairs, hbehind⟩ := wellBuilt_leadingPairs hsts
    have hfill : ∀ fs fs', WellBuilt fs → assignAll (leadingPairs sts).1 fs = some fs' →
        WellBuilt fs' := fun fs fs' => wellBuilt_assignAll hpairs
    exact ih (wellBuilt_start hfill hes hes₁) hbehind h
  | case2 => cases h
  | case3 =>
    cases h
    exact hes

/-- **A document has each key once**, in its table and in every table in
it. -/
theorem wellBuilt_of_ofSource? {source : Text} {es : Entries} (h : ofSource? source = some es) :
    WellBuilt es := by
  obtain ⟨sts, hsts, h⟩ := Option.bind_eq_some_iff.1 h
  obtain ⟨hpairs, hbehind⟩ := wellBuilt_leadingPairs (wellBuilt_of_statements hsts)
  obtain ⟨fs, hfs, h⟩ := Option.bind_eq_some_iff.1 h
  exact wellBuilt_addSections (wellBuilt_assignAll hpairs wellBuilt_nil hfs) hbehind h

end Entries

end Toml

end FormTemplate
