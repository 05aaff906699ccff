import FormTemplate.Proofs.Toml.Keys
import FormTemplate.Settings.Load
import FormTemplate.File.Tree

/-!
# The settings that a document describes

A setting has its place in a settings file: a key in a section. Whatever
else the file holds, the setting is the text at that place, or the default
if there is none (`eq_described_of_ofSource?`). So the settings of a run are
those of the run itself, else those of the file, else the defaults
(`exists_of_load`).
-/

namespace FormTemplate

namespace Settings

open Toml

variable {name key n : Text} {fields : Section} {get : Settings → Text} {s s' : Settings}

/-! ## Entries that set something -/

/-- **One entry sets a thing and the others leave it alone**: it is what the
entry with its key makes of it. -/
theorem get_foldlM {α σ β : Type} {f : σ → Text × α → Option σ} {get : σ → β} {key : Text}
    (new : α → β → β) {es : List (Text × α)} {s s' : σ}
    (hstep : ∀ e ∈ es, ∀ s s', f s e = some s' →
      get s' = if e.1 = key then new e.2 (get s) else get s)
    (hkeys : (es.map Prod.fst).Nodup) (h : es.foldlM f s = some s') :
    get s' = ((es.lookup key).map (new · (get s))).getD (get s) := by
  induction es generalizing s with
  | nil =>
    cases h
    rfl
  | cons e es ih =>
    obtain ⟨k, v⟩ := e
    obtain ⟨s₁, hs₁, h⟩ := Option.bind_eq_some_iff.1 h
    obtain ⟨hfirst, hrest⟩ := List.forall_mem_cons.1 hstep
    rw [List.map_cons, List.nodup_cons] at hkeys
    rw [ih hrest hkeys.2 h, hfirst s s₁ hs₁, List.lookup_cons]
    by_cases hk : key = k
    · subst hk
      -- The keys are distinct: no entry behind this one sets the thing again.
      have hnone : es.lookup key = none := List.lookup_eq_none_iff.2 fun e he =>
        bne_iff_ne.2 fun heq => hkeys.1 (List.mem_map.2 ⟨e, he, heq.symm⟩)
      simp [hnone]
    · rw [beq_eq_false_iff_ne.2 hk, if_neg (Ne.symm hk)]

/-- The entries of a section. An array has its items under the keys of the
settings in their order. -/
def sectionEntries (fields : Section) : Value → Entries
  | .table _ entries => entries
  | .array items => (fields.map Prod.fst).zip items
  | .tables earlier last => (fields.map Prod.fst).zip (earlier ++ [.table .header last])
  | _ => []

theorem map_fst_zip_isPrefix {α β : Type} (keys : List α) (items : List β) :
    (keys.zip items).map Prod.fst <+: keys := by
  induction keys generalizing items with
  | nil => exact List.nil_prefix
  | cons k keys ih =>
    cases items with
    | nil => exact List.nil_prefix
    | cons v items => exact List.cons_prefix_cons.2 ⟨rfl, ih items⟩

theorem nodup_sectionEntries (hfields : (fields.map Prod.fst).Nodup) {v : Value}
    (hv : v.WellBuilt) : ((sectionEntries fields v).map Prod.fst).Nodup := by
  cases hv with
  | table hentries => exact hentries.nodup
  | array _ => exact hfields.sublist (map_fst_zip_isPrefix _ _).sublist
  | tables _ _ => exact hfields.sublist (map_fst_zip_isPrefix _ _).sublist
  | _ => exact List.nodup_nil

/-- The items of an array are set like entries with the keys. -/
theorem applyItems_eq {fs : Section} (hfs : ∀ f ∈ fs, fields.lookup f.1 = some f.2) (s : Settings)
    (items : List Value) :
    applyItems fs s items = ((fs.map Prod.fst).zip items).foldlM (applyEntry fields) s := by
  induction fs generalizing s items with
  | nil => rfl
  | cons f fs ih =>
    obtain ⟨hf, hfs⟩ := List.forall_mem_cons.1 hfs
    cases items with
    | nil => rfl
    | cons v items =>
      have hentry : applyEntry fields s (f.1, v) = v.string?.map fun text => f.2 text s := by
        rw [applyEntry, hf]
      rw [List.map_cons, List.zip_cons_cons, List.foldlM_cons, hentry]
      exact bind_congr fun s' => ih hfs s' items

/-- **A section sets what its entries set**, however it is written. -/
theorem foldlM_sectionEntries {v : Value} (hfields : ∀ f ∈ fields, fields.lookup f.1 = some f.2)
    (h : applySection fields s v = some s') :
    (sectionEntries fields v).foldlM (applyEntry fields) s = some s' := by
  rw [applySection.eq_def] at h
  split at h
  · exact h
  · rw [applyItems_eq hfields] at h
    exact h
  · rw [applyItems_eq hfields] at h
    exact h
  · exact h
  · cases h

/-! ## Settings in their places -/

/-- **A setting and its place**, a key in a section. -/
structure Setting (name key : Text) (get : Settings → Text) : Prop where
  /-- The place is there. -/
  exists_set : ∃ fields set, sections.lookup name = some fields ∧ fields.lookup key = some set
  /-- The setting is what is set in its place; what is set elsewhere leaves
  it alone. -/
  get_set : ∀ n fields k set, sections.lookup n = some fields → fields.lookup k = some set →
    ∀ v s, get (set v s) = if k = key ∧ n = name then v else get s

/-- What is found under a key is among the pairs. -/
theorem mem_of_lookup {α : Type} {k : Text} {v : α} {ps : List (Text × α)}
    (h : ps.lookup k = some v) : (k, v) ∈ ps := by
  obtain ⟨before, after, rfl, -⟩ := List.lookup_eq_some_iff.1 h
  exact List.mem_append_right _ List.mem_cons_self

/-- There are two sections. -/
theorem lookup_sections (h : sections.lookup n = some fields) :
    n = "compiler".toList ∧ fields = compilerSection ∨
      n = "output".toList ∧ fields = outputSection := by
  simpa only [sections, List.mem_cons, List.not_mem_nil, or_false, Prod.mk.injEq] using
    mem_of_lookup h

/-- Three settings have their places in them. -/
theorem lookup_section (hn : sections.lookup n = some fields) {k : Text}
    {set : Text → Settings → Settings} (hk : fields.lookup k = some set) :
    (n = "compiler".toList ∧ k = "runtime_path".toList ∧
        set = fun v s => { s with runtimePath := v }) ∨
      (n = "compiler".toList ∧ k = "attribute_prefix".toList ∧
        set = fun v s => { s with attributePrefix := v }) ∨
      n = "output".toList ∧ k = "function_name".toList ∧
        set = fun v s => { s with functionName := v } := by
  have hk := mem_of_lookup hk
  rcases lookup_sections hn with ⟨rfl, rfl⟩ | ⟨rfl, rfl⟩
  · rcases List.mem_cons.1 hk with hk | hk
    · cases hk
      exact .inl ⟨rfl, rfl, rfl⟩
    · cases List.mem_singleton.1 hk
      exact .inr (.inl ⟨rfl, rfl, rfl⟩)
  · cases List.mem_singleton.1 hk
    exact .inr (.inr ⟨rfl, rfl, rfl⟩)

theorem setting_runtimePath :
    Setting "compiler".toList "runtime_path".toList (·.runtimePath) := by
  refine ⟨⟨_, _, rfl, rfl⟩, fun n fields k set hn hk v s => ?_⟩
  rcases lookup_section hn hk with ⟨rfl, rfl, rfl⟩ | ⟨rfl, rfl, rfl⟩ | ⟨rfl, rfl, rfl⟩ <;> rfl

theorem setting_attributePrefix :
    Setting "compiler".toList "attribute_prefix".toList (·.attributePrefix) := by
  refine ⟨⟨_, _, rfl, rfl⟩, fun n fields k set hn hk v s => ?_⟩
  rcases lookup_section hn hk with ⟨rfl, rfl, rfl⟩ | ⟨rfl, rfl, rfl⟩ | ⟨rfl, rfl, rfl⟩ <;> rfl

theorem setting_functionName :
    Setting "output".toList "function_name".toList (·.functionName) := by
  refine ⟨⟨_, _, rfl, rfl⟩, fun n fields k set hn hk v s => ?_⟩
  rcases lookup_section hn hk with ⟨rfl, rfl, rfl⟩ | ⟨rfl, rfl, rfl⟩ | ⟨rfl, rfl, rfl⟩ <;> rfl

/-- No section has two settings under one key. -/
theorem distinct_section (hn : sections.lookup n = some fields) :
    (fields.map Prod.fst).Nodup ∧ ∀ f ∈ fields, fields.lookup f.1 = some f.2 := by
  rcases lookup_sections hn with ⟨rfl, rfl⟩ | ⟨rfl, rfl⟩
  · exact ⟨by decide, List.forall_mem_cons.2 ⟨rfl, List.forall_mem_singleton.2 rfl⟩⟩
  · exact ⟨by decide, List.forall_mem_singleton.2 rfl⟩

/-- What one entry of a section does to a setting. -/
theorem Setting.get_applyEntry (h : Setting name key get) (hn : sections.lookup n = some fields)
    {e : Text × Value} (he : applyEntry fields s e = some s') :
    get s' = if e.1 = key ∧ n = name then e.2.string?.getD (get s) else get s := by
  rw [applyEntry] at he
  split at he
  · next set hset =>
    obtain ⟨v, hv, rfl⟩ := Option.map_eq_some_iff.1 he
    rw [h.get_set n fields e.1 set hn hset, hv, Option.getD_some]
  · next hnone =>
    rw [passOver] at he
    split at he
    · cases he
      rw [if_neg]
      rintro ⟨hkey, rfl⟩
      obtain ⟨fields', set, hfields, hset⟩ := h.exists_set
      cases hn.symm.trans hfields
      rw [hkey, hset] at hnone
      cases hnone
    · cases he

/-- Of what may be missing and of what it holds, one default is enough. -/
theorem getD_map_getD {α β : Type} (x : Option α) (f : α → Option β) (d : β) :
    (x.map fun a => (f a).getD d).getD d = (x.bind f).getD d := by
  cases x with
  | none => rfl
  | some a => rfl

/-- What a section does to a setting. -/
theorem Setting.get_applySection (h : Setting name key get)
    (hn : sections.lookup n = some fields) {v : Value} (hv : v.WellBuilt)
    (hsection : applySection fields s v = some s') :
    get s' = if n = name then
      (((sectionEntries fields v).lookup key).bind Value.string?).getD (get s) else get s := by
  obtain ⟨hkeys, hfields⟩ := distinct_section hn
  have hstep : ∀ e ∈ sectionEntries fields v, ∀ s s', applyEntry fields s e = some s' →
      get s' = if e.1 = key then (if n = name then e.2.string?.getD (get s) else get s)
        else get s := by
    intro e _ s s' he
    rw [h.get_applyEntry hn he, ite_and]
  rw [get_foldlM (fun v old => if n = name then v.string?.getD old else old) hstep
    (nodup_sectionEntries hkeys hv) (foldlM_sectionEntries hfields hsection)]
  split
  · exact getD_map_getD _ _ _
  · cases (sectionEntries fields v).lookup key with
    | none => rfl
    | some w => rfl

/-- **The text that a document gives a setting**, if it gives one. -/
def given? (es : Entries) (name key : Text) : Option Text :=
  (sections.lookup name).bind fun fields => (es.lookup name).bind fun v =>
    ((sectionEntries fields v).lookup key).bind Value.string?

/-- **The settings that a document describes**: the defaults where it gives
nothing. -/
def described (es : Entries) : Settings :=
  let d : Settings := {}
  { runtimePath := (given? es "compiler".toList "runtime_path".toList).getD d.runtimePath
    attributePrefix :=
      (given? es "compiler".toList "attribute_prefix".toList).getD d.attributePrefix
    functionName := (given? es "output".toList "function_name".toList).getD d.functionName }

/-- A setting is what the document gives it. -/
theorem Setting.get_foldlM_applyTop (h : Setting name key get) {es : Entries}
    (hes : es.WellBuilt) (htop : es.foldlM applyTop s = some s') :
    get s' = (given? es name key).getD (get s) := by
  obtain ⟨fields, set, hfields, hset⟩ := h.exists_set
  have hstep : ∀ e ∈ es, ∀ s s', applyTop s e = some s' →
      get s' = if e.1 = name then
        (((sectionEntries fields e.2).lookup key).bind Value.string?).getD (get s) else get s := by
    intro e he s s' happly
    rw [applyTop] at happly
    split at happly
    · next fs hfs =>
      rw [h.get_applySection hfs (hes.of_mem he) happly]
      split
      · next hname =>
        rw [hname, hfields] at hfs
        cases hfs
        rfl
      · rfl
    · next hnone =>
      rw [passOver] at happly
      split at happly
      · cases happly
        rw [if_neg]
        rintro rfl
        cases hnone.symm.trans hfields
      · cases happly
  rw [get_foldlM (fun v old =>
    (((sectionEntries fields v).lookup key).bind Value.string?).getD old) hstep hes.nodup htop,
    getD_map_getD, given?, hfields, Option.bind_some]

/-- **The settings of a settings file are those that it describes.** -/
theorem eq_described_of_ofSource? {source : Text} (h : ofSource? source = some s) :
    ∃ es, Entries.ofSource? source = some es ∧ s = described es := by
  obtain ⟨es, hes, htop⟩ := Option.bind_eq_some_iff.1 h
  have hbuilt := Entries.wellBuilt_of_ofSource? hes
  have hpath := setting_runtimePath.get_foldlM_applyTop hbuilt htop
  have hprefix := setting_attributePrefix.get_foldlM_applyTop hbuilt htop
  have hname := setting_functionName.get_foldlM_applyTop hbuilt htop
  obtain ⟨⟨runtimePath, attributePrefix⟩, functionName⟩ := s
  refine ⟨es, hes, ?_⟩
  simp only [described, Settings.mk.injEq, Template.Options.mk.injEq]
  exact ⟨⟨hpath, hprefix⟩, hname⟩

/-! ## The settings of a run -/

variable {path : Option Text} {o : Overrides} {t : FileTree} {loaded : Loaded}

/-- The document in the file at a path, if there is one. -/
def document? (t : FileTree) (path : Text) : Option Entries :=
  ((t.read path).toOption.bind Utf8.decode?).bind Entries.ofSource?

/-- The settings file of a run: the one that is asked for, or else the
nearest. -/
def settingsFile? (t : FileTree) (path : Option Text) : Option Text :=
  path.or ((candidates (FileTree.path t.workingDirectory)).find? fun p => (t.entryAt p).toBool)

/-- The document that the settings of a run are in; an empty one if there is
no settings file. -/
def settingsDocument? (t : FileTree) (path : Option Text) : Option Entries :=
  (settingsFile? t path).elim (some []) (document? t)

/-- A step that is followed by others leaves them its answer and its
files. -/
theorem run_bind_of_run {σ α β : Type} {x : StateM σ α} {f : α → StateM σ β} {s s' : σ} {a : α}
    (h : x.run s = (a, s')) : (x >>= f).run s = (f a).run s' := by
  rw [StateT.run_bind, h]
  rfl

theorem run_hasPath (t : FileTree) (file : Text) :
    (FileStore.hasPath file : StateM FileTree Bool).run t = ((t.entryAt file).toBool, t) := rfl

theorem run_read (t : FileTree) (file : Text) :
    (FileStore.read file : StateM FileTree _).run t = (t.read file, t) := rfl

/-- The nearest settings file is looked for, and no file is changed. -/
theorem run_discover (t : FileTree) :
    (discover : StateM FileTree (Option Text)).run t = (settingsFile? t none, t) := by
  have hfind : ∀ paths : List Text,
      (paths.findM? (FileStore.hasPath : Text → StateM FileTree Bool)).run t =
        (paths.find? fun p => (t.entryAt p).toBool, t) := by
    intro paths
    induction paths with
    | nil => rfl
    | cons p paths ih =>
      rw [List.findM?, run_bind_of_run (run_hasPath t p), List.find?_cons]
      cases (t.entryAt p).toBool with
      | true => rfl
      | false => exact ih
  exact hfind _

/-- What is prepared is what was there, with the settings of the run in
their place, and valid. -/
theorem prepare_eq_ok (h : s.prepare o = .ok s') : s' = s.override o ∧ s'.validate = .ok () := by
  rw [prepare] at h
  split at h
  · next hvalid =>
    cases h
    exact ⟨rfl, hvalid⟩
  · cases h

theorem exists_of_map {ε α β : Type} {f : α → β} {x : Except ε α} {b : β}
    (h : x.map f = .ok b) : ∃ a, x = .ok a ∧ f a = b := by
  cases x with
  | error e => cases h
  | ok a => exact ⟨a, rfl, Except.ok.inj h⟩

/-- Settings are loaded from the document in the file. -/
theorem exists_of_loadFrom {file : Text}
    (h : ((loadFrom file o : StateM FileTree _).run t).1 = .ok loaded) :
    loaded.path = some file ∧ ∃ es, document? t file = some es ∧
      (described es).prepare o = .ok loaded.settings := by
  rw [loadFrom, FileStore.readText, bind_assoc, run_bind_of_run (run_read t file)] at h
  cases hread : t.read file with
  | error e =>
    rw [hread] at h
    cases h
  | ok octets =>
    rw [hread] at h
    cases hsource : Utf8.decode? octets with
    | none =>
      simp only [hsource] at h
      cases h
    | some source =>
      simp only [hsource] at h
      have hmap : (ofSource o source).map (fun s => { settings := s, path := some file }) =
        .ok loaded := h
      rw [ofSource] at hmap
      split at hmap
      · next s hs =>
        obtain ⟨es, hes, rfl⟩ := eq_described_of_ofSource? hs
        obtain ⟨s', hs', rfl⟩ := exists_of_map hmap
        refine ⟨rfl, es, ?_, hs'⟩
        rw [document?, hread]
        exact (congrArg (Option.bind · _) hsource).trans hes
      · cases hmap

/-- **The settings of a run** are those given for the run, else those of the
settings file, else the defaults; and they are valid. -/
theorem exists_of_load (h : ((load path o : StateM FileTree _).run t).1 = .ok loaded) :
    loaded.path = settingsFile? t path ∧ ∃ es, settingsDocument? t path = some es ∧
      loaded.settings = (described es).override o ∧ loaded.settings.validate = .ok () := by
  cases path with
  | some file =>
    rw [load, run_bind_of_run (run_hasPath t file)] at h
    split at h
    · obtain ⟨hpath, es, hes, hs⟩ := exists_of_loadFrom h
      exact ⟨hpath, es, hes, prepare_eq_ok hs⟩
    · cases h
  | none =>
    rw [load, run_bind_of_run (run_discover t)] at h
    rw [settingsDocument?]
    cases hfile : settingsFile? t none with
    | some file =>
      rw [hfile] at h
      obtain ⟨hpath, es, hes, hs⟩ := exists_of_loadFrom h
      exact ⟨hpath, es, hes, prepare_eq_ok hs⟩
    | none =>
      rw [hfile] at h
      obtain ⟨s, hs, rfl⟩ := exists_of_map h
      exact ⟨rfl, [], rfl, prepare_eq_ok hs⟩

end Settings

end FormTemplate
