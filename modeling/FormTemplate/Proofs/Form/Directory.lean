import FormTemplate.Proofs.Form.Building
import Mathlib.Data.List.Basic

/-!
# The controls of a form by their paths

The directory of a container lists its controls at any depth, in document
order, each with the path of names that leads to it. Two controls may print
alike, so a control is told from the others by its path. In a container
whose components are addressed the paths are distinct (`nodup_directory`)
and the directory lists what `controlAt` finds (`mem_directory_iff`); the
page name and the id of a control spell its path (`address_eq`); a change of
one control, or of all, is the same change in the directory
(`directory_modifyControl`, `directory_mapControls`).
-/

namespace FormTemplate

namespace Form

namespace Component

mutual

/-- The controls of a component with the paths that lead to them. -/
def directory : Component → List (List Text × Control)
  | control c => [([c.name], c)]
  | container name _ cs => (directoryAll cs).map fun p => (name :: p.1, p.2)

/-- The controls of components with the paths that lead to them. -/
def directoryAll : List Component → List (List Text × Control)
  | [] => []
  | c :: cs => directory c ++ directoryAll cs

end

theorem mem_directoryAll {p : List Text × Control} {cs : List Component} :
    p ∈ directoryAll cs ↔ ∃ c ∈ cs, p ∈ directory c := by
  induction cs with
  | nil => simp [directoryAll]
  | cons c cs ih => simp [directoryAll, ih]

mutual

/-- Forgetting the paths leaves the controls of the walk. -/
theorem map_snd_directory : ∀ c, (directory c).map Prod.snd = (walk c).filterMap control?
  | .control c => rfl
  | .container name naming cs => by
    rw [directory, List.map_map, walk, List.filterMap_cons_none rfl]
    exact map_snd_directoryAll cs

theorem map_snd_directoryAll :
    ∀ cs, (directoryAll cs).map Prod.snd = (walkAll cs).filterMap control?
  | [] => rfl
  | c :: cs => by
    rw [directoryAll, walkAll, List.map_append, List.filterMap_append, map_snd_directory c,
      map_snd_directoryAll cs]

end

/-- The paths through a component begin with its name. -/
theorem exists_of_mem_directory {c : Component} {p : List Text × Control}
    (h : p ∈ directory c) : ∃ path, p.1 = c.name :: path := by
  cases c with
  | control c =>
    rw [directory, List.mem_singleton] at h
    subst h
    exact ⟨[], rfl⟩
  | container name naming cs =>
    rw [directory] at h
    obtain ⟨q, -, rfl⟩ := List.mem_map.1 h
    exact ⟨q.1, rfl⟩

/-- No path is empty. -/
theorem ne_nil_of_mem_directoryAll {cs : List Component} {p : List Text × Control}
    (h : p ∈ directoryAll cs) : p.1 ≠ [] := by
  obtain ⟨c, -, hc⟩ := mem_directoryAll.1 h
  obtain ⟨path, hpath⟩ := exists_of_mem_directory hc
  simp [hpath]

/-- Paths through components of distinct names are distinct. -/
theorem nodup_directoryAll {cs : List Component} (distinct : (cs.map name).Nodup)
    (h : ∀ c ∈ cs, ((directory c).map Prod.fst).Nodup) :
    ((directoryAll cs).map Prod.fst).Nodup := by
  induction cs with
  | nil => exact .nil
  | cons c cs ih =>
    rw [List.map_cons, List.nodup_cons] at distinct
    rw [directoryAll, List.map_append]
    refine List.Nodup.append (h c List.mem_cons_self)
      (ih distinct.2 fun d hd => h d (List.mem_cons_of_mem c hd)) ?_
    -- A path on both sides begins with the name of `c` and with another.
    intro path hleft hright
    obtain ⟨p, hp, rfl⟩ := List.mem_map.1 hleft
    obtain ⟨q, hq, hqp⟩ := List.mem_map.1 hright
    obtain ⟨d, hd, hq⟩ := mem_directoryAll.1 hq
    obtain ⟨t, ht⟩ := exists_of_mem_directory hp
    obtain ⟨u, hu⟩ := exists_of_mem_directory hq
    have hname : d.name = c.name := (List.cons.inj (hu.symm.trans (hqp.trans ht))).1
    exact distinct.1 (hname ▸ List.mem_map_of_mem hd)

theorem Addressed.nodup_directory {n : Naming} {c : Component} (h : c.Addressed n) :
    ((directory c).map Prod.fst).Nodup := by
  induction h with
  | control htmlName htmlId => exact List.nodup_singleton _
  | @container n name cs distinct components ih =>
    have hmap : (directory (.container name (n.inside name) cs)).map Prod.fst =
        ((directoryAll cs).map Prod.fst).map (name :: ·) := by
      rw [directory, List.map_map, List.map_map]
      rfl
    rw [hmap]
    exact (nodup_directoryAll distinct ih).map (List.cons_injective (a := name))

/-- The names on the paths are those of components that the walk comes by. -/
theorem exists_of_mem_path {c : Component} {p : List Text × Control} (h : p ∈ directory c)
    {name : Text} (hname : name ∈ p.1) : ∃ d ∈ walk c, d.name = name := by
  match c with
  | .control c =>
    rw [directory, List.mem_singleton] at h
    rw [h, List.mem_singleton] at hname
    exact ⟨.control c, List.mem_singleton_self _, hname.symm⟩
  | .container outer naming cs =>
    rw [directory] at h
    obtain ⟨q, hq, rfl⟩ := List.mem_map.1 h
    rcases List.mem_cons.1 hname with rfl | hname
    · exact ⟨_, List.mem_cons_self, rfl⟩
    · obtain ⟨d, hd, hq⟩ := mem_directoryAll.1 hq
      obtain ⟨e, he, hename⟩ := exists_of_mem_path hq hname
      rw [walk, walkAll_eq]
      exact ⟨e, List.mem_cons_of_mem _ (List.mem_flatMap.2 ⟨d, hd, he⟩), hename⟩

/-! ## Names and ids in the page -/

/-- What names put behind the first name of a path, in a page name. -/
def bracketed (path : List Text) : Text := path.flatMap fun name => '[' :: name ++ [']']

/-- What names of a path put behind the id of the form. -/
def dashed (path : List Text) : Text := path.flatMap fun name => '-' :: name

/-- **The page name of a control spells its path, and so does its id.** -/
theorem Addressed.address_eq {n : Naming} {c : Component} (h : c.Addressed n)
    {p : List Text × Control} (hp : p ∈ directory c) :
    ∃ path, p.1 = c.name :: path ∧ p.2.htmlName = n.htmlName c.name ++ bracketed path ∧
      p.2.htmlId = n.id ++ dashed p.1 := by
  induction h generalizing p with
  | control htmlName htmlId =>
    rw [directory, List.mem_singleton] at hp
    subst hp
    exact ⟨[], rfl, by rw [htmlName, bracketed, List.flatMap_nil, List.append_nil]; rfl,
      by rw [htmlId, dashed, List.flatMap_singleton]; rfl⟩
  | @container n name cs distinct components ih =>
    rw [directory] at hp
    obtain ⟨q, hq, rfl⟩ := List.mem_map.1 hp
    obtain ⟨d, hd, hq⟩ := mem_directoryAll.1 hq
    obtain ⟨path, hpath, hname, hid⟩ := ih d hd hq
    have hinside : (n.inside name).htmlName d.name = n.htmlName name ++ ('[' :: d.name ++ [']']) :=
      List.append_assoc ..
    refine ⟨d.name :: path, by rw [hpath]; rfl, ?_, ?_⟩
    · rw [hname, hinside, List.append_assoc]
      rfl
    · rw [hid, dashed, dashed, List.flatMap_cons, ← List.append_assoc]
      rfl

/-! ## Changing controls -/

mutual

/-- A change of all controls that keeps their names keeps the paths. -/
theorem directory_mapControls {f : Control → Control} (hf : ∀ c, (f c).name = c.name) :
    ∀ c, directory (mapControls f c) = (directory c).map fun p => (p.1, f p.2)
  | .control c => by rw [mapControls, directory, directory, hf]; rfl
  | .container name naming cs => by
    rw [mapControls, directory, directory, directoryAll_mapAllControls hf cs, List.map_map,
      List.map_map]
    rfl

theorem directoryAll_mapAllControls {f : Control → Control} (hf : ∀ c, (f c).name = c.name) :
    ∀ cs, directoryAll (mapAllControls f cs) = (directoryAll cs).map fun p => (p.1, f p.2)
  | [] => rfl
  | c :: cs => by
    rw [mapAllControls, directoryAll, directoryAll, directory_mapControls hf c,
      directoryAll_mapAllControls hf cs, List.map_append]

end

/-- The entry of a directory after a change of the control at a path. -/
def changeEntry (path : List Text) (f : Control → Control) (p : List Text × Control) :
    List Text × Control :=
  if p.1 = path then (p.1, f p.2) else p

/-- A change at a path that no entry has changes nothing. -/
theorem map_changeEntry_of_forall_ne {path : List Text} {f : Control → Control}
    {l : List (List Text × Control)} (h : ∀ p ∈ l, p.1 ≠ path) :
    l.map (changeEntry path f) = l := by
  refine (List.map_congr_left fun p hp => ?_).trans (List.map_id l)
  rw [changeEntry, if_neg (h p hp)]
  rfl

/-- Changing the first component of a name changes the entries below it. -/
theorem directoryAll_modifyFirst {name : Text} {path : List Text} {f : Control → Control}
    {g : Component → Component} {cs : List Component} (distinct : (cs.map Component.name).Nodup)
    (hg : ∀ c ∈ cs, c.name = name →
      directory (g c) = (directory c).map (changeEntry (name :: path) f)) :
    directoryAll (modifyFirst name g cs) =
      (directoryAll cs).map (changeEntry (name :: path) f) := by
  have hother : ∀ c : Component, c.name ≠ name →
      (directory c).map (changeEntry (name :: path) f) = directory c := by
    refine fun c hc => map_changeEntry_of_forall_ne fun p hp h => ?_
    obtain ⟨t, ht⟩ := exists_of_mem_directory hp
    exact hc (List.cons.inj (ht.symm.trans h)).1
  induction cs with
  | nil => rfl
  | cons c cs ih =>
    rw [List.map_cons, List.nodup_cons] at distinct
    rw [modifyFirst]
    split
    · next hname =>
      rw [directoryAll, directoryAll, List.map_append, hg c List.mem_cons_self hname]
      refine congrArg _ (map_changeEntry_of_forall_ne fun p hp h => ?_).symm
      obtain ⟨d, hd, hp⟩ := mem_directoryAll.1 hp
      obtain ⟨t, ht⟩ := exists_of_mem_directory hp
      have hdname : d.name = name := (List.cons.inj (ht.symm.trans h)).1
      exact distinct.1 (hname.trans hdname.symm ▸ List.mem_map_of_mem hd)
    · next hname =>
      rw [directoryAll, directoryAll, List.map_append, hother c hname]
      exact congrArg _ (ih distinct.2 fun d hd => hg d (List.mem_cons_of_mem c hd))

/-- **A change of the control at a path changes the entry of that path.** -/
theorem directoryAll_modifyAt {f : Control → Control} (hf : ∀ c, (f c).name = c.name)
    (path : List Text) {n : Naming} {cs : List Component}
    (distinct : (cs.map Component.name).Nodup) (components : ∀ c ∈ cs, c.Addressed n) :
    directoryAll (modifyAt f path cs) = (directoryAll cs).map (changeEntry path f) := by
  induction path generalizing n cs with
  | nil =>
    rw [modifyAt]
    exact (map_changeEntry_of_forall_ne fun p hp => ne_nil_of_mem_directoryAll hp).symm
  | cons name path ih =>
    cases path with
    | nil =>
      rw [modifyAt]
      refine directoryAll_modifyFirst distinct fun c _ hname => ?_
      cases c with
      | control c =>
        rw [Component.name] at hname
        simp [directory, changeEntry, hf, hname]
      | container m naming ds =>
        refine (map_changeEntry_of_forall_ne fun p hp h => ?_).symm
        rw [directory] at hp
        obtain ⟨q, hq, rfl⟩ := List.mem_map.1 hp
        exact ne_nil_of_mem_directoryAll hq (List.cons.inj h).2
    | cons next path =>
      rw [modifyAt]
      · refine directoryAll_modifyFirst distinct fun c hc hname => ?_
        cases components c hc with
        | control htmlName htmlId => simp [directory, changeEntry]
        | @container _ m ds inner hds =>
          rw [Component.name] at hname
          rw [directory, directory, ih inner hds, List.map_map, List.map_map]
          refine List.map_congr_left fun p _ => ?_
          simp only [Function.comp_apply, changeEntry, hname, List.cons.injEq, true_and]
          split <;> rfl
      · simp

end Component

namespace Container

/-- **The controls of a container at any depth**, in document order, with
the paths that lead to them. -/
def directory (c : Container) : List (List Text × Control) :=
  Component.directoryAll c.components

theorem map_snd_directory (c : Container) : c.directory.map Prod.snd = c.controls true :=
  Component.map_snd_directoryAll c.components

/-- **No two controls have the same path.** -/
theorem Addressed.nodup_directory {c : Container} (h : c.Addressed) :
    (c.directory.map Prod.fst).Nodup :=
  Component.nodup_directoryAll h.distinct fun d hd => (h.components d hd).nodup_directory

/-! ## Looking up -/

/-- A name finds the component that has it. -/
theorem Addressed.component?_eq_some {c : Container} (h : c.Addressed) {name : Text}
    {d : Component} : c.component? name = some d ↔ d ∈ c.components ∧ d.name = name :=
  find?_name_eq_some h.distinct

theorem control_eq_ok {c : Container} {name : Text} {d : Control} :
    c.control name = .ok d ↔ c.component? name = some (.control d) := by
  rw [control]
  cases c.component? name with
  | none => simp
  | some e => cases e <;> simp

theorem container_eq_ok {c d : Container} {name : Text} :
    c.container name = .ok d ↔ c.component? name = some d.toComponent := by
  rw [container]
  cases c.component? name with
  | none => simp
  | some e =>
    cases e with
    | control e => simp [toComponent]
    | container name naming cs => cases d; simp [toComponent]

/-- A path leads to a control of the container itself, or into a container
in it. -/
theorem controlAt_cons_eq_ok {c : Container} {name : Text} {path : List Text} {d : Control} :
    c.controlAt (name :: path) = .ok d ↔
      (path = [] ∧ c.control name = .ok d) ∨
        ∃ e, c.container name = .ok e ∧ e.controlAt path = .ok d := by
  cases path with
  | nil => simp [controlAt]
  | cons next path =>
    rw [controlAt]
    · cases c.container name <;> simp
    · simp

/-- A container in one whose components are addressed is one too. -/
theorem Addressed.container {c d : Container} (h : c.Addressed) {name : Text}
    (hd : c.container name = .ok d) : d.Addressed ∧ d.name = name := by
  obtain ⟨hmem, hname⟩ := h.component?_eq_some.1 (container_eq_ok.1 hd)
  refine ⟨?_, hname⟩
  obtain ⟨dname, naming, components⟩ := d
  have haddressed : Component.Addressed c.naming (.container dname naming components) :=
    h.components _ hmem
  cases haddressed with
  | container distinct hcomponents => exact ⟨distinct, hcomponents⟩

/-- **The directory lists what the paths lead to.** -/
theorem Addressed.mem_directory_iff {c : Container} (h : c.Addressed) {path : List Text}
    {d : Control} : (path, d) ∈ c.directory ↔ c.controlAt path = .ok d := by
  induction path generalizing c with
  | nil =>
    refine iff_of_false (fun hmem => Component.ne_nil_of_mem_directoryAll hmem rfl) ?_
    simp [controlAt]
  | cons name path ih =>
    rw [controlAt_cons_eq_ok, directory, Component.mem_directoryAll]
    constructor
    · rintro ⟨e, he, hmem⟩
      obtain ⟨t, ht⟩ := Component.exists_of_mem_directory hmem
      obtain rfl : name = e.name := (List.cons.inj ht).1
      cases e with
      | control e =>
        rw [Component.directory, List.mem_singleton] at hmem
        cases hmem
        exact .inl ⟨rfl, control_eq_ok.2 (h.component?_eq_some.2 ⟨he, rfl⟩)⟩
      | container name naming cs =>
        have hcontainer : c.container name = .ok ⟨name, naming, cs⟩ :=
          container_eq_ok.2 (h.component?_eq_some.2 ⟨he, rfl⟩)
        refine .inr ⟨_, hcontainer, (ih (h.container hcontainer).1).1 ?_⟩
        rw [Component.directory] at hmem
        obtain ⟨q, hq, heq⟩ := List.mem_map.1 hmem
        cases heq
        exact hq
    · rintro (⟨rfl, hd⟩ | ⟨e, he, hd⟩)
      · obtain ⟨hmem, hname⟩ := h.component?_eq_some.1 (control_eq_ok.1 hd)
        refine ⟨_, hmem, ?_⟩
        rw [Component.directory, List.mem_singleton, ← hname]
        rfl
      · obtain ⟨hmem, hname⟩ := h.component?_eq_some.1 (container_eq_ok.1 he)
        refine ⟨_, hmem, ?_⟩
        rw [toComponent, Component.directory, List.mem_map]
        exact ⟨(path, d), (ih (h.container he).1).2 hd, by rw [(h.container he).2]⟩

/-- **The controls are those that paths lead to.** -/
theorem Addressed.mem_controls_iff {c : Container} (h : c.Addressed) {d : Control} :
    d ∈ c.controls true ↔ ∃ path, c.controlAt path = .ok d := by
  rw [← map_snd_directory, List.mem_map]
  constructor
  · rintro ⟨⟨path, d⟩, hp, rfl⟩
    exact ⟨path, h.mem_directory_iff.1 hp⟩
  · rintro ⟨path, hd⟩
    exact ⟨(path, d), h.mem_directory_iff.2 hd, rfl⟩

/-- **The page name of a control of a form spells the names that lead to
it**, all but the first in brackets. -/
theorem Addressed.exists_htmlName_eq {c : Container} (h : c.Addressed)
    (hroot : ∀ name, c.naming.htmlName name = name) {p : List Text × Control}
    (hp : p ∈ c.directory) :
    ∃ name path, p.1 = name :: path ∧ p.2.htmlName = name ++ Component.bracketed path := by
  obtain ⟨e, he, hp⟩ := Component.mem_directoryAll.1 hp
  obtain ⟨path, hpath, hname, -⟩ := (h.components e he).address_eq hp
  exact ⟨e.name, path, hpath, hname.trans (by rw [hroot])⟩

theorem Addressed.htmlName_controlAt {c : Container} (h : c.Addressed)
    (hroot : ∀ name, c.naming.htmlName name = name) {name : Text} {path : List Text} {d : Control}
    (hd : c.controlAt (name :: path) = .ok d) :
    d.htmlName = name ++ Component.bracketed path := by
  obtain ⟨_, _, hpath, hname⟩ := h.exists_htmlName_eq hroot (h.mem_directory_iff.2 hd)
  cases hpath
  exact hname

/-- And its id spells them all, behind that of the form. -/
theorem Addressed.htmlId_controlAt {c : Container} (h : c.Addressed) {path : List Text}
    {d : Control} (hd : c.controlAt path = .ok d) :
    d.htmlId = c.naming.id ++ Component.dashed path := by
  obtain ⟨e, he, hmem⟩ := Component.mem_directoryAll.1 (h.mem_directory_iff.2 hd)
  obtain ⟨-, -, -, hid⟩ := (h.components e he).address_eq hmem
  exact hid

/-! ## Changing controls -/

theorem directory_mapControls {f : Control → Control} (hf : ∀ c, (f c).name = c.name)
    (c : Container) :
    (c.mapControls f).directory = c.directory.map fun p => (p.1, f p.2) :=
  Component.directoryAll_mapAllControls hf c.components

theorem Addressed.directory_modifyControl {c : Container} (h : c.Addressed)
    {f : Control → Control} (hf : ∀ c, (f c).name = c.name) (path : List Text) :
    (c.modifyControl path f).directory = c.directory.map (Component.changeEntry path f) :=
  Component.directoryAll_modifyAt hf path h.distinct h.components

end Container

end Form

end FormTemplate
