import FormTemplate.Proofs.Form.Directory
import FormTemplate.Proofs.Form.StoredPage
import FormTemplate.Proofs.Render.Trailer

/-!
# Hidden controls are shown once

A page renders a form by calls of the library, in any order: its start tag,
its end, its controls and their labels; and it may mark a control as shown
by other means. One law says what a call does to the marks
(`directory_after`): it marks what it shows. What is stored of the form is
marked alike (`Storage.Sound.after`). From the law follows for whole runs
that the ends of a form print each hidden control at most once, never after
it was shown otherwise, and forget none (`hidden_shown_once`).
-/

namespace FormTemplate

namespace Form

open Markup

/-! ## Calls -/

/-- **A call of the library** that renders something of a form, or marks
one of its controls. -/
inductive Call where
  /-- Prints the start tag, with attributes merged into it. -/
  | begins (m : Merge)
  /-- Prints the end. -/
  | ends
  /-- Prints the control at a path. -/
  | control (path : List Text) (parts : List Text)
  /-- Prints the label of the control at a path. -/
  | label (path : List Text) (parts : List Text)
  /-- Marks the control at a path. -/
  | marks (path : List Text)

namespace Call

/-- The path of the control that a call shows by itself, or says to be
shown. -/
def path? : Call → Option (List Text)
  | control path _ | marks path => some path
  | begins _ | ends | label _ _ => none

/-- Whether a call leaves the control at a path marked: it names the path,
or it is the end of the form and the control is hidden. -/
def shows (path : List Text) (c : Control) : Call → Bool
  | control q _ | marks q => q == path
  | ends => c.kind.isHidden
  | begins _ | label _ _ => false

theorem shows_eq_true {x : Call} {path : List Text} {c : Control} :
    x.shows path c = true ↔ x.path? = some path ∨ x = ends ∧ c.kind.isHidden = true := by
  cases x <;> simp [shows, path?]

end Call

/-- The form after a call. -/
def after (f : Form) : Call → Form
  | .begins _ | .label _ _ => f
  | .ends => f.afterEnd
  | .control path _ | .marks path =>
    f.modifyRoot (Container.modifyControl path (Control.mark true))

/-- What a call prints; a path that leads to no control prints nothing. -/
def printed (f : Form) : Call → Text
  | .begins m => f.renderBegin m
  | .ends => f.renderEnd
  | .control path parts =>
    ((f.root.controlAt path).toOption.map fun c => (c.render parts).source).getD []
  | .label path parts =>
    ((f.root.controlAt path).toOption.map fun c => (c.labelOf parts).source).getD []
  | .marks _ => []

/-- The form after calls, one after the other. -/
def afterAll (f : Form) (calls : List Call) : Form := calls.foldl after f

/-- The hidden controls that are not marked, at their paths. -/
def pendingAt (f : Form) : List (List Text × Control) :=
  f.root.directory.filter fun p => p.2.kind.isHidden && !p.2.rendered

/-- The paths of the hidden controls that are not marked. -/
def pending (f : Form) : List (List Text) := f.pendingAt.map Prod.fst

/-- The hidden controls that a call shows if it ends the form. -/
def shownByEnd (f : Form) : Call → List (List Text)
  | .ends => f.pending
  | .begins _ | .control _ _ | .label _ _ | .marks _ => []

/-- **The hidden controls that the ends of the form show** in the course of
calls, by their paths. -/
def shownByEnds (f : Form) : List Call → List (List Text)
  | [] => []
  | x :: calls => f.shownByEnd x ++ (f.after x).shownByEnds calls

variable {f : Form} {x : Call} {l r calls : List Call} {path : List Text} {c : Control}

theorem afterAll_append : f.afterAll (l ++ r) = (f.afterAll l).afterAll r :=
  List.foldl_append

theorem shownByEnds_append :
    f.shownByEnds (l ++ r) = f.shownByEnds l ++ (f.afterAll l).shownByEnds r := by
  induction l generalizing f with
  | nil => rfl
  | cons x l ih =>
    rw [List.cons_append, shownByEnds, shownByEnds, ih, List.append_assoc]
    rfl

/-! ## What a call does to the marks -/

theorem unmarked_after : (f.after x).unmarked = f.unmarked := by
  have hcontrol : ∀ path : List Text,
      (f.modifyRoot (Container.modifyControl path (Control.mark true))).unmarked = f.unmarked :=
    fun path => congrArg (fun root => { f with root })
      (Container.unmarked_modifyControl f.root path true)
  cases x with
  | begins m => rfl
  | label path parts => rfl
  | ends => exact unmarked_afterEnd f
  | control path parts => exact hcontrol path
  | marks path => exact hcontrol path

theorem addressed_after (h : f.root.Addressed) : (f.after x).root.Addressed :=
  h.of_unmarked (congrArg Form.root unmarked_after)

/-- **A call marks what it shows**, and changes nothing else. -/
theorem directory_after (h : f.root.Addressed) :
    (f.after x).root.directory =
      f.root.directory.map fun p => (p.1, p.2.mark (p.2.rendered || x.shows p.1 p.2)) := by
  have hname : ∀ c : Control, (c.mark true).name = c.name := fun _ => rfl
  have hsame : f.root.directory =
      f.root.directory.map fun p => (p.1, p.2.mark (p.2.rendered || false)) := by
    simp [Control.mark]
  have hcontrol : ∀ path : List Text,
      (f.root.modifyControl path (Control.mark true)).directory =
        f.root.directory.map fun p => (p.1, p.2.mark (p.2.rendered || path == p.1)) := by
    intro path
    rw [h.directory_modifyControl hname]
    refine List.map_congr_left fun p _ => ?_
    rw [Component.changeEntry]
    split
    · next hp => simp [hp]
    · next hp =>
      have hne : (path == p.1) = false := beq_eq_false_iff_ne.2 (Ne.symm hp)
      simp [hne, Control.mark]
  cases x with
  | begins m => exact hsame
  | label path parts => exact hsame
  | control path parts => exact hcontrol path
  | marks path => exact hcontrol path
  | ends =>
    refine (Container.directory_mapControls Control.name_afterEnd f.root).trans
      (List.map_congr_left fun p _ => ?_)
    rw [Control.afterEnd]
    cases hp : p.2.kind.isHidden <;> simp [hp, Call.shows, Control.mark]

theorem controlAt_after (h : f.root.Addressed) (hc : f.root.controlAt path = .ok c) :
    (f.after x).root.controlAt path = .ok (c.mark (c.rendered || x.shows path c)) := by
  rw [← (addressed_after h).mem_directory_iff, directory_after h]
  exact List.mem_map.2 ⟨(path, c), h.mem_directory_iff.2 hc, rfl⟩

/-- A control that is found after a call was there before. -/
theorem exists_controlAt_of_after (h : f.root.Addressed) {d : Control}
    (hd : (f.after x).root.controlAt path = .ok d) :
    ∃ c, f.root.controlAt path = .ok c ∧ d = c.mark (c.rendered || x.shows path c) := by
  rw [← (addressed_after h).mem_directory_iff, directory_after h] at hd
  obtain ⟨⟨q, c⟩, hc, heq⟩ := List.mem_map.1 hd
  cases heq
  exact ⟨c, h.mem_directory_iff.1 hc, rfl⟩

/-! ## What an end shows -/

theorem mem_pending (h : f.root.Addressed) :
    path ∈ f.pending ↔
      ∃ c, f.root.controlAt path = .ok c ∧ c.kind.isHidden = true ∧ c.rendered = false := by
  rw [pending, pendingAt, List.mem_map]
  constructor
  · rintro ⟨⟨q, c⟩, hmem, rfl⟩
    obtain ⟨hc, hpending⟩ := List.mem_filter.1 hmem
    exact ⟨c, h.mem_directory_iff.1 hc, by simpa using hpending⟩
  · rintro ⟨c, hc, hhidden, hrendered⟩
    refine ⟨(path, c), List.mem_filter.2 ⟨h.mem_directory_iff.2 hc, ?_⟩, rfl⟩
    simp [hhidden, hrendered]

theorem nodup_pending (h : f.root.Addressed) : f.pending.Nodup :=
  h.nodup_directory.sublist (List.filter_sublist.map Prod.fst)

/-- The pending controls are those whose markup an end prints. -/
theorem map_snd_pendingAt (f : Form) : f.pendingAt.map Prod.snd = f.pendingHidden := by
  rw [pendingHidden, ← Container.map_snd_directory, List.filter_map]
  rfl

/-- And each is found at its path. -/
theorem of_mem_pendingAt (h : f.root.Addressed) {p : List Text × Control} (hp : p ∈ f.pendingAt) :
    f.root.controlAt p.1 = .ok p.2 ∧ p.2.kind.isHidden = true := by
  obtain ⟨hmem, hpending⟩ := List.mem_filter.1 hp
  exact ⟨h.mem_directory_iff.1 hmem, (Bool.and_eq_true_iff.1 hpending).1⟩

/-- What is pending after a call was pending before, and the call did not
show it. -/
theorem of_mem_pending_after (h : f.root.Addressed) (hpath : path ∈ (f.after x).pending) :
    path ∈ f.pending ∧ path ∉ f.shownByEnd x ∧ x.path? ≠ some path := by
  obtain ⟨d, hd, hhidden, hrendered⟩ := (mem_pending (addressed_after h)).1 hpath
  obtain ⟨c, hc, rfl⟩ := exists_controlAt_of_after h hd
  obtain ⟨hunmarked, hshows⟩ : c.rendered = false ∧ x.shows path c = false := by
    simpa [Control.mark] using hrendered
  have hnot : ¬ (x.path? = some path ∨ x = .ends ∧ c.kind.isHidden = true) := by
    rw [← Call.shows_eq_true, hshows]
    exact Bool.false_ne_true
  refine ⟨(mem_pending h).2 ⟨c, hc, hhidden, hunmarked⟩, fun hend => ?_, fun hx => hnot (.inl hx)⟩
  cases x with
  | ends => exact hnot (.inr ⟨rfl, hhidden⟩)
  | begins | control | label | marks => cases hend

/-- Only what is pending is ever shown by an end. -/
theorem mem_pending_of_mem_shownByEnds (h : f.root.Addressed) (hpath : path ∈ f.shownByEnds calls) :
    path ∈ f.pending := by
  induction calls generalizing f with
  | nil => cases hpath
  | cons x calls ih =>
    rcases List.mem_append.1 hpath with hend | hrest
    · cases x with
      | ends => exact hend
      | begins | control | label | marks => cases hend
    · exact (of_mem_pending_after h (ih (addressed_after h) hrest)).1

/-- **No hidden control is shown twice by ends.** -/
theorem nodup_shownByEnds (h : f.root.Addressed) : (f.shownByEnds calls).Nodup := by
  induction calls generalizing f with
  | nil => exact .nil
  | cons x calls ih =>
    rw [shownByEnds]
    refine List.Nodup.append ?_ (ih (addressed_after h)) fun path hend hrest => ?_
    · cases x with
      | ends => exact nodup_pending h
      | begins | control | label | marks => exact .nil
    · have hpending := mem_pending_of_mem_shownByEnds (addressed_after h) hrest
      exact (of_mem_pending_after h hpending).2.1 hend

/-- **A pending control does not stay so to the next end**: that end shows
it, if no call did before. -/
theorem mem_shownByEnds_of_pending (h : f.root.Addressed) (hpath : path ∈ f.pending) :
    path ∈ f.shownByEnds (l ++ [.ends]) ∨ ∃ x ∈ l, x.path? = some path := by
  induction l generalizing f with
  | nil => exact .inl (List.mem_append_left _ hpath)
  | cons x l ih =>
    obtain ⟨c, hc, hhidden, hrendered⟩ := (mem_pending h).1 hpath
    by_cases hshows : x.shows path c = true
    · rcases Call.shows_eq_true.1 hshows with hx | ⟨rfl, -⟩
      · exact .inr ⟨x, List.mem_cons_self, hx⟩
      · exact .inl (List.mem_append_left _ hpath)
    · have hafter : path ∈ (f.after x).pending :=
        (mem_pending (addressed_after h)).2
          ⟨_, controlAt_after h hc, hhidden, by simp [Control.mark, hrendered, hshows]⟩
      rcases ih (addressed_after h) hafter with hmem | ⟨y, hy, hypath⟩
      · exact .inl (List.mem_append_right _ hmem)
      · exact .inr ⟨y, List.mem_cons_of_mem x hy, hypath⟩

/-- A second end finds nothing left to do. -/
theorem afterEnd_afterEnd : f.afterEnd.afterEnd = f.afterEnd := by
  have hidem : Control.afterEnd ∘ Control.afterEnd = Control.afterEnd := by
    funext c
    cases hc : c.kind.isHidden <;> simp [Control.afterEnd, hc, Control.mark]
  rw [afterEnd, afterEnd, modifyRoot, modifyRoot, Container.mapControls, Container.mapControls,
    Component.mapAllControls_mapAllControls, hidem]

/-! ## What is stored -/

/-- What is stored of a form's root, after a call. -/
def Storage.after (s : Storage) : Call → Storage
  | .begins _ | .label _ _ => s
  | .ends => s.afterEnd
  | .control path _ | .marks path => s.modifyControl (Control.mark true) path

/-- What is stored after calls, one after the other. -/
def Storage.afterAll (s : Storage) (calls : List Call) : Storage := calls.foldl Storage.after s

/-- **The page sees what a call does to what is stored** as what it does to
the form. -/
theorem Storage.Sound.after {s : Storage} (h : s.Sound) (hs : s.toContainer = f.root) (x : Call) :
    (s.after x).Sound ∧ (s.after x).toContainer = (f.after x).root := by
  have hcontrol : ∀ path, (s.modifyControl (Control.mark true) path).Sound ∧
      (s.modifyControl (Control.mark true) path).toContainer =
        f.root.modifyControl path (Control.mark true) := by
    intro path
    rw [← hs]
    exact h.modifyControl (f := Control.mark true) (fun _ => rfl) path
  cases x with
  | begins m => exact ⟨h, hs⟩
  | label path parts => exact ⟨h, hs⟩
  | control path parts => exact hcontrol path
  | marks path => exact hcontrol path
  | ends =>
    refine ⟨h.mapControls Control.name_afterEnd, ?_⟩
    exact (Storage.toContainer_mapControls Control.afterEnd s).trans
      (congrArg (Container.mapControls Control.afterEnd) hs)

theorem Storage.Sound.afterAll {s : Storage} (h : s.Sound) (hs : s.toContainer = f.root) :
    (s.afterAll calls).toContainer = (f.afterAll calls).root := by
  induction calls generalizing f s with
  | nil => exact hs
  | cons x calls ih =>
    obtain ⟨hsound, hpage⟩ := h.after hs x
    exact ih hsound hpage

/-! ## Runs -/

theorem addressed_afterAll (h : f.root.Addressed) : (f.afterAll calls).root.Addressed := by
  induction calls generalizing f with
  | nil => exact h
  | cons x calls ih => exact ih (addressed_after h)

/-- A control keeps its path and its kind in a run. -/
theorem exists_controlAt_afterAll (h : f.root.Addressed) (hc : f.root.controlAt path = .ok c) :
    ∃ shown, (f.afterAll calls).root.controlAt path = .ok (c.mark shown) := by
  induction calls generalizing f c with
  | nil => exact ⟨c.rendered, hc⟩
  | cons x calls ih =>
    exact ih (c := c.mark (c.rendered || x.shows path c)) (addressed_after h)
      (controlAt_after h hc)

theorem afterAll_replicate_ends (n : Nat) :
    f.afterAll (List.replicate (n + 1) .ends) = f.afterEnd := by
  induction n generalizing f with
  | zero => rfl
  | succ n ih =>
    rw [List.replicate_succ]
    exact ih.trans afterEnd_afterEnd

/-- **How calls show the hidden controls of a form**, wherever the run of
calls is cut: `l` are the calls so far. -/
structure ShownOnce (f : Form) (calls : List Call) : Prop where
  /-- What an end shows is what it prints: the markup of those hidden controls
  and of no others, behind the parameters of the query and before what old
  browsers need. -/
  prints : ∀ l r, calls = l ++ .ends :: r → ∃ shown : List (List Text × Control),
    f.shownByEnds calls = f.shownByEnds l ++
      (shown.map Prod.fst ++ (f.afterAll (l ++ [.ends])).shownByEnds r) ∧
    (∀ p ∈ shown, (f.afterAll l).root.controlAt p.1 = .ok p.2 ∧ p.2.kind.isHidden = true) ∧
    (f.afterAll l).printed .ends =
      (f.afterAll l).ending (f.afterAll l).keptParameters (shown.map Prod.snd)
  /-- The ends show no hidden control twice. -/
  once : (f.shownByEnds calls).Nodup
  /-- The ends do not show a control that another call has shown. -/
  notAgain : ∀ l x r path, calls = l ++ x :: r → x.path? = some path →
    path ∉ (f.afterAll (l ++ [x])).shownByEnds r
  /-- Once a form has ended, every hidden control has been shown, and is
  marked. -/
  complete : ∀ l r path c, calls = l ++ .ends :: r → f.root.controlAt path = .ok c →
    c.kind.isHidden = true →
    (path ∈ f.shownByEnds (l ++ [.ends]) ∨ ∃ x ∈ l, x.path? = some path) ∧
    (f.afterAll (l ++ [.ends])).root.controlAt path = .ok (c.mark true)
  /-- A call that neither names a control nor ends the form, and the end if
  the control is not hidden, leave the control as it was. -/
  kept : ∀ l x r path c, calls = l ++ x :: r → (f.afterAll l).root.controlAt path = .ok c →
    x.path? ≠ some path → ¬ (x = .ends ∧ c.kind.isHidden = true) →
    (f.afterAll (l ++ [x])).root.controlAt path = .ok c
  /-- From the second end in a row on, all ends print the same. -/
  steady : ∀ l n r, calls = l ++ List.replicate (n + 2) .ends ++ r →
    (f.afterAll (l ++ List.replicate (n + 1) .ends)).printed .ends =
      (f.afterAll (l ++ [.ends])).printed .ends
  /-- The same is marked in what is stored, if the form was made there. -/
  stored : ∀ name as, f.root = (Container.root name).addAll as → ∀ l r, calls = l ++ r →
    (((Storage.root name).addAll as).afterAll l).toContainer = (f.afterAll l).root

/-- **Hidden controls are shown at most once by the ends of a form, and
never forgotten**, whatever the form and the calls. -/
theorem hidden_shown_once (h : f.root.Built) (calls : List Call) : f.ShownOnce calls := by
  have haddressed := h.addressed
  constructor
  case prints =>
    rintro l r rfl
    refine ⟨(f.afterAll l).pendingAt, ?_,
      fun p => of_mem_pendingAt (addressed_afterAll haddressed), ?_⟩
    · rw [shownByEnds_append, afterAll_append]
      rfl
    · rw [map_snd_pendingAt]
      exact renderEnd_eq_ending _
  case once => exact nodup_shownByEnds haddressed
  case notAgain =>
    rintro l x r path - hx hmem
    have hl : (f.afterAll l).root.Addressed := addressed_afterAll haddressed
    rw [afterAll_append] at hmem
    have hpending := mem_pending_of_mem_shownByEnds (addressed_after hl) hmem
    exact (of_mem_pending_after hl hpending).2.2 hx
  case complete =>
    rintro l r path c - hc hhidden
    have hfresh : c.rendered = false := by
      refine h.rendered_eq_false c ?_
      rw [← Container.map_snd_directory]
      exact List.mem_map_of_mem (haddressed.mem_directory_iff.2 hc)
    refine ⟨mem_shownByEnds_of_pending haddressed
      ((mem_pending haddressed).2 ⟨c, hc, hhidden, hfresh⟩), ?_⟩
    obtain ⟨shown, hshown⟩ : ∃ shown, (f.afterAll l).root.controlAt path = .ok (c.mark shown) :=
      exists_controlAt_afterAll haddressed hc
    rw [afterAll_append]
    refine (controlAt_after (x := .ends) (addressed_afterAll haddressed) hshown).trans ?_
    simp [Call.shows, Control.mark, hhidden]
  case kept =>
    rintro l x r path c - hc hx hend
    have hshows : x.shows path c = false := by
      rw [← Bool.not_eq_true, Call.shows_eq_true]
      simp [hx, hend]
    rw [afterAll_append]
    refine (controlAt_after (x := x) (addressed_afterAll haddressed) hc).trans ?_
    simp [hshows, Control.mark]
  case steady =>
    rintro l n r -
    rw [afterAll_append, afterAll_append, afterAll_replicate_ends]
    rfl
  case stored =>
    intro name as hroot l r _
    refine ((Storage.sound_empty name _).addAll as).afterAll ?_
    exact ((Storage.ordered_empty name _).toContainer_addAll as).trans hroot.symm

/-- A form with a hidden control in its root and another in a container. -/
def hiddenTwice : Form where
  root := (Container.root ['f']).addAll
    [.control ['t'] .hidden {}, .container ['m'] [.control ['s'] .hidden {}]]
  element := (Form.create ['f']).element

/-- The first end prints the hidden control that the page has not shown, and
the second prints none. -/
theorem hidden_shown_once_of_container :
    hiddenTwice.root.Built ∧
      hiddenTwice.ShownOnce [.control [['t']] [], .ends, .ends] ∧
      hiddenTwice.shownByEnds [.control [['t']] [], .ends, .ends] = [[['m'], ['s']]] ∧
      (hiddenTwice.afterAll [.control [['t']] []]).printed .ends =
        "<div><input type=\"hidden\" name=\"m[s]\" id=\"frm-f-m-s\" value=\"\">".toList ++
          legacyMarker ++ "</div>\n</form>\n".toList ∧
      (hiddenTwice.afterAll [.control [['t']] [], .ends]).printed .ends =
        "<div>".toList ++ legacyMarker ++ "</div>\n</form>\n".toList := by
  have hbuilt : hiddenTwice.root.Built := ⟨_, _, rfl⟩
  exact ⟨hbuilt, hidden_shown_once hbuilt _, by decide +kernel, by decide +kernel,
    by decide +kernel⟩

end Form

end FormTemplate
