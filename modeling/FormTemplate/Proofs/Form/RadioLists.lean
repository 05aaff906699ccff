import FormTemplate.Proofs.Form.Building
import FormTemplate.Proofs.Markup.Attributes

/-!
# Groups of buttons

A group is rendered by one walk over its choices. The walk carries a radio
along that it turns from choice to choice, and it ends early when a key picks
a choice. What a turn sets, the next turn sets again (`turn_turn`), so the
walk leaves nothing behind but the rules that it took off: a whole group shows
each button as it is shown alone, with the rules on the first one only
(`render_radioList`).
-/

namespace FormTemplate

namespace Form

open Markup

namespace Control

variable {c : Control} {radio base shown : Element} {caption : Option Text} {choice : Choice}

/-! ## One radio from choice to choice -/

/-- A turn sets three attributes. -/
theorem attributes_turn : (c.turn choice radio).attributes =
    ((radio.attributes.set "checked".toList (.flag (c.value == some choice.key))).set
      "value".toList (.text choice.key)).set "id".toList (.text (c.buttonId choice)) := rfl

/-- **What a turn sets, the next turn sets again**, in the same places. -/
theorem turn_turn (choice' : Choice) :
    c.turn choice' (c.turn choice radio) = c.turn choice' radio := by
  have hattributes : (c.turn choice' (c.turn choice radio)).attributes =
      (c.turn choice' radio).attributes := by
    have hcheckedValue : "checked".toList ≠ "value".toList := by decide
    have hcheckedId : "checked".toList ≠ "id".toList := by decide
    have hvalueId : "value".toList ≠ "id".toList := by decide
    simp only [attributes_turn]
    -- Each of the three is there already and moves to where it was set first.
    rw [Attributes.set_comm_of_mem (Attributes.mem_map_fst_set Attributes.mem_map_fst_set_self)
        hcheckedId,
      Attributes.set_comm_of_mem Attributes.mem_map_fst_set_self hcheckedValue,
      Attributes.set_set, Attributes.set_comm_of_mem Attributes.mem_map_fst_set_self hvalueId,
      Attributes.set_set, Attributes.set_set]
  exact congrArg (fun as => ({ radio with attributes := as } : Element)) hattributes

/-- A turn leaves the rules where they are. -/
theorem erase_turn : (c.turn choice radio).erase rulesAttribute.toList =
    c.turn choice (radio.erase rulesAttribute.toList) := by
  have hattributes : ((c.turn choice radio).erase rulesAttribute.toList).attributes =
      (c.turn choice (radio.erase rulesAttribute.toList)).attributes := by
    change (c.turn choice radio).attributes.erase _ = _
    rw [attributes_turn, Attributes.erase_set_of_ne (by decide),
      Attributes.erase_set_of_ne (by decide), Attributes.erase_set_of_ne (by decide)]
    rfl
  exact congrArg (fun as => ({ radio with attributes := as } : Element)) hattributes

/-! ## The walk -/

/-- **With a key** the walk finds the first choice of that key. -/
theorem walkChoices_some (key : Text) (choices : List Choice) :
    c.walkChoices (some key) caption radio shown choices =
      match choices.find? (·.key == key) with
      | some choice => c.radioItem (c.turn choice radio) caption choice
      | none => shown := by
  induction choices with
  | nil => rfl
  | cons choice choices ih =>
    rw [walkChoices]
    by_cases hkey : choice.key = key
    · rw [List.find?_cons_of_pos (by simpa using hkey)]
      simp [hkey]
    · rw [List.find?_cons_of_neg (by simpa using hkey), ← ih]
      simp [Ne.symm hkey]

/-- **Without a key** it shows every choice. The radio counts only for what a
turn does not set, so one that has been turned before shows the same. -/
theorem walkChoices_none (hbase : base.erase rulesAttribute.toList = base)
    (hturn : ∀ choice, c.turn choice radio = c.turn choice base) (choices : List Choice) :
    c.walkChoices none caption radio shown choices =
      { shown with contents := shown.contents ++
          choices.map fun choice =>
            radioLine (c.radioItem (c.turn choice base) caption choice) } := by
  induction choices generalizing radio shown with
  | nil => simp [walkChoices]
  | cons choice choices ih =>
    have hnext : ∀ choice', c.turn choice' ((c.turn choice radio).erase rulesAttribute.toList) =
        c.turn choice' base := by
      intro choice'
      rw [hturn, erase_turn, hbase, turn_turn]
    have hwalk : c.walkChoices none caption radio shown (choice :: choices) =
        c.walkChoices none caption ((c.turn choice radio).erase rulesAttribute.toList)
          (shown.push (radioLine (c.radioItem (c.turn choice radio) caption choice))) choices := rfl
    rw [hwalk, ih hnext, hturn]
    simp [Element.push]

/-! ## What a group shows -/

/-- The button of a choice, as it is shown alone. -/
def button (c : Control) (caption : Option Text) (choice : Choice) : Element :=
  c.radioItem (c.turn choice c.addressed) caption choice

/-- A button without the rules of its radio. -/
def dropRules (item : Element) : Element :=
  { item with contents := item.contents.modifyHead fun
    | .element name as contents => .element name (as.erase rulesAttribute.toList) contents
    | content => content }

theorem radioItem_eq : c.radioItem radio caption choice =
    { name := "label".toList, attributes := [("for".toList, .text (c.buttonId choice))],
      contents := [radio.toContent, .text (caption.getD choice.caption)] } := by
  rfl

theorem dropRules_radioItem : dropRules (c.radioItem radio caption choice) =
    c.radioItem (radio.erase rulesAttribute.toList) caption choice := by
  rfl

/-- A key picks a button, and what follows it may be its caption. -/
theorem radioGroup_cons (choices : List Choice) (key : Text) (captions : List Text) :
    c.radioGroup choices (key :: captions) =
      match choices.find? (·.key == key) with
      | some choice => c.button captions.head? choice
      | none => { name := [] } := by
  rw [radioGroup, List.head?_cons, walkChoices_some]
  cases captions <;> rfl

/-- A group as a whole is a wrapper around its buttons; the rules ride on the
first one. -/
theorem radioGroup_nil_cons (first : Choice) (others : List Choice) :
    c.radioGroup (first :: others) [] =
      { name := []
        contents := radioLine (c.button none first) ::
          others.map fun choice => radioLine (dropRules (c.button none choice)) } := by
  have hbase : (c.addressed.erase rulesAttribute.toList).erase rulesAttribute.toList =
      c.addressed.erase rulesAttribute.toList :=
    congrArg (fun as => ({ c.addressed with attributes := as } : Element)) Attributes.erase_erase
  have hturn : ∀ choice, c.turn choice ((c.turn first c.addressed).erase rulesAttribute.toList) =
      c.turn choice (c.addressed.erase rulesAttribute.toList) := by
    intro choice
    rw [erase_turn, turn_turn]
  have hwalk : c.radioGroup (first :: others) [] =
      c.walkChoices none none ((c.turn first c.addressed).erase rulesAttribute.toList)
        (({ name := [] } : Element).push (radioLine (c.button none first))) others := rfl
  rw [hwalk, walkChoices_none hbase hturn]
  simp only [button, dropRules_radioItem, erase_turn]
  rfl

theorem render_of_radioList {choices : List Choice} (texts : List Text)
    (h : c.kind = .radioList choices) : c.render texts = c.radioGroup choices texts := by
  rw [render, h]

/-- The buttons that a group shows: each as it is shown alone, but the later
ones without rules. -/
def buttons (c : Control) : List Choice → List Element
  | [] => []
  | first :: others =>
    c.render [first.key] :: others.map fun choice => dropRules (c.render [choice.key])

/-- **What the button of a choice is**: a label that points at the radio in
it, which is checked when the group has the value of the choice. -/
structure IsButton (c : Control) (choice : Choice) (radio item : Element) : Prop where
  /-- It is a label. -/
  name : item.name = "label".toList
  /-- The label points at the id of the choice. -/
  attributes : item.attributes = [("for".toList, .text (c.htmlId ++ '-' :: choice.key))]
  /-- In it are the radio and the caption of the choice. -/
  contents : item.contents = [radio.toContent, .text choice.caption]
  /-- The radio has the id that the label points at. -/
  id : radio.getText? "id".toList = some (c.htmlId ++ '-' :: choice.key)
  /-- It stands for the key of the choice. -/
  value : radio.getText? "value".toList = some choice.key
  /-- It is checked when the key is the value of the group. -/
  checked : radio.get? "checked".toList = some (.flag (decide (c.value = some choice.key)))

/-- The radio that was turned to a choice stands for it. -/
theorem isButton_radioItem : c.IsButton choice (c.turn choice radio)
    (c.radioItem (c.turn choice radio) none choice) where
  name := rfl
  attributes := rfl
  contents := rfl
  id := by
    rw [Element.getText?, Element.get?, attributes_turn, Attributes.get?_set, if_pos rfl]
    rfl
  value := by
    rw [Element.getText?, Element.get?, attributes_turn, Attributes.get?_set,
      if_neg (by decide), Attributes.get?_set, if_pos rfl]
    rfl
  checked := by
    rw [Element.get?, attributes_turn, Attributes.get?_set, if_neg (by decide),
      Attributes.get?_set, if_neg (by decide), Attributes.get?_set, if_pos rfl, beq_eq_decide]

/-- **Where keys are distinct, a key shows the button of its choice.** -/
theorem render_key {choices : List Choice} (hkind : c.kind = .radioList choices)
    (hkeys : (choices.map Choice.key).Nodup) (hchoice : choice ∈ choices) :
    c.render [choice.key] = c.button none choice := by
  have hfind : choices.find? (·.key == choice.key) = some choice :=
    (find?_name_eq_some hkeys).2 ⟨hchoice, rfl⟩
  rw [render_of_radioList _ hkind, radioGroup_cons, hfind]
  rfl

theorem source_wrapper (contents : List Content) :
    ({ name := [], contents := contents } : Element).source = Content.sources contents := by
  have hvoid : isVoidName [] = false := by decide
  simp [Element.source, Element.toContent, Content.source, startTag, endTag, hvoid]

theorem sources_map_radioLine (items : List Element) :
    Content.sources (items.map radioLine) =
      items.flatMap fun item => item.source ++ "<br>".toList := by
  induction items with
  | nil => rfl
  | cons item items ih =>
    rw [List.map_cons, List.flatMap_cons, ← ih]
    rfl

/-- **A group as a whole shows each of its buttons as it is shown alone**,
with a line break after each, and with the rules on the first one only. Each
is a label that points at its radio, the radio is checked when the group has
its value, and a key of no choice shows nothing. -/
theorem render_radioList {choices : List Choice} (hkind : c.kind = .radioList choices)
    (hkeys : (choices.map Choice.key).Nodup) :
    (c.render []).source =
        (c.buttons choices).flatMap (fun item => item.source ++ "<br>".toList) ∧
      (∀ choice ∈ choices, ∃ radio, c.IsButton choice radio (c.render [choice.key]) ∧
        c.IsButton choice (radio.erase rulesAttribute.toList)
          (dropRules (c.render [choice.key]))) ∧
      ∀ key ∉ choices.map Choice.key, ∀ captions, (c.render (key :: captions)).source = [] := by
  refine ⟨?_, fun choice hchoice => ?_, fun key hkey captions => ?_⟩
  · rw [render_of_radioList _ hkind]
    cases choices with
    | nil => exact source_wrapper []
    | cons first others =>
      have hothers : others.map (fun choice => radioLine (dropRules (c.button none choice))) =
          (others.map fun choice => dropRules (c.render [choice.key])).map radioLine := by
        rw [List.map_map]
        refine List.map_congr_left fun choice hchoice => ?_
        rw [Function.comp_apply, render_key hkind hkeys (List.mem_cons_of_mem first hchoice)]
      rw [radioGroup_nil_cons, source_wrapper, hothers,
        ← render_key hkind hkeys List.mem_cons_self, ← List.map_cons, sources_map_radioLine]
      rfl
  · refine ⟨c.turn choice c.addressed, ?_, ?_⟩
    · rw [render_key hkind hkeys hchoice]
      exact isButton_radioItem
    · rw [render_key hkind hkeys hchoice, button, dropRules_radioItem, erase_turn]
      exact isButton_radioItem
  · have hfind : choices.find? (·.key == key) = none := by
      refine List.find?_eq_none.2 fun choice hchoice hfound => hkey ?_
      exact List.mem_map.2 ⟨choice, hchoice, by simpa using hfound⟩
    rw [render_of_radioList _ hkind, radioGroup_cons, hfind]
    exact source_wrapper []

/-- A group of two sizes with rules. -/
def sizes : Control :=
  { create ['s'] (.radioList [⟨['s'], ['S']⟩, ⟨['l'], ['L']⟩]) ['s'] "frm-s".toList with
    value := some ['l'], rules := some "[]".toList }

/-- Its second button shows the rules alone, but not behind the first. -/
theorem render_radioList_of_rules :
    (sizes.render [['l']]).source =
      ("<label for=\"frm-s-l\"><input type=\"radio\" name=\"s\" id=\"frm-s-l\"" ++
        " data-nette-rules=\"[]\" checked value=\"l\">L</label>").toList ∧
    (sizes.render []).source = (sizes.render [['s']]).source ++
      ("<br><label for=\"frm-s-l\"><input type=\"radio\" name=\"s\" id=\"frm-s-l\"" ++
        " checked value=\"l\">L</label><br>").toList ∧
    (sizes.render [['m']]).source = [] := by
  have hkind : sizes.kind = .radioList [⟨['s'], ['S']⟩, ⟨['l'], ['L']⟩] := rfl
  obtain ⟨hall, -, hnone⟩ := render_radioList hkind (by decide)
  refine ⟨by decide +kernel, ?_, hnone ['m'] (by decide) []⟩
  rw [hall]
  decide +kernel

end Control

end Form

end FormTemplate
