import FormTemplate.Proofs.Render.Parameters
import FormTemplate.Proofs.Render.StartTag

/-!
# Attributes that override a form's own

The page may merge a method and an action into the start tag of a form. The
tag shows what it is given and the form's own for the rest
(`tagText?_action_cases`). Whether a query is left out of the action and
carried by the end goes by the method and the action of the form alone: the
query is left out before anything is merged, and the end is not told what was
merged. So the two agree on a form that submits with GET itself and whose
action is not overridden (`begin_and_end_go_by_own_method`), and a GET that is
merged into the tag of another form loses the query of its action
(`not_agree_of_given_method`).
-/

namespace FormTemplate

namespace Form

open Markup

variable {f : Form} {m : Merge} {shown : Text}

/-- The attributes in the start tag of a form. -/
def tagAttributes (f : Form) (m : Merge) : Attributes :=
  if f.isGet then f.mergedAttributes m else f.element.attributes.merge m

theorem renderBegin_eq (f : Form) (m : Merge) :
    f.renderBegin m = startTag f.element.name (f.tagAttributes m) := by
  rw [tagAttributes]
  split
  · next hget => exact renderBegin_of_isGet hget
  · next hget =>
    rw [renderBegin, if_neg hget]
    rfl

/-- The text of an attribute in the start tag. -/
def tagText? (f : Form) (m : Merge) (name : Text) : Option Text :=
  ((f.tagAttributes m).get? name).bind AttributeValue.text?

/-- The action that a merge gives the tag, if it gives a text. -/
def givenAction? (m : Merge) : Option Text :=
  (Attributes.given? "action".toList m).bind (·.bind AttributeValue.text?)

/-- The action that the tag would show if no query were left out. -/
def usedAction (f : Form) (m : Merge) : Text := (givenAction? m).getD f.action

/-- A form that submits with GET itself and shows its own action. -/
def ShowsOwnQuery (f : Form) (m : Merge) : Prop := f.isGet = true ∧ givenAction? m = none

/-- **Begin and end agree**: where the tag shows GET, its action has no query,
and the end carries what the controls do not submit of the query that the
action would have had. -/
def Agree (f : Form) (m : Merge) : Prop :=
  ∀ method, f.tagText? m "method".toList = some method →
    Text.sameIgnoringCase method "get".toList = true →
    (∀ shown, f.tagText? m "action".toList = some shown → Query.of? shown = none) ∧
      ∀ query, Query.of? (f.usedAction m) = some query → ∀ p ∈ Query.parse query,
        p.1 ∉ f.submittedNames → p ∈ f.keptParameters

/-! ## What the tag shows -/

/-- The method in the tag is the one that is given, or else the form's
own. -/
theorem get?_tagAttributes_method (f : Form) (m : Merge) :
    (f.tagAttributes m).get? "method".toList =
      (Attributes.given? "method".toList m).getD (f.element.get? "method".toList) := by
  have hne : "method".toList ≠ "action".toList := by decide
  rw [tagAttributes]
  split
  · rw [mergedAttributes, Attributes.get?_merge_eq, Attributes.get?_set, if_neg hne]
    rfl
  · exact Attributes.get?_merge_eq ..

theorem get?_tagAttributes_action (f : Form) (m : Merge) :
    (f.tagAttributes m).get? "action".toList =
      (Attributes.given? "action".toList m).getD
        (if f.isGet then some (.text (Query.strip f.action))
          else f.element.get? "action".toList) := by
  rw [tagAttributes]
  split
  · rw [mergedAttributes, Attributes.get?_merge_eq, Attributes.get?_set, if_pos rfl]
  · exact Attributes.get?_merge_eq ..

/-- **The action in the tag** is the one that is used, or lacks its query. -/
theorem tagText?_action_cases (h : f.tagText? m "action".toList = some shown) :
    (¬ f.ShowsOwnQuery m ∧ shown = f.usedAction m) ∨
      (f.ShowsOwnQuery m ∧ shown = Query.strip (f.usedAction m)) := by
  rw [tagText?, get?_tagAttributes_action] at h
  rw [ShowsOwnQuery, usedAction, givenAction?]
  cases hgiven : Attributes.given? "action".toList m with
  | some value =>
    -- Only a text that is given is a text in the tag.
    rw [hgiven, Option.getD_some] at h
    have hnone : (some value).bind (·.bind AttributeValue.text?) = some shown := h
    rw [hnone]
    exact .inl ⟨by simp, rfl⟩
  | none =>
    rw [hgiven, Option.getD_none] at h
    cases hget : f.isGet with
    | true =>
      rw [hget] at h
      exact .inr ⟨⟨rfl, rfl⟩, (Option.some.inj h).symm⟩
    | false =>
      rw [hget] at h
      have haction : f.element.getText? "action".toList = some shown := h
      refine .inl ⟨by simp, ?_⟩
      rw [Option.bind_none, Option.getD_none, action, haction, Option.getD_some]

/-! ## What the end carries -/

theorem keptParameters_of_not_isGet (h : f.isGet = false) : f.keptParameters = [] := by
  rw [keptParameters, h]
  rfl

/-- Only parameters of the form's own action are carried. -/
theorem mem_parameters_of_mem_keptParameters {p : Text × Text} (hp : p ∈ f.keptParameters) :
    p ∈ f.parameters := by
  cases hget : f.isGet with
  | true =>
    rw [keptParameters_of_isGet hget] at hp
    exact List.mem_of_mem_filter hp
  | false =>
    rw [keptParameters_of_not_isGet hget] at hp
    cases hp

/-- What no control submits is carried, unless a container of the root has
its name. -/
theorem mem_keptParameters_of_not_mem (hbuilt : f.root.unmarked.Built) (hget : f.isGet = true)
    {p : Text × Text} (hp : p ∈ f.parameters) (hfree : p.1 ∉ f.submittedNames)
    (hcontainer : ∀ d, f.root.container p.1 ≠ .ok d) : p ∈ f.keptParameters := by
  have haddressed : f.root.Addressed := Container.addressed_unmarked.1 hbuilt.addressed
  rw [mem_keptParameters hget hp, ← Bool.not_eq_true, contains_eq_true haddressed hbuilt.htmlName]
  rintro (⟨c, hc, hname⟩ | ⟨d, hd⟩)
  · exact hfree ((mem_submittedNames haddressed).2 ⟨[p.1], c, hc, hname⟩)
  · exact hcontainer d hd

/-- **The tag shows what it is given, and the query goes by the form's own
method and action.** The method in the tag is the one given, or the form's
own. Where a form submits with GET itself and no action is given, the action
in the tag has no query, and the end carries every parameter of the query
that no control submits and no container of the root is named for. An action
in the tag is shown as it is in all other cases. Besides the parameters that
it carries the end prints the hidden controls that are not marked and what
old browsers need; the parameters are those of the form's own action only,
and there are none if the form does not submit with GET itself. -/
theorem begin_and_end_go_by_own_method (hbuilt : f.root.unmarked.Built) (m : Merge) :
    f.renderBegin m = startTag f.element.name (f.tagAttributes m) ∧
      (f.tagAttributes m).get? "method".toList =
        (Attributes.given? "method".toList m).getD (f.element.get? "method".toList) ∧
      (∀ shown, f.tagText? m "action".toList = some shown →
        (Query.of? shown = none ↔ f.ShowsOwnQuery m ∨ Query.of? (f.usedAction m) = none) ∧
        (¬ f.ShowsOwnQuery m → shown = f.usedAction m)) ∧
      ∃ kept : List (Text × Text), f.renderEnd = f.ending kept f.pendingHidden ∧
        (f.ShowsOwnQuery m → ∀ query, Query.of? (f.usedAction m) = some query →
          ∀ p ∈ Query.parse query, p.1 ∉ f.submittedNames →
            (∀ d, f.root.container p.1 ≠ .ok d) → p ∈ kept) ∧
        (∀ p ∈ kept, p ∈ f.parameters) ∧ (f.isGet = false → kept = []) := by
  refine ⟨renderBegin_eq f m, get?_tagAttributes_method f m, fun shown hshown => ?_,
    f.keptParameters, renderEnd_eq_ending f, ?_, fun p => mem_parameters_of_mem_keptParameters,
    keptParameters_of_not_isGet⟩
  · rcases tagText?_action_cases hshown with ⟨hother, rfl⟩ | ⟨hown, rfl⟩
    · exact ⟨by rw [or_iff_right hother], fun _ => rfl⟩
    · exact ⟨iff_of_true (Query.of?_strip _) (.inl hown), fun hother => absurd hown hother⟩
  · rintro ⟨hget, hgiven⟩ query hquery p hp hfree hcontainer
    rw [usedAction, hgiven, Option.getD_none] at hquery
    have hparameter : p ∈ f.parameters := by
      rw [parameters, hquery]
      exact hp
    exact mem_keptParameters_of_not_mem hbuilt hget hparameter hfree hcontainer

/-- A form that searches, with an action that a search was made with. -/
def searchedForm : Form where
  root := (Container.root ['f']).addAll [.control ['q'] .text {}]
  element := (((Form.create ['f']).setMethod "get".toList).setAction "/s?q=1&x=2".toList).element

/-- A method that is given in capitals is shown, and the query is carried as
the form's own method has it. -/
theorem begin_and_end_go_by_own_method_of_search :
    searchedForm.root.unmarked.Built ∧
      searchedForm.ShowsOwnQuery [("method".toList, some (.text "GET".toList))] ∧
      searchedForm.renderBegin [("method".toList, some (.text "GET".toList))] =
        "<form action=\"/s\" method=\"GET\">".toList ∧
      ∃ kept : List (Text × Text),
        searchedForm.renderEnd = searchedForm.ending kept searchedForm.pendingHidden ∧
        ("x".toList, "2".toList) ∈ kept := by
  have hbuilt : searchedForm.root.unmarked.Built := ⟨_, _, rfl⟩
  have hown : searchedForm.ShowsOwnQuery [("method".toList, some (.text "GET".toList))] :=
    ⟨by decide +kernel, by decide +kernel⟩
  obtain ⟨hbegin, -, -, kept, hend, hcarried, -, -⟩ :=
    begin_and_end_go_by_own_method hbuilt [("method".toList, some (.text "GET".toList))]
  refine ⟨hbuilt, hown, ?_, kept, hend, ?_⟩
  · rw [hbegin]
    decide +kernel
  · refine hcarried hown "q=1&x=2".toList (by decide +kernel) _ (by decide +kernel)
      (by decide +kernel) fun d hd => ?_
    have hnone : (searchedForm.root.container "x".toList).toOption.isSome = false := by
      decide +kernel
    rw [hd] at hnone
    cases hnone

/-- A form that posts to an action with a query. -/
def postingForm : Form := (Form.create ['f']).setAction "/s?x=1".toList

/-- **A GET that is merged into the tag of a form that posts** keeps the query
in the action, and the end does not carry it. So does an action that is merged
into the tag of a form that searches, and the end carries the query of the
form's own action. -/
theorem not_agree_of_given_method :
    (¬ postingForm.Agree [("method".toList, some (.text "get".toList))] ∧
      postingForm.renderBegin [("method".toList, some (.text "get".toList))] =
        "<form action=\"/s?x=1\" method=\"get\">".toList ∧
      Query.of? "/s?x=1".toList = some "x=1".toList ∧ postingForm.submittedNames = [] ∧
      postingForm.keptParameters = []) ∧
    ¬ searchedForm.Agree [("action".toList, some (.text "/t?y=3".toList))] ∧
      searchedForm.renderBegin [("action".toList, some (.text "/t?y=3".toList))] =
        "<form action=\"/t?y=3\" method=\"get\">".toList ∧
      searchedForm.keptParameters = [("x".toList, "2".toList)] := by
  have hgiven : Query.of? "/s?x=1".toList = some "x=1".toList := by decide +kernel
  have hsome : Query.of? "/t?y=3".toList = some "y=3".toList := by decide +kernel
  refine ⟨⟨fun hagree => ?_, by decide +kernel, hgiven, by decide +kernel, by decide +kernel⟩,
    fun hagree => ?_, by decide +kernel, by decide +kernel⟩
  · obtain ⟨hquery, -⟩ := hagree "get".toList (by decide +kernel) (by decide +kernel)
    cases hgiven.symm.trans (hquery "/s?x=1".toList (by decide +kernel))
  · obtain ⟨hquery, -⟩ := hagree "get".toList (by decide +kernel) (by decide +kernel)
    cases hsome.symm.trans (hquery "/t?y=3".toList (by decide +kernel))

end Form

end FormTemplate
