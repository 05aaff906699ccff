import FormTemplate.Proofs.Render.Trailer
import FormTemplate.Proofs.Url.Query

/-!
# The action in the start tag of a form

A form that submits with GET begins with a tag whose action leaves the query
out. The main statement (`renderBegin_leaves_query_out`) says which text the
tag shows, and where, whatever else the page merges into it. Where the action
has a query, that query is gone and nothing else. Where it has none, the
action should stay as it is, and does unless its fragment holds a question
mark.
-/

namespace FormTemplate

namespace Form

open Markup

variable {f : Form} {m : Merge}

/-- The attributes in the start tag of a GET form. -/
def mergedAttributes (f : Form) (m : Merge) : Attributes :=
  (f.element.attributes.set "action".toList (.text (Query.strip f.action))).merge m

theorem renderBegin_of_isGet (h : f.isGet = true) :
    f.renderBegin m = startTag f.element.name (f.mergedAttributes m) := by
  rw [renderBegin, if_pos h]
  rfl

/-- The page shows the action in one place, unless it mentions the action
itself. -/
theorem exists_mergedAttributes_eq (hdistinct : f.element.attributes.Distinct)
    (hmerge : ∀ entry ∈ m, entry.1 ≠ "action".toList) :
    ∃ before after : Attributes, f.mergedAttributes m =
        before ++ ("action".toList, .text (Query.strip f.action)) :: after ∧
      ∀ a ∈ before ++ after, a.1 ≠ "action".toList := by
  have hget : (f.mergedAttributes m).get? "action".toList =
      some (.text (Query.strip f.action)) := by
    rw [mergedAttributes, Attributes.get?_merge hmerge, Attributes.get?_set, if_pos rfl]
  exact ((hdistinct.set _ _).merge m).exists_of_get? hget

theorem isName_mergedAttributes (hnames : ∀ a ∈ f.element.attributes, IsName a.1)
    (hadded : ∀ entry ∈ m, IsName entry.1) : ∀ a ∈ f.mergedAttributes m, IsName a.1 := by
  have hown : IsName "action".toList := by decide
  refine Attributes.forall_fst_merge (fun a ha => ?_) hadded
  rcases Attributes.mem_of_mem_set ha with rfl | ha
  · exact hown
  · exact hnames a ha

/-- **The start tag of a GET form leaves the query of the action out**, the
one whose parameters the end carries. An action without query is left as it
is, unless a question mark stands in its fragment: then the fragment loses
what goes from there to the next number sign, and the end carries none of
it. Where the names in the tag can be read, the tag reads back as it was
meant. -/
theorem renderBegin_leaves_query_out {u : Text} (hname : f.element.name ≠ [])
    (hdistinct : f.element.attributes.Distinct) (hget : f.isGet = true)
    (haction : f.element.getText? "action".toList = some u)
    (hmerge : ∀ entry ∈ m, entry.1 ≠ "action".toList) :
    ∃ (before after : Attributes) (shown : Text),
      f.renderBegin m = '<' :: f.element.name ++ before.source ++ " action=\"".toList ++
        escape shown ++ '"' :: after.source ++ ['>'] ∧
      (∀ a ∈ before ++ after, a.1 ≠ "action".toList) ∧
      (f.element.name.head?.any Char.isAlpha = true →
        (∀ c ∈ f.element.name, isNameChar c = true) →
        (∀ a ∈ f.element.attributes, IsName a.1) → (∀ entry ∈ m, IsName entry.1) →
        readTag? (f.renderBegin m) = some (f.element.name,
          before.shown ++ ("action".toList, .text shown) :: after.shown, [])) ∧
      (∀ query, Query.of? u = some query →
        (∃ path rest, u = path ++ '?' :: (query ++ rest) ∧ '?' ∉ path ∧ '#' ∉ path ++ query ∧
          Query.IsFragment rest ∧ shown = path ++ rest) ∧
        f.keptParameters = (Query.parse query).filter fun p => !f.root.contains p.1) ∧
      (Query.of? u = none →
        ((shown = u ↔ '?' ∉ u) ∧
          ('?' ∈ u → ∃ path fragment lost rest,
            u = path ++ '#' :: (fragment ++ '?' :: (lost ++ rest)) ∧ '#' ∉ path ∧
            '?' ∉ path ++ fragment ∧ '#' ∉ lost ∧ Query.IsFragment rest ∧
            shown = path ++ '#' :: (fragment ++ rest))) ∧
        f.keptParameters = []) := by
  obtain rfl : f.action = u := by rw [action, haction, Option.getD_some]
  obtain ⟨before, after, hsplit, hothers⟩ := exists_mergedAttributes_eq hdistinct hmerge
  have htag := renderBegin_of_isGet (m := m) hget
  rw [hsplit] at htag
  refine ⟨before, after, Query.strip f.action, ?_, hothers, ?_, ?_, ?_⟩
  · rw [htag, startTag, if_neg (by simpa using hname), Attributes.source_append_cons]
    simp
  · intro hfirst hchars hnames hadded
    have hread := readTag?_startTag hfirst hchars (isName_mergedAttributes hnames hadded) []
    rw [List.append_nil, ← renderBegin_of_isGet hget, hsplit] at hread
    simpa [Attributes.shown] using hread
  · intro query hquery
    obtain ⟨path, rest, hurl, hpath, hhash, hrest, hstrip⟩ := Query.exists_of_of?_eq_some hquery
    refine ⟨⟨path, rest, hurl, hpath, hhash, hrest, hstrip⟩, ?_⟩
    rw [keptParameters_of_isGet hget, parameters, hquery]
    rfl
  · intro hnone
    refine ⟨⟨Query.strip_eq_self_iff hnone, Query.exists_of_of?_eq_none hnone⟩, ?_⟩
    rw [keptParameters_of_isGet hget, parameters, hnone]
    rfl

/-- A form that searches a page from one of its places on. -/
def fragmentForm : Form := ((Form.create ['f']).setMethod "get".toList).setAction "/search#a?b".toList

/-- The place is lost in part, though the action has no query. -/
theorem renderBegin_leaves_query_out_of_fragment :
    fragmentForm.isGet = true ∧
      fragmentForm.element.getText? "action".toList = some "/search#a?b".toList ∧
      Query.of? "/search#a?b".toList = none ∧
      ∃ (before after : Attributes) (shown : Text),
        fragmentForm.renderBegin [("class".toList, some (.text "wide".toList))] =
          "<form".toList ++ before.source ++ " action=\"".toList ++ escape shown ++
            '"' :: after.source ++ ['>'] ∧
        (∀ a ∈ before ++ after, a.1 ≠ "action".toList) ∧
        readTag? (fragmentForm.renderBegin [("class".toList, some (.text "wide".toList))]) =
          some ("form".toList, before.shown ++ ("action".toList, .text shown) :: after.shown, []) ∧
        shown ≠ "/search#a?b".toList ∧
        fragmentForm.renderBegin [("class".toList, some (.text "wide".toList))] =
          "<form action=\"/search#a\" method=\"get\" class=\"wide\">".toList ∧
        fragmentForm.keptParameters = [] := by
  have hget : fragmentForm.isGet = true := by decide +kernel
  have haction : fragmentForm.element.getText? "action".toList = some "/search#a?b".toList := by
    decide +kernel
  have hnone : Query.of? "/search#a?b".toList = none := by decide +kernel
  obtain ⟨before, after, shown, htag, hothers, hread, -, hlost⟩ :=
    renderBegin_leaves_query_out (f := fragmentForm)
      (m := [("class".toList, some (.text "wide".toList))]) (by decide +kernel) (by decide +kernel)
      hget haction (by simp)
  obtain ⟨⟨hkept, -⟩, hparameters⟩ := hlost hnone
  have hform : IsName fragmentForm.element.name := by decide +kernel
  exact ⟨hget, haction, hnone, before, after, shown, htag, hothers,
    hread (by decide +kernel) hform.2 (by decide +kernel) (by decide +kernel),
    fun heq => hkept.1 heq (by decide), by decide +kernel, hparameters⟩

end Form

end FormTemplate
