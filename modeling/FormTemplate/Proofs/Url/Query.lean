import FormTemplate.Proofs.Text.Cutting
import FormTemplate.Url.Query

/-!
# The query of a URL, taken out and left out

`Query.of?` cuts the fragment off before it looks for a question mark,
`Query.strip` looks for a question mark at once. So they mean the same query
where there is one (`exists_of_of?_eq_some`). Where there is none, a
question mark in the fragment is still taken for the beginning of one, and
the fragment loses what follows it (`exists_of_of?_eq_none`).
-/

namespace FormTemplate

namespace Query

/-- What may stand behind a query: nothing, or a number sign and the
fragment. -/
def IsFragment (s : Text) : Prop := s = [] ∨ ∃ t, s = '#' :: t

/-- A text goes on to its first number sign. -/
theorem exists_fragment (s : Text) :
    ∃ before fragment, s = before ++ fragment ∧ '#' ∉ before ∧ IsFragment fragment := by
  cases h : Text.cut? '#' s with
  | none => exact ⟨s, [], by simp, Text.cut?_eq_none.1 h, .inl rfl⟩
  | some p =>
    exact ⟨p.1, '#' :: p.2, Text.eq_of_cut? h, Text.not_mem_of_cut? h, .inr ⟨p.2, rfl⟩⟩

/-- The query stands before the fragment. -/
theorem of?_append {before fragment : Text} (hbefore : '#' ∉ before)
    (hfragment : IsFragment fragment) :
    of? (before ++ fragment) = (Text.cut? '?' before).map (·.2) := by
  rcases hfragment with rfl | ⟨t, rfl⟩
  · rw [of?, List.append_nil, Text.cut?_eq_none.2 hbefore]
    rfl
  · rw [of?, Text.cut?_append hbefore]
    rfl

/-- What is left out goes from the first question mark to the next number
sign. -/
theorem strip_append {path query rest : Text} (hpath : '?' ∉ path) (hquery : '#' ∉ query)
    (hrest : IsFragment rest) : strip (path ++ '?' :: (query ++ rest)) = path ++ rest := by
  have hall : ∀ c ∈ query, decide (c ≠ '#') = true :=
    fun c hc => decide_eq_true (ne_of_mem_of_not_mem hc hquery)
  rw [strip, Text.cut?_append hpath]
  change path ++ (query ++ rest).dropWhile (· ≠ '#') = path ++ rest
  rw [List.dropWhile_append_of_pos hall]
  rcases hrest with rfl | ⟨t, rfl⟩ <;> rfl

/-- A URL without question mark is left as it is. -/
theorem strip_of_not_mem {url : Text} (h : '?' ∉ url) : strip url = url := by
  rw [strip, Text.cut?_eq_none.2 h]

/-- **Where there is a query, what is left out is the query**, and all else
is kept. -/
theorem exists_of_of?_eq_some {url query : Text} (h : of? url = some query) :
    ∃ path rest, url = path ++ '?' :: (query ++ rest) ∧ '?' ∉ path ∧ '#' ∉ path ++ query ∧
      IsFragment rest ∧ strip url = path ++ rest := by
  obtain ⟨before, rest, rfl, hbefore, hrest⟩ := exists_fragment url
  rw [of?_append hbefore hrest] at h
  obtain ⟨⟨path, query⟩, hcut, rfl⟩ := Option.map_eq_some_iff.1 h
  have hpath := Text.not_mem_of_cut? hcut
  obtain rfl := Text.eq_of_cut? hcut
  obtain ⟨hp, hq⟩ : '#' ∉ path ∧ '#' ∉ query := by simpa using hbefore
  have hurl : path ++ '?' :: query ++ rest = path ++ '?' :: (query ++ rest) := by simp
  exact ⟨path, rest, hurl, hpath, by simp [hp, hq], hrest, hurl ▸ strip_append hpath hq hrest⟩

/-- **Where there is none, the fragment loses what follows a question
mark** in it, up to the next number sign. -/
theorem exists_of_of?_eq_none {url : Text} (h : of? url = none) (hmem : '?' ∈ url) :
    ∃ path fragment lost rest,
      url = path ++ '#' :: (fragment ++ '?' :: (lost ++ rest)) ∧ '#' ∉ path ∧
      '?' ∉ path ++ fragment ∧ '#' ∉ lost ∧ IsFragment rest ∧
      strip url = path ++ '#' :: (fragment ++ rest) := by
  obtain ⟨path, hash, rfl, hpath, hhash⟩ := exists_fragment url
  rw [of?_append hpath hhash, Option.map_eq_none_iff, Text.cut?_eq_none] at h
  obtain ⟨t, rfl⟩ : ∃ t, hash = '#' :: t :=
    hhash.resolve_left fun hnil => h (by simpa [hnil] using hmem)
  have ht : '?' ∈ t := by simpa [h] using hmem
  obtain ⟨fragment, after, rfl, hfragment⟩ := List.eq_append_cons_of_mem ht
  obtain ⟨lost, rest, rfl, hlost, hrest⟩ := exists_fragment after
  have hquestion : '?' ∉ path ++ '#' :: fragment := by simp [h, hfragment]
  refine ⟨path, fragment, lost, rest, rfl, hpath, by simp [h, hfragment], hlost, hrest, ?_⟩
  have hstrip := strip_append hquestion hlost hrest
  simpa using hstrip

/-- So a URL without query is left as it is exactly when no question mark
stands in its fragment. -/
theorem strip_eq_self_iff {url : Text} (h : of? url = none) : strip url = url ↔ '?' ∉ url := by
  refine ⟨fun hstrip hmem => ?_, strip_of_not_mem⟩
  obtain ⟨path, fragment, lost, rest, hurl, -, -, -, -, heq⟩ := exists_of_of?_eq_none h hmem
  have hlength := congrArg List.length (heq.symm.trans (hstrip.trans hurl))
  simp only [List.length_append, List.length_cons] at hlength
  omega

/-- **What is left of a URL has no query.** -/
theorem of?_strip (url : Text) : of? (strip url) = none := by
  have hnone {path rest : Text} (hpath : '?' ∉ path) (hhash : '#' ∉ path)
      (hrest : IsFragment rest) : of? (path ++ rest) = none := by
    rw [of?_append hhash hrest, Text.cut?_eq_none.2 hpath]
    rfl
  cases h : of? url with
  | some query =>
    obtain ⟨path, rest, -, hpath, hhash, hrest, hstrip⟩ := exists_of_of?_eq_some h
    rw [hstrip]
    exact hnone hpath (fun hmem => hhash (List.mem_append_left _ hmem)) hrest
  | none =>
    by_cases hmem : '?' ∈ url
    · obtain ⟨path, fragment, lost, rest, -, hhash, hquestion, -, -, hstrip⟩ :=
        exists_of_of?_eq_none h hmem
      rw [hstrip]
      exact hnone (fun hmem => hquestion (List.mem_append_left _ hmem)) hhash (.inr ⟨_, rfl⟩)
    · rw [strip_of_not_mem hmem, h]

end Query

end FormTemplate
