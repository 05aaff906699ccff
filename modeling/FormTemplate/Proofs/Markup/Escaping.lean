import FormTemplate.Proofs.Markup.Reading

/-!
# Escaping

What `escape` writes is safe and can be read back. Every ampersand in it
begins the entity of one character, and around that entity stands the rest
of the text, escaped (`exists_special_of_escape`): no entity comes about by
chance, not even where the text itself spells one. A text is left as it is
exactly when rewriting it would not change it (`rewritten?_eq_none_iff`).
-/

namespace FormTemplate

namespace Markup

variable {s before after : Text} {c : Char}

/-- The entities that are written. -/
def entities : List Text :=
  ["&amp;".toList, "&lt;".toList, "&gt;".toList, "&quot;".toList, "&#39;".toList]

/-- The special characters are written as entities. -/
theorem escapeChar_mem_entities (h : c ∈ specials) : escapeChar c ∈ entities := by
  have hc : c = '&' ∨ c = '<' ∨ c = '>' ∨ c = '"' ∨ c = '\'' := by simpa [specials] using h
  obtain rfl | rfl | rfl | rfl | rfl := hc <;> simp [escapeChar, entities]

/-- An entity is longer than a character, and only begins with an
ampersand. -/
theorem exists_body_of_mem_entities {e : Text} (h : e ∈ entities) :
    ∃ body, e = '&' :: body ∧ '&' ∉ body ∧ 1 < e.length := by
  have hall : ∀ e ∈ entities, e.head? = some '&' ∧ '&' ∉ e.tail ∧ 1 < e.length := by decide
  obtain ⟨hhead, htail, hlength⟩ := hall e h
  exact ⟨e.tail, List.eq_cons_of_mem_head? hhead, htail, hlength⟩

/-- Any character, as it is written, may begin with an ampersand but has
none behind; it begins with one only if it is special. -/
theorem exists_escapeChar_eq (c : Char) :
    ∃ d body, escapeChar c = d :: body ∧ '&' ∉ body ∧ (d = '&' → c ∈ specials) := by
  by_cases hc : c ∈ specials
  · obtain ⟨body, hbody, hnot, -⟩ := exists_body_of_mem_entities (escapeChar_mem_entities hc)
    exact ⟨'&', body, hbody, hnot, fun _ => hc⟩
  · refine ⟨c, [], escapeChar_of_not_mem hc, List.not_mem_nil, ?_⟩
    rintro rfl
    decide

theorem escape_cons (c : Char) (s : Text) : escape (c :: s) = escapeChar c ++ escape s := by
  rw [escape_eq, List.flatMap_cons, ← escape_eq]

/-- **Every ampersand begins the entity of a special character**, with the
rest of the text, escaped, before and behind that entity. -/
theorem exists_special_of_escape (h : escape s = before ++ '&' :: after) :
    ∃ u c v, s = u ++ c :: v ∧ before = escape u ∧ c ∈ specials ∧
      '&' :: after = escapeChar c ++ escape v := by
  induction s generalizing before with
  | nil => cases before <;> cases h
  | cons c s ih =>
    obtain ⟨d, body, hd, hbody, hspecial⟩ := exists_escapeChar_eq c
    rw [escape_cons, hd] at h
    -- The ampersand begins what `c` is written as, or it lies behind all of that.
    cases before with
    | nil =>
      obtain ⟨rfl, rfl⟩ := List.cons.inj h
      exact ⟨[], c, s, rfl, rfl, hspecial rfl, by rw [hd]; rfl⟩
    | cons b before =>
      obtain ⟨rfl, hrest⟩ := List.cons.inj h
      obtain ⟨t, rfl, ht⟩ := Text.exists_eq_append_of_not_mem hbody hrest
      obtain ⟨u, e, v, rfl, rfl, he, hafter⟩ := ih ht
      exact ⟨c :: u, e, v, rfl, by rw [escape_cons, hd]; rfl, he, hafter⟩

/-! ## Texts that are left as they are -/

/-- Escaping never makes a text shorter. -/
theorem length_le_length_escape (s : Text) : s.length ≤ (escape s).length := by
  induction s with
  | nil => exact Nat.le_refl _
  | cons c s ih =>
    obtain ⟨d, body, hd, -⟩ := exists_escapeChar_eq c
    rw [escape_cons, hd, List.length_append, List.length_cons, List.length_cons]
    omega

/-- And it makes a text longer that holds a special character. -/
theorem length_lt_length_escape (hc : c ∈ specials) (hs : c ∈ s) :
    s.length < (escape s).length := by
  obtain ⟨u, v, rfl⟩ := List.append_of_mem hs
  obtain ⟨-, -, -, hlength⟩ := exists_body_of_mem_entities (escapeChar_mem_entities hc)
  have hu := length_le_length_escape u
  have hv := length_le_length_escape v
  rw [escape_append, escape_cons]
  simp only [List.length_append, List.length_cons]
  omega

/-- **A text is left as it is exactly when rewriting it would not change
it.** -/
theorem rewritten?_eq_none_iff : rewritten? s = none ↔ s.flatMap escapeChar = s := by
  constructor
  · intro h
    rw [← escape_eq, escape, h, Option.getD_none]
  · intro h
    rw [rewritten?, if_neg]
    intro hany
    obtain ⟨c, hs, hc⟩ := List.any_eq_true.1 hany
    have hlt := length_lt_length_escape (List.contains_iff_mem.1 hc) hs
    rw [escape_eq, h] at hlt
    exact Nat.lt_irrefl _ hlt

/-! ## Main statement -/

/-- **What is escaped is safe and can be read back.** None of the characters
that could end a text or an attribute value is in it, and every ampersand in
it begins an entity, written for one character of the text. Reading the
entities gives the text again, escaping goes piece by piece, and the texts
that are not rewritten are those that rewriting does not change. -/
theorem escape_safe_and_reversible (s : Text) :
    ('<' ∉ escape s ∧ '>' ∉ escape s ∧ '"' ∉ escape s ∧ '\'' ∉ escape s) ∧
    (∀ before after, escape s = before ++ '&' :: after →
      ∃ u c v, s = u ++ c :: v ∧ before = escape u ∧ escapeChar c ∈ entities ∧
        '&' :: after = escapeChar c ++ escape v) ∧
    unescape (escape s) = s ∧
    (∀ t, escape (s ++ t) = escape s ++ escape t) ∧
    escape s = s.flatMap escapeChar ∧
    (rewritten? s = none ↔ s.flatMap escapeChar = s) := by
  have hnot : ∀ c, isDelimiter c = true → c ∉ escape s := fun c h => not_mem_escape h s
  refine ⟨⟨hnot _ rfl, hnot _ rfl, hnot _ rfl, hnot _ rfl⟩, ?_, unescape_escape s,
    escape_append s, escape_eq s, rewritten?_eq_none_iff⟩
  intro before after h
  obtain ⟨u, c, v, hs, hbefore, hc, hafter⟩ := exists_special_of_escape h
  exact ⟨u, c, v, hs, hbefore, escapeChar_mem_entities hc, hafter⟩

/-- A text that spells an entity itself. -/
theorem escape_safe_and_reversible_of_entity :
    let s := "1 &lt; 2".toList
    escape s = "1 ".toList ++ '&' :: "amp;lt; 2".toList ∧
      (∃ u c v, s = u ++ c :: v ∧ "1 ".toList = escape u ∧ escapeChar c ∈ entities ∧
        '&' :: "amp;lt; 2".toList = escapeChar c ++ escape v) ∧
      unescape (escape s) = s := by
  intro s
  have h : escape s = "1 ".toList ++ '&' :: "amp;lt; 2".toList := by decide
  obtain ⟨-, hentity, hread, -⟩ := escape_safe_and_reversible s
  exact ⟨h, hentity _ _ h, hread⟩

end Markup

end FormTemplate
