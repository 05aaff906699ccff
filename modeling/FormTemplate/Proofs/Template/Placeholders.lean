import FormTemplate.Template.Pattern
import FormTemplate.Proofs.Text.Cutting

/-!
# Placeholders in the text of a pattern

`PatternPart.Spelled` says how each placeholder is written behind its percent
sign, and `Cut` what it is to cut a text into plain code and placeholders: a
percent sign that no placeholder follows is plain code. A placeholder is
recognised whatever comes behind it (`placeholder?_of_spelled`), and the text
of a pattern has one cut, which `Pattern.ofText` finds (`cut_iff`).
-/

namespace FormTemplate

namespace Template

/-- The name of a form of arguments. -/
def ArgumentForm.name : ArgumentForm → Text
  | word => "word".toList
  | raw => "raw".toList
  | var => "var".toList

/-- **How a placeholder is spelled**, its percent sign not counted. -/
inductive PatternPart.Spelled : PatternPart → Text → Prop
  /-- The path of the rendering library. -/
  | runtime : Spelled .runtime "runtime".toList
  /-- The next word. -/
  | nextWord : Spelled .nextWord "node.word".toList
  /-- The remaining words. -/
  | remainingWords : Spelled .remainingWords "node.array".toList
  /-- The argument at a position, which is a numeral of a machine word. -/
  | argument {digits : Text} (form : ArgumentForm) :
    digits ≠ [] → (∀ c ∈ digits, c.isDigit = true) →
    Text.numeral 10 digits < Pattern.indexBound →
    Spelled (.argument (Text.numeral 10 digits) form) (digits ++ '.' :: form.name)

theorem PatternPart.Spelled.ne_plain {part : PatternPart} {t : Text} (h : part.Spelled t)
    (code : Text) : part ≠ .plain code := by
  rintro rfl
  cases h

namespace Pattern

variable {part : PatternPart} {parts : Pattern} {form : ArgumentForm} {c : Char} {n : Nat}
variable {s t code : Text}

/-! ## Recognising a placeholder -/

theorem form?_append (form : ArgumentForm) (rest : Text) :
    form? (form.name ++ rest) = some (form, form.name.length) := by
  delta form? ArgumentForm.name
  repeat rw [Text.toList_eq (by rfl)]
  cases form <;> simp

theorem name_isPrefix_of_form? (h : form? s = some (form, n)) :
    form.name <+: s ∧ n = form.name.length := by
  unfold form? at h
  split at h
  · next hword =>
    cases h
    exact ⟨List.isPrefixOf_iff_prefix.1 hword, rfl⟩
  · split at h
    · next hraw =>
      cases h
      exact ⟨List.isPrefixOf_iff_prefix.1 hraw, rfl⟩
    · split at h
      · next hvar =>
        cases h
        exact ⟨List.isPrefixOf_iff_prefix.1 hvar, rfl⟩
      · cases h

/-- A placeholder with a position begins with a digit, so it is none of the
others. -/
theorem placeholder?_of_isDigit (h : c.isDigit = true) :
    placeholder? (c :: s) = positional? (c :: s) := by
  have hne : ∀ d : Char, d.isDigit = false → d ≠ c := by
    rintro d hd rfl
    rw [h] at hd
    cases hd
  have hr : 'r' ≠ c := hne 'r' (by decide)
  have hn : 'n' ≠ c := hne 'n' (by decide)
  delta placeholder?
  repeat rw [Text.toList_eq (by rfl)]
  simp [hr, hn]

theorem positional?_append {digits : Text} (form : ArgumentForm) (hne : digits ≠ [])
    (hdigits : ∀ c ∈ digits, c.isDigit = true) (hbound : Text.numeral 10 digits < indexBound)
    (rest : Text) :
    positional? (digits ++ '.' :: (form.name ++ rest)) =
      some (.argument (Text.numeral 10 digits) form, (digits ++ '.' :: form.name).length) := by
  have hdot : Char.isDigit '.' = false := by decide
  have htake : (digits ++ '.' :: (form.name ++ rest)).takeWhile Char.isDigit = digits := by
    rw [List.takeWhile_append_of_pos hdigits, List.takeWhile_cons_of_neg (by simp [hdot]),
      List.append_nil]
  have hlength : (digits ++ '.' :: form.name).length = digits.length + 1 + form.name.length := by
    rw [List.length_append, List.length_cons]
    omega
  unfold positional?
  rw [htake, hlength]
  dsimp only
  rw [List.drop_left, if_neg (by simpa [hne] using hbound)]
  change (form? (form.name ++ rest)).map _ = _
  rw [form?_append]
  rfl

/-- **A placeholder is recognised**, whatever follows it. -/
theorem placeholder?_of_spelled (h : part.Spelled t) (rest : Text) :
    placeholder? (t ++ rest) = some (part, t.length) := by
  cases h with
  | runtime =>
    delta placeholder?
    repeat rw [Text.toList_eq (by rfl)]
    simp
  | nextWord =>
    delta placeholder?
    repeat rw [Text.toList_eq (by rfl)]
    simp
  | remainingWords =>
    delta placeholder?
    repeat rw [Text.toList_eq (by rfl)]
    simp
  | @argument digits form hne hdigits hbound =>
    have hpositional := positional?_append form hne hdigits hbound rest
    obtain ⟨d, digits, rfl⟩ := List.exists_cons_of_ne_nil hne
    rw [← hpositional, List.append_assoc, List.cons_append]
    exact placeholder?_of_isDigit (hdigits d List.mem_cons_self)

theorem exists_spelled_of_positional? (h : positional? s = some (part, n)) :
    ∃ t, part.Spelled t ∧ t <+: s ∧ n = t.length := by
  unfold positional? at h
  dsimp only at h
  split at h
  · cases h
  · next hnumeral =>
    rw [Bool.or_eq_true, List.isEmpty_iff, decide_eq_true_eq, not_or, Nat.not_le] at hnumeral
    rw [Text.drop_length_takeWhile] at h
    have hsplit := List.takeWhile_append_dropWhile (p := Char.isDigit) (l := s)
    have hdigits : ∀ c ∈ s.takeWhile Char.isDigit, c.isDigit = true := fun c hc =>
      List.mem_takeWhile_imp hc
    generalize s.takeWhile Char.isDigit = digits at h hnumeral hsplit hdigits
    split at h
    · next after hafter =>
      rw [hafter] at hsplit
      obtain ⟨⟨form, k⟩, hform, heq⟩ := Option.map_eq_some_iff.1 h
      cases heq
      obtain ⟨⟨rest, rfl⟩, rfl⟩ := name_isPrefix_of_form? hform
      refine ⟨digits ++ '.' :: form.name, .argument form hnumeral.1 hdigits hnumeral.2, ?_, ?_⟩
      · rw [← hsplit]
        exact ⟨rest, by simp⟩
      · rw [List.length_append, List.length_cons]
        omega
    · cases h

/-- **And nothing else is recognised.** -/
theorem exists_spelled_of_placeholder? (h : placeholder? s = some (part, n)) :
    ∃ t, part.Spelled t ∧ t <+: s ∧ n = t.length := by
  unfold placeholder? at h
  split at h
  · next hruntime =>
    cases h
    exact ⟨_, .runtime, List.isPrefixOf_iff_prefix.1 hruntime, rfl⟩
  · split at h
    · next hword =>
      cases h
      exact ⟨_, .nextWord, List.isPrefixOf_iff_prefix.1 hword, rfl⟩
    · split at h
      · next harray =>
        cases h
        exact ⟨_, .remainingWords, List.isPrefixOf_iff_prefix.1 harray, rfl⟩
      · exact exists_spelled_of_positional? h

/-- **A character that stands for itself** in front of a text: it is no
percent sign with a placeholder behind it. -/
def IsPlain (c : Char) (s : Text) : Prop :=
  c = '%' → ∀ (part : PatternPart) (t : Text), part.Spelled t → ¬ t <+: s

theorem isPlain_iff : IsPlain c s ↔ (if c = '%' then placeholder? s else none) = none := by
  by_cases hc : c = '%'
  · rw [if_pos hc]
    constructor
    · intro h
      rw [Option.eq_none_iff_forall_not_mem]
      rintro ⟨part, n⟩ hsome
      obtain ⟨t, ht, hprefix, -⟩ := exists_spelled_of_placeholder? hsome
      exact h hc part t ht hprefix
    · rintro h - part t ht ⟨rest, rfl⟩
      rw [placeholder?_of_spelled ht] at h
      cases h
  · rw [if_neg hc]
    exact iff_of_true (fun h => absurd h hc) rfl

/-! ## The parts of a text -/

theorem ofText_go_eq (k : Nat) (s : Text) : ofText.go k s = ofText (s.drop k) := by
  induction s generalizing k with
  | nil => cases k <;> rfl
  | cons c s ih =>
    cases k with
    | zero => rfl
    | succ k => rw [ofText.go, ih, List.drop_succ_cons]

/-- A placeholder is a part of its own. -/
theorem ofText_of_spelled (h : part.Spelled t) (s : Text) :
    ofText ('%' :: (t ++ s)) = part :: ofText s := by
  have hgo : ofText ('%' :: (t ++ s)) = part :: ofText.go t.length (t ++ s) := by
    rw [ofText, ofText.go, if_pos rfl, placeholder?_of_spelled h]
  rw [hgo, ofText_go_eq, List.drop_left]

/-- Any other character is plain code. -/
theorem ofText_of_isPlain (h : IsPlain c s) : ofText (c :: s) = consPlain c (ofText s) := by
  have hgo : ofText (c :: s) = consPlain c (ofText.go 0 s) := by
    rw [ofText, ofText.go, isPlain_iff.1 h]
  exact hgo

/-- **Induction over the text of a pattern**: it is empty, or begins with a
placeholder, or with a character that stands for itself. -/
theorem ofText_induction {motive : Text → Prop} (nil : motive [])
    (placeholder : ∀ (part : PatternPart) (t s : Text), part.Spelled t → motive s →
      motive ('%' :: (t ++ s)))
    (plain : ∀ (c : Char) (s : Text), IsPlain c s → motive s → motive (c :: s)) (s : Text) :
    motive s := by
  induction hn : s.length using Nat.strongRecOn generalizing s with
  | ind n ih =>
    cases s with
    | nil => exact nil
    | cons c s =>
      by_cases hc : IsPlain c s
      · exact plain c s hc (ih s.length (by rw [← hn, List.length_cons]; omega) s rfl)
      · have hsome : ∃ (part : PatternPart) (t : Text), c = '%' ∧ part.Spelled t ∧ t <+: s := by
          unfold IsPlain at hc
          push Not at hc
          obtain ⟨rfl, part, t, ht, hprefix⟩ := hc
          exact ⟨part, t, rfl, ht, hprefix⟩
        obtain ⟨part, t, rfl, ht, rest, rfl⟩ := hsome
        have hlength : rest.length < n := by
          rw [← hn, List.length_cons, List.length_append]
          omega
        exact placeholder part t rest ht (ih rest.length hlength rest rfl)

/-- **A cut of a text into parts.** Plain code goes on to the next placeholder
or to the end. -/
inductive Cut : Text → Pattern → Prop
  /-- Nothing has no parts. -/
  | nil : Cut [] []
  /-- A placeholder and its percent sign. -/
  | placeholder {part : PatternPart} {t s : Text} {parts : Pattern} :
    part.Spelled t → Cut s parts → Cut ('%' :: (t ++ s)) (part :: parts)
  /-- Plain code. -/
  | plain {code s : Text} {parts : Pattern} :
    code ≠ [] → (∀ front c back, code = front ++ c :: back → IsPlain c (back ++ s)) →
    (∀ other, parts.head? ≠ some (.plain other)) → Cut s parts →
    Cut (code ++ s) (.plain code :: parts)

/-- Plain code is one part. -/
theorem ofText_append_of_plain (hne : code ≠ [])
    (hplain : ∀ front c back, code = front ++ c :: back → IsPlain c (back ++ s))
    (hhead : ∀ other, (ofText s).head? ≠ some (.plain other)) :
    ofText (code ++ s) = .plain code :: ofText s := by
  induction code with
  | nil => exact absurd rfl hne
  | cons c code ih =>
    have hc : IsPlain c (code ++ s) := hplain [] c code rfl
    rw [List.cons_append, ofText_of_isPlain hc]
    cases code with
    | nil =>
      rw [List.nil_append]
      cases hparts : ofText s with
      | nil => rfl
      | cons part parts =>
        cases part with
        | plain other =>
          rw [hparts] at hhead
          exact absurd rfl (hhead other)
        | runtime | nextWord | remainingWords | argument => rfl
    | cons d code =>
      rw [ih (List.cons_ne_nil d code) fun front e back h =>
        hplain (c :: front) e back (by rw [h, List.cons_append])]
      rfl

/-- **The parts of a text are its only cut.** -/
theorem cut_iff : Cut s parts ↔ parts = ofText s := by
  constructor
  · intro h
    induction h with
    | nil => rfl
    | placeholder ht _ ih => rw [ofText_of_spelled ht, ih]
    | plain hne hplain hhead _ ih =>
      subst ih
      rw [ofText_append_of_plain hne hplain hhead]
  · rintro rfl
    refine ofText_induction (motive := fun s => Cut s (ofText s)) .nil ?_ ?_ s
    · intro part t s ht ih
      rw [ofText_of_spelled ht]
      exact .placeholder ht ih
    · intro c s hc ih
      rw [ofText_of_isPlain hc]
      have hfirst : ∀ front d back, [c] = front ++ d :: back → IsPlain d (back ++ s) := by
        intro front d back h
        obtain ⟨rfl, rfl, rfl⟩ : front = [] ∧ d = c ∧ back = [] := by
          cases front with
          | nil => simpa using h.symm
          | cons e front => simp at h
        exact hc
      generalize ofText s = parts at ih
      cases ih with
      | nil => exact .plain (List.cons_ne_nil c []) hfirst nofun .nil
      | @placeholder part t s parts ht hcut =>
        have hne : ∀ other, part ≠ .plain other := ht.ne_plain
        have hparts : consPlain c (part :: parts) = .plain [c] :: part :: parts := by
          cases part with
          | plain other => exact absurd rfl (hne other)
          | runtime | nextWord | remainingWords | argument => rfl
        rw [hparts]
        refine .plain (List.cons_ne_nil c []) hfirst (fun other hhead => ?_) (.placeholder ht hcut)
        exact hne other (Option.some.inj hhead)
      | @plain code s parts hne hplain hhead hcut =>
        refine Cut.plain (List.cons_ne_nil c code) ?_ hhead hcut
        intro front d back h
        cases front with
        | nil =>
          obtain ⟨rfl, rfl⟩ := List.cons.inj h
          exact hc
        | cons e front =>
          obtain ⟨-, hcode⟩ := List.cons.inj h
          exact hplain front d back hcode

end Pattern

end Template

end FormTemplate
