import FormTemplate.Proofs.Template.BraceTags

/-!
# Start tags

How the start tag of an element is read: an attribute is its white space,
its name and its value (`RawAttribute.read?_name`), `Tag.Attributes` strings
attributes together with what follows each in view, and the first attribute
named after the input directive makes the element a tag
(`Tag.carriedDirective?_eq_some_iff`, `Tag.element?_name`).
-/

namespace FormTemplate

namespace Template

open Text Quotation

/-! ## Attributes -/

namespace RawAttribute

/-- The characters of an attribute's name. -/
def isNameChar (c : Char) : Bool := !(isBlank c || c == '=' || c == '>')

theorem isNameChar_iff {c : Char} :
    isNameChar c = true ↔ isBlank c = false ∧ c ≠ '=' ∧ c ≠ '>' := by
  simp [isNameChar, and_assoc]

variable {blanks name v s : Text} {q : Char}

/-- The attribute whose white space and name have been read, from what
follows the name. -/
def afterName? (blanks name : Text) : Text → Option RawAttribute
  | [] => none
  | '=' :: s => (value? s).map fun v =>
      { name, value := some v.1, source := blanks ++ name ++ '=' :: v.2 }
  | _ => some { name, value := none, source := blanks ++ name }

/-- **An attribute is its white space, its name, and what follows the
name.** -/
theorem read?_name (hne : blanks ≠ []) (hblanks : ∀ c ∈ blanks, isBlank c = true)
    (hnonempty : name ≠ []) (hname : ∀ c ∈ name, isNameChar c = true)
    (hs : ∀ c, s.head? = some c → isNameChar c = false) :
    read? (blanks ++ (name ++ s)) = afterName? blanks name s := by
  obtain ⟨c, rest, rfl⟩ := List.exists_cons_of_ne_nil hnonempty
  have hc : isBlank c = false := (isNameChar_iff.1 (hname c List.mem_cons_self)).1
  have htake : (blanks ++ (c :: rest ++ s)).takeWhile isBlank = blanks := by
    rw [List.takeWhile_append_of_pos hblanks]
    simp [hc]
  have hdrop : (blanks ++ (c :: rest ++ s)).dropWhile isBlank = c :: rest ++ s := by
    rw [List.dropWhile_append_of_pos hblanks]
    simp [hc]
  have htakeName : (c :: rest ++ s).takeWhile isNameChar = c :: rest := by
    rw [List.takeWhile_append_of_pos hname]
    cases s with
    | nil => simp
    | cons d s => simp [hs d rfl]
  unfold isNameChar at htakeName
  simp only [read?]
  rw [htake, hdrop, htakeName, List.drop_left, if_neg (by simp [hne])]
  rfl

/-- A value in quotes runs to the same quote. -/
theorem value?_quoted (hq : isQuote q = true) (hv : q ∉ v) (s : Text) :
    value? (q :: v ++ q :: s) = some (v, q :: v ++ [q]) := by
  rw [List.cons_append, value?, if_pos hq, Text.cut?_append hv]
  rfl

/-- **An attribute with a value in quotes** is read to the end of the
quotes, whatever they hold. -/
theorem read?_quoted (hq : isQuote q = true) (hv : q ∉ v) (hne : blanks ≠ [])
    (hblanks : ∀ c ∈ blanks, isBlank c = true) (hnonempty : name ≠ [])
    (hname : ∀ c ∈ name, isNameChar c = true) (s : Text) :
    read? (blanks ++ name ++ '=' :: q :: v ++ q :: s) =
      some { name, value := some v, source := blanks ++ name ++ '=' :: q :: v ++ [q] } := by
  have hassoc : blanks ++ name ++ '=' :: q :: v ++ q :: s =
      blanks ++ (name ++ '=' :: (q :: v ++ q :: s)) := by simp
  rw [hassoc, read?_name hne hblanks hnonempty hname (by rintro c hc; cases hc; decide),
    afterName?, value?_quoted hq hv]
  simp

end RawAttribute

namespace Tag

variable {blanks name s r : Text} {c : Char} {as : List RawAttribute} {d : Directive}
variable {attributePrefix : Text}

/-! ## The end of a start tag -/

/-- Where an attribute begins a start tag does not end. -/
theorem tail?_eq_none (hblanks : ∀ c ∈ blanks, isBlank c = true) (hc : isBlank c = false)
    (hangle : c ≠ '>') (hslash : c = '/' → s.head? ≠ some '>') :
    tail? (blanks ++ c :: s) = none := by
  have hdrop : (blanks ++ c :: s).dropWhile isBlank = c :: s := by
    rw [List.dropWhile_append_of_pos hblanks]
    simp [hc]
  rw [tail?, hdrop]
  split
  · next heq => exact absurd (List.cons.inj heq).1 hangle
  · next heq =>
    obtain ⟨rfl, rfl⟩ := List.cons.inj heq
    exact absurd rfl (hslash rfl)
  · rfl

/-- At the end of a start tag there are no more attributes. -/
theorem attributes?_of_tail? {tail : Text} (h : tail? s = some tail) :
    attributes? s = some ([], tail) := by
  cases s with
  | nil => cases h
  | cons c s => rw [attributes?, attributes?_go_cons, h]

/-! ## Attributes one after the other -/

/-- **The attributes that a text begins with**, each read with what follows
it in view. -/
inductive Attributes : Text → List RawAttribute → Text → Prop
  /-- None. -/
  | nil {s : Text} : Attributes s [] s
  /-- One and then others. -/
  | cons {a : RawAttribute} {as : List RawAttribute} {s r : Text} :
    tail? (a.source ++ s) = none → RawAttribute.read? (a.source ++ s) = some a →
    Attributes s as r → Attributes (a.source ++ s) (a :: as) r

/-- The attributes of a start tag are those it begins with and then those
of the rest. -/
theorem attributes?_of_attributes (h : Attributes s as r) :
    attributes? s = (attributes? r).map fun x => (as ++ x.1, x.2) := by
  induction h with
  | nil => simp
  | @cons a as s r htail hread _ ih =>
    obtain ⟨hspelled, -⟩ := RawAttribute.append_of_read? hread
    obtain ⟨c, source, hsource⟩ := List.exists_cons_of_ne_nil hspelled.source_ne_nil
    rw [attributes?] at ih ⊢
    rw [hsource, List.cons_append] at htail hread ⊢
    rw [attributes?_go_cons, htail]
    dsimp only
    rw [hread, Option.bind_some, attributes?_go_eq, hsource, List.length_cons,
      Nat.add_sub_cancel, List.drop_left, ih]
    cases attributes? r <;> rfl

/-- What attributes begin with is white space. -/
theorem Attributes.head?_isBlank (h : Attributes s as r)
    (hr : ∀ c, r.head? = some c → isBlank c = true) : ∀ c, s.head? = some c → isBlank c = true := by
  cases h with
  | nil => exact hr
  | cons _ hread _ =>
    obtain ⟨⟨⟨blanks, value, hne, hblanks, hsource⟩, -⟩, -⟩ := RawAttribute.append_of_read? hread
    obtain ⟨b, blanks, rfl⟩ := List.exists_cons_of_ne_nil hne
    intro c hc
    rw [hsource] at hc
    cases hc
    exact hblanks b (by simp)

/-! ## The attribute that carries the directive -/

/-- **Only the input directive is written as an attribute**, by its name
behind the prefix. -/
theorem carriedDirective?_eq_some_iff :
    carriedDirective? attributePrefix name = some d ↔
      d = .input ∧ name = attributePrefix ++ Directive.input.name := by
  have hform : ∀ d : Directive, d.hasAttributeForm = true ↔ d = .input := by
    intro d
    cases d <;> simp [Directive.hasAttributeForm]
  constructor
  · intro h
    obtain ⟨written, hprefix, h⟩ := Option.bind_eq_some_iff.1 h
    obtain ⟨d', hd', h⟩ := Option.bind_eq_some_iff.1 h
    split at h
    · next hattribute =>
      cases h
      obtain rfl := (hform d).1 hattribute
      rw [List.isPrefixOf?_eq_some_iff_append_eq] at hprefix
      rw [← hprefix, Directive.ofName?_eq_some_iff.1 hd']
      exact ⟨rfl, rfl⟩
    · cases h
  · rintro ⟨rfl, rfl⟩
    rw [carriedDirective?, List.isPrefixOf?_eq_some_iff_append_eq.2 rfl]
    exact Option.bind_eq_some_iff.2 ⟨_, rfl,
      Option.bind_eq_some_iff.2 ⟨_, Directive.ofName?_name .input, rfl⟩⟩

/-- The first attribute that stands for a directive carries it. -/
theorem carried?_append {before after : List RawAttribute} {a : RawAttribute}
    (hbefore : ∀ b ∈ before, carriedDirective? attributePrefix b.name = none)
    (ha : carriedDirective? attributePrefix a.name = some d) :
    carried? attributePrefix (before ++ a :: after) =
      some (d, a.value.getD [], before ++ after) := by
  induction before with
  | nil => simp [carried?, ha]
  | cons b before ih =>
    rw [List.forall_mem_cons] at hbefore
    rw [List.cons_append, carried?, hbefore.1, ih hbefore.2]
    rfl

/-- Without such an attribute there is no tag. -/
theorem carried?_eq_none (h : ∀ a ∈ as, carriedDirective? attributePrefix a.name = none) :
    carried? attributePrefix as = none := by
  induction as with
  | nil => rfl
  | cons a as ih =>
    rw [List.forall_mem_cons] at h
    rw [carried?, h.1, ih h.2]
    rfl

/-! ## Elements -/

/-- A character of an element's name is no white space. -/
theorem isNameChar_eq_false {c : Char} (h : isBlank c = true) : isNameChar c = false := by
  by_contra hname
  simp only [isBlank, Bool.or_eq_true, Bool.and_eq_true, decide_eq_true_eq, beq_iff_eq] at h
  simp only [Bool.not_eq_false, isNameChar, Bool.or_eq_true, isAlphanum_iff, beq_iff_eq] at hname
  have hrange : 45 ≤ c.toNat ∧ c.toNat ≤ 122 := by
    rcases hname with (hname | rfl) | rfl
    · omega
    · decide
    · decide
  omega

/-- **An element is its name and its attributes**, and a tag when one of
them carries a directive. -/
theorem element?_name (attributePrefix : Text) {element tail : Text}
    (hfirst : (element.head?.map Char.isAlpha).getD false = true)
    (helement : ∀ c ∈ element, isNameChar c = true)
    (hs : ∀ c, s.head? = some c → isNameChar c = false)
    (hattributes : attributes? s = some (as, tail)) :
    element? attributePrefix (element ++ s) = (carried? attributePrefix as).map fun r =>
      (.element element r.1 r.2.1 r.2.2 tail,
        1 + element.length + (RawAttribute.sources as).length + tail.length) := by
  have htake : (element ++ s).takeWhile isNameChar = element := by
    rw [List.takeWhile_append_of_pos helement]
    cases s with
    | nil => simp
    | cons c s => simp [hs c rfl]
  rw [element?]
  dsimp only
  rw [htake, if_pos hfirst, List.drop_left, hattributes]
  change (carried? attributePrefix as).bind _ = _
  cases carried? attributePrefix as <;> rfl

end Tag

end Template

end FormTemplate
