import FormTemplate.Proofs.Template.Extension
import FormTemplate.Proofs.Template.StartTags

/-!
# Writing the start tag of an element

A `WrittenElement` is the start tag of an element as an author writes it,
with each attribute bare, with a plain value, or with one in quotes. Read in
front of any text, it is a tag of the template exactly when one of its
attributes is named after the input directive, and then its parts are read
back from its source (`WrittenElement.next?_source`).
-/

namespace FormTemplate

namespace Template

open Text Quotation

/-! ## Attributes -/

/-- **The value of an attribute** as it is written in a start tag. -/
inductive WrittenValue where
  /-- No value. -/
  | bare
  /-- A value without quotes around it. -/
  | plain (value : Text) (isQuote_head : ∀ c, value.head? = some c → isQuote c = false)
      (free : ∀ c ∈ value, isBlank c = false ∧ c ≠ '>')
  /-- A value in quotes. -/
  | quoted (q : Char) (value : Text) (isQuote_q : isQuote q = true) (free : q ∉ value)

namespace WrittenValue

/-- What stands behind the name. -/
def source : WrittenValue → Text
  | bare => []
  | plain value _ _ => '=' :: value
  | quoted q value _ _ => '=' :: (q :: value ++ [q])

/-- The value that is meant. -/
def text? : WrittenValue → Option Text
  | bare => none
  | plain value _ _ | quoted _ value _ _ => some value

/-- Whether the value ends with its own delimiter. -/
def IsQuoted : WrittenValue → Prop
  | quoted _ _ _ _ => True
  | bare | plain _ _ _ => False

end WrittenValue

/-- **An attribute in a start tag**, with the white space before it. -/
structure WrittenAttribute where
  /-- The white space before the attribute. -/
  blanks : Text
  /-- The name. -/
  name : Text
  /-- The value. -/
  value : WrittenValue
  /-- White space separates the attribute from what comes before. -/
  blanks_ne_nil : blanks ≠ []
  /-- And nothing else. -/
  isBlank_blanks : ∀ c ∈ blanks, isBlank c = true
  /-- The name is not empty. -/
  name_ne_nil : name ≠ []
  /-- The name ends before its value and before the end of the tag. -/
  free_name : ∀ c ∈ name, isBlank c = false ∧ c ≠ '=' ∧ c ≠ '>'
  /-- The name does not look like the end of the tag. -/
  head_name : name.head? ≠ some '/'

/-- **The end of a value that has no quotes**: white space, or the end of
the tag. -/
def EndsValue (s : Text) : Prop := ∃ c rest, s = c :: rest ∧ (isBlank c = true ∨ c = '>')

theorem RawAttribute.isNameChar_of_endsValue {s : Text} (hs : EndsValue s) :
    ∀ c, s.head? = some c → isNameChar c = false := by
  obtain ⟨d, rest, rfl, hd⟩ := hs
  rintro c hc
  cases hc
  by_contra hname
  obtain ⟨hblank, -, hangle⟩ := isNameChar_iff.1 (Bool.not_eq_false _ ▸ hname)
  rcases hd with hd | rfl
  · rw [hblank] at hd
    cases hd
  · exact hangle rfl

/-- A value without quotes runs to white space or the end of the tag. -/
theorem RawAttribute.value?_plain {v s : Text}
    (hhead : ∀ c, v.head? = some c → isQuote c = false)
    (hv : ∀ c ∈ v, isBlank c = false ∧ c ≠ '>') (hs : EndsValue s) :
    value? (v ++ s) = some (v, v) := by
  obtain ⟨c, rest, rfl, hc⟩ := hs
  have htake : (v ++ c :: rest).takeWhile (fun d => !(isBlank d || d == '>')) = v := by
    rw [List.takeWhile_append_of_pos fun d hd => by simp [hv d hd]]
    rcases hc with hc | rfl <;> simp [*]
  have hquote : ∀ d, (v ++ c :: rest).head? = some d → isQuote d = false := by
    intro d hd
    cases v with
    | nil =>
      cases hd
      rcases hc with hc | rfl
      · exact Arguments.isQuote_of_isBlank hc
      · decide
    | cons e v => exact hhead d hd
  obtain ⟨d, u, hu⟩ := List.exists_cons_of_ne_nil (l := v ++ c :: rest) (by simp)
  rw [hu] at htake hquote ⊢
  rw [value?, hquote d rfl, if_neg Bool.false_ne_true]
  dsimp only
  rw [htake]

namespace WrittenValue

variable (v : WrittenValue) {s : Text}

/-- A value ends the name before it. -/
theorem isNameChar_source_append (h : v.IsQuoted ∨ EndsValue s) :
    ∀ c, (v.source ++ s).head? = some c → RawAttribute.isNameChar c = false := by
  cases v with
  | bare => exact RawAttribute.isNameChar_of_endsValue (h.resolve_left id)
  | plain | quoted =>
    rintro c hc
    cases hc
    decide

/-- **A value is read back behind the name.** -/
theorem afterName?_source_append (h : v.IsQuoted ∨ EndsValue s) (blanks name : Text) :
    RawAttribute.afterName? blanks name (v.source ++ s) =
      some { name, value := v.text?, source := blanks ++ (name ++ v.source) } := by
  cases v with
  | bare =>
    obtain ⟨c, rest, rfl, hc⟩ : EndsValue s := h.resolve_left id
    rw [source, List.nil_append, RawAttribute.afterName?]
    · simp [text?]
    · exact List.cons_ne_nil _ _
    · rintro u heq
      obtain rfl := (List.cons.inj heq).1
      rcases hc with hc | hc <;> cases hc
  | plain value hhead free =>
    rw [source, List.cons_append, RawAttribute.afterName?,
      RawAttribute.value?_plain hhead free (h.resolve_left id)]
    simp [text?]
  | quoted q value hq free =>
    have hassoc : q :: value ++ [q] ++ s = q :: value ++ q :: s := by simp
    rw [source, List.cons_append, RawAttribute.afterName?, hassoc,
      RawAttribute.value?_quoted hq free]
    simp [text?]

end WrittenValue

namespace WrittenAttribute

variable (a : WrittenAttribute)

/-- The attribute and the white space before it. -/
def source : Text := a.blanks ++ (a.name ++ a.value.source)

/-- The attribute that is meant. -/
def raw : RawAttribute := { name := a.name, value := a.value.text?, source := a.source }

/-- An attribute ends the value before it. -/
theorem endsValue_source_append (s : Text) : EndsValue (a.source ++ s) := by
  obtain ⟨b, blanks, hblanks⟩ := List.exists_cons_of_ne_nil a.blanks_ne_nil
  refine ⟨b, blanks ++ (a.name ++ a.value.source) ++ s, ?_, .inl (a.isBlank_blanks b ?_)⟩
  · rw [source, hblanks]
    simp
  · rw [hblanks]
    exact List.mem_cons_self

/-- A start tag does not end at an attribute. -/
theorem tail?_source_append (s : Text) : Tag.tail? (a.source ++ s) = none := by
  obtain ⟨c, rest, hname⟩ := List.exists_cons_of_ne_nil a.name_ne_nil
  obtain ⟨hblank, -, hangle⟩ := a.free_name c (by rw [hname]; exact List.mem_cons_self)
  have hassoc : a.source ++ s = a.blanks ++ c :: (rest ++ (a.value.source ++ s)) := by
    simp [source, hname]
  rw [hassoc]
  refine Tag.tail?_eq_none a.isBlank_blanks hblank hangle ?_
  rintro rfl
  exact absurd (congrArg List.head? hname) a.head_name

/-- **An attribute is read back from its source**, when its value is in
quotes or ends with what follows. -/
theorem read?_source_append {s : Text} (h : a.value.IsQuoted ∨ EndsValue s) :
    RawAttribute.read? (a.source ++ s) = some a.raw := by
  have hname : ∀ c ∈ a.name, RawAttribute.isNameChar c = true :=
    fun c hc => RawAttribute.isNameChar_iff.2 (a.free_name c hc)
  have hassoc : a.source ++ s = a.blanks ++ (a.name ++ (a.value.source ++ s)) := by
    simp [source]
  rw [hassoc, RawAttribute.read?_name a.blanks_ne_nil a.isBlank_blanks a.name_ne_nil hname
    (a.value.isNameChar_source_append h), a.value.afterName?_source_append h]
  rfl

/-- **Attributes are read back one after the other**, up to what ends the
last. -/
theorem attributes_flatMap_source (l : List WrittenAttribute) {s : Text}
    (h : (∀ a, l.getLast? = some a → a.value.IsQuoted) ∨ EndsValue s) :
    Tag.Attributes (l.flatMap source ++ s) (l.map raw) s := by
  induction l with
  | nil => exact .nil
  | cons a l ih =>
    rw [List.flatMap_cons, List.append_assoc, List.map_cons]
    have hends : a.value.IsQuoted ∨ EndsValue (l.flatMap source ++ s) := by
      cases l with
      | nil => exact h.imp_left fun h => h a rfl
      | cons b l =>
        rw [List.flatMap_cons, List.append_assoc]
        exact .inr (b.endsValue_source_append _)
    refine .cons (a := a.raw) (a.tail?_source_append _) (a.read?_source_append hends) (ih ?_)
    cases l with
    | nil => simp
    | cons b l => exact h.imp_left fun h c hc => h c (by simpa using hc)

/-- Among attributes of a name there is a first. -/
theorem exists_first_named {l : List WrittenAttribute} {name : Text}
    (h : ∃ a ∈ l, a.name = name) :
    ∃ former a latter, l = former ++ a :: latter ∧ a.name = name ∧
      ∀ b ∈ former, b.name ≠ name := by
  obtain ⟨b, hb, hnamed⟩ := h
  have hfound : (l.find? fun a => decide (a.name = name)).isSome := by
    rw [List.find?_isSome]
    exact ⟨b, hb, decide_eq_true hnamed⟩
  obtain ⟨a, hfind⟩ := Option.isSome_iff_exists.1 hfound
  obtain ⟨ha, former, latter, hl, hformer⟩ := List.find?_eq_some_iff_append.1 hfind
  exact ⟨former, a, latter, hl, by simpa using ha, by simpa using hformer⟩

/-- An attribute of another name carries no directive. -/
theorem carriedDirective?_raw {attributePrefix : Text} {l : List WrittenAttribute}
    (h : ∀ a ∈ l, a.name ≠ attributePrefix ++ "input".toList) :
    ∀ b ∈ l.map raw, Tag.carriedDirective? attributePrefix b.name = none := by
  intro b hb
  obtain ⟨a, ha, rfl⟩ := List.mem_map.1 hb
  rw [Option.eq_none_iff_forall_ne_some]
  intro d hd
  exact h a ha (Tag.carriedDirective?_eq_some_iff.1 hd).2

end WrittenAttribute

/-! ## Start tags -/

/-- **The start tag of an element as an author writes it.** -/
structure WrittenElement where
  /-- The name of the element. -/
  name : Text
  /-- The attributes. -/
  attributes : List WrittenAttribute
  /-- The white space behind them. -/
  blanks : Text
  /-- Whether a slash stands at the end. -/
  slash : Bool
  /-- The name begins with a letter. -/
  isAlpha_name : ∃ c rest, name = c :: rest ∧ c.isAlpha = true
  /-- And holds letters, digits, hyphens and colons. -/
  plain_name : ∀ c ∈ name, c.isAlphanum = true ∨ c = '-' ∨ c = ':'
  /-- Only white space stands at the end. -/
  isBlank_blanks : ∀ c ∈ blanks, isBlank c = true
  /-- The slash is not part of an attribute. -/
  isQuoted_last : slash = true → blanks = [] →
    ∀ a, attributes.getLast? = some a → a.value.IsQuoted

namespace WrittenElement

variable (t : WrittenElement)

/-- The end of the tag. -/
def tail : Text := t.blanks ++ if t.slash then ['/', '>'] else ['>']

/-- The tag. -/
def source : Text := '<' :: (t.name ++ (t.attributes.flatMap WrittenAttribute.source ++ t.tail))

/-- The attributes that are meant. -/
def raw : List RawAttribute := t.attributes.map WrittenAttribute.raw

theorem tail?_tail_append (after : Text) : Tag.tail? (t.tail ++ after) = some t.tail := by
  have htake : ∀ c s, isBlank c = false →
      (t.blanks ++ c :: s).takeWhile isBlank = t.blanks ∧
      (t.blanks ++ c :: s).dropWhile isBlank = c :: s := by
    intro c s hc
    rw [List.takeWhile_append_of_pos t.isBlank_blanks,
      List.dropWhile_append_of_pos t.isBlank_blanks]
    simp [hc]
  unfold tail
  cases t.slash with
  | false =>
    obtain ⟨hblanks, hrest⟩ := htake '>' after (by decide)
    simp [Tag.tail?, hblanks, hrest]
  | true =>
    obtain ⟨hblanks, hrest⟩ := htake '/' ('>' :: after) (by decide)
    simp [Tag.tail?, hblanks, hrest]

/-- The end of the tag ends the value before it, unless it is the slash. -/
theorem endsValue_tail_append (h : ¬ (t.slash = true ∧ t.blanks = [])) (after : Text) :
    EndsValue (t.tail ++ after) := by
  unfold tail
  cases hblanks : t.blanks with
  | nil =>
    have hslash : t.slash = false := by simpa [hblanks] using h
    rw [hslash]
    exact ⟨'>', after, rfl, .inr rfl⟩
  | cons b blanks =>
    exact ⟨b, _, rfl, .inl (t.isBlank_blanks b (by rw [hblanks]; exact List.mem_cons_self))⟩

/-- **The attributes and the end of the tag are read back.** -/
theorem attributes?_append (after : Text) :
    Tag.attributes? (t.attributes.flatMap WrittenAttribute.source ++ (t.tail ++ after)) =
      some (t.raw, t.tail) := by
  have hends : (∀ a, t.attributes.getLast? = some a → a.value.IsQuoted) ∨
      EndsValue (t.tail ++ after) := by
    by_cases h : t.slash = true ∧ t.blanks = []
    · exact .inl (t.isQuoted_last h.1 h.2)
    · exact .inr (t.endsValue_tail_append h after)
  rw [Tag.attributes?_of_attributes (WrittenAttribute.attributes_flatMap_source _ hends),
    Tag.attributes?_of_tail? (t.tail?_tail_append after)]
  simp [raw]

/-- What follows the name is no part of it. -/
theorem isNameChar_head (after : Text) :
    ∀ c, (t.attributes.flatMap WrittenAttribute.source ++ (t.tail ++ after)).head? = some c →
      Tag.isNameChar c = false := by
  have hends : ∀ {s}, EndsValue s → ∀ c, s.head? = some c → Tag.isNameChar c = false := by
    rintro _ ⟨d, rest, rfl, hd⟩ c hc
    cases hc
    rcases hd with hd | rfl
    · exact Tag.isNameChar_eq_false hd
    · decide
  intro c hc
  cases hattributes : t.attributes with
  | nil =>
    rw [hattributes, List.flatMap_nil, List.nil_append] at hc
    by_cases h : t.slash = true ∧ t.blanks = []
    · rw [tail, h.1, h.2] at hc
      cases hc
      decide
    · exact hends (t.endsValue_tail_append h after) c hc
  | cons a l =>
    rw [hattributes, List.flatMap_cons, List.append_assoc] at hc
    exact hends (a.endsValue_source_append _) c hc

/-- **Whether the text is a tag depends on the attributes only**; if it is,
the whole of it and no more. -/
theorem read?_source_append (attributePrefix after : Text) :
    Tag.read? attributePrefix (t.source ++ after) = (Tag.carried? attributePrefix t.raw).map
      fun r => (.element t.name r.1 r.2.1 r.2.2 t.tail, t.source.length) := by
  have hfirst : (t.name.head?.map Char.isAlpha).getD false = true := by
    obtain ⟨c, rest, hname, hc⟩ := t.isAlpha_name
    simpa [hname] using hc
  have hname : ∀ c ∈ t.name, Tag.isNameChar c = true := by
    intro c hc
    simpa [Tag.isNameChar, or_assoc] using t.plain_name c hc
  have hsources : RawAttribute.sources t.raw = t.attributes.flatMap WrittenAttribute.source := by
    simp [RawAttribute.sources, raw, List.flatMap_map, WrittenAttribute.raw]
  have hassoc : t.source ++ after = '<' ::
      (t.name ++ (t.attributes.flatMap WrittenAttribute.source ++ (t.tail ++ after))) := by
    simp [source]
  have hlength : 1 + t.name.length + (RawAttribute.sources t.raw).length + t.tail.length =
      t.source.length := by
    rw [hsources, source]
    simp only [List.length_cons, List.length_append]
    omega
  rw [hassoc]
  change Tag.element? attributePrefix _ = _
  rw [Tag.element?_name attributePrefix hfirst hname (t.isNameChar_head after)
    (t.attributes?_append after), hlength]

/-- **A start tag is read back from its source**, whatever follows it. When
an attribute is named after the input directive, the first tag of the text
is the element, from its angle bracket to its end: with its name, the value
of the first attribute so named, the other attributes in order, and its end.
Without such an attribute no tag begins with the element, and if none begins
inside it either, the first tag is that of what follows. -/
theorem next?_source (attributePrefix after : Text) :
    ((∃ a ∈ t.attributes, a.name = attributePrefix ++ "input".toList) →
      ∃ former a latter, t.attributes = former ++ a :: latter ∧
        a.name = attributePrefix ++ "input".toList ∧
        (∀ b ∈ former, b.name ≠ attributePrefix ++ "input".toList) ∧
        Tag.next? attributePrefix (t.source ++ after) =
          some ({ before := [], source := t.source
                  tag := .element t.name .input (a.value.text?.getD [])
                    ((former ++ latter).map WrittenAttribute.raw) t.tail }, after)) ∧
    ((∀ a ∈ t.attributes, a.name ≠ attributePrefix ++ "input".toList) →
      Tag.read? attributePrefix (t.source ++ after) = none ∧
      (∀ r, Tag.next? attributePrefix (t.source ++ after) = some r → r.1.before ≠ []) ∧
      ((∀ c ∈ t.source.tail, c ≠ '\x7b' ∧ c ≠ '<') →
        Tag.next? attributePrefix (t.source ++ after) =
          (Tag.next? attributePrefix after).map fun r =>
            ({ r.1 with before := t.source ++ r.1.before }, r.2))) := by
  have hread := t.read?_source_append attributePrefix after
  have hcons : t.source ++ after = '<' :: (t.source.tail ++ after) := rfl
  constructor
  · intro hcarrier
    obtain ⟨former, a, latter, hattributes, ha, hformer⟩ :=
      WrittenAttribute.exists_first_named hcarrier
    refine ⟨former, a, latter, hattributes, ha, hformer, ?_⟩
    have hcarried : Tag.carried? attributePrefix t.raw =
        some (.input, a.value.text?.getD [], (former ++ latter).map WrittenAttribute.raw) := by
      rw [raw, hattributes, List.map_append, List.map_cons,
        Tag.carried?_append (WrittenAttribute.carriedDirective?_raw hformer)
          (Tag.carriedDirective?_eq_some_iff.2 ⟨rfl, ha⟩), List.map_append]
      rfl
    rw [hcarried, Option.map_some] at hread
    rw [hcons, Tag.next?, ← hcons, hread]
    dsimp only
    rw [List.take_left, List.drop_left]
  · intro hplain
    have hcarried : Tag.carried? attributePrefix t.raw = none :=
      Tag.carried?_eq_none (WrittenAttribute.carriedDirective?_raw hplain)
    rw [hcarried, Option.map_none] at hread
    have hnext : Tag.next? attributePrefix (t.source ++ after) =
        (Tag.next? attributePrefix (t.source.tail ++ after)).map fun r =>
          ({ r.1 with before := '<' :: r.1.before }, r.2) := by
      rw [hcons, Tag.next?, ← hcons, hread]
    refine ⟨hread, ?_, ?_⟩
    · intro r hr
      rw [hnext] at hr
      obtain ⟨q, -, rfl⟩ := Option.map_eq_some_iff.1 hr
      exact List.cons_ne_nil _ _
    · intro hinside
      rw [hnext, Tag.next?_append after fun r hr => Tag.le_length_of_next?_append hinside hr,
        Option.map_map]
      rfl

/-- A start tag with an angle bracket in a value, the directive twice, and a
slash at the end of a value. -/
def ofDelimiters : WrittenElement where
  name := ['b', 'r']
  attributes := [
    { blanks := [' ', ' '], name := ['u'], value := .quoted '\'' ['a', '>'] (by decide) (by decide)
      blanks_ne_nil := List.cons_ne_nil _ _, isBlank_blanks := forall_mem_of_all (by decide)
      name_ne_nil := List.cons_ne_nil _ _, free_name := forall_mem_of_all (by decide)
      head_name := by decide },
    { blanks := [' ', '\n'], name := ['n', ':', 'i', 'n', 'p', 'u', 't']
      value := .quoted '\'' ['k', ' ', 'c'] (by decide) (by decide)
      blanks_ne_nil := List.cons_ne_nil _ _, isBlank_blanks := forall_mem_of_all (by decide)
      name_ne_nil := List.cons_ne_nil _ _, free_name := forall_mem_of_all (by decide)
      head_name := by decide },
    { blanks := [' ', ' '], name := ['n', ':', 'i', 'n', 'p', 'u', 't']
      value := .plain ['x', '/'] (fun c hc => by cases hc; decide) (forall_mem_of_all (by decide))
      blanks_ne_nil := List.cons_ne_nil _ _, isBlank_blanks := forall_mem_of_all (by decide)
      name_ne_nil := List.cons_ne_nil _ _, free_name := forall_mem_of_all (by decide)
      head_name := by decide },
    { blanks := [' ', '\n'], name := ['w'], value := .bare
      blanks_ne_nil := List.cons_ne_nil _ _, isBlank_blanks := forall_mem_of_all (by decide)
      name_ne_nil := List.cons_ne_nil _ _, free_name := forall_mem_of_all (by decide)
      head_name := by decide }]
  blanks := [' ', ' ']
  slash := true
  isAlpha_name := ⟨'b', ['r'], rfl, by decide⟩
  plain_name := forall_mem_of_all (by decide)
  isBlank_blanks := forall_mem_of_all (by decide)
  isQuoted_last := fun _ h => absurd h (List.cons_ne_nil _ _)

/-- Its parts are read back with an element behind it; for another prefix it
is no tag. -/
theorem next?_source_ofDelimiters :
    Tag.next? ['n', ':'] ("<br  u='a>' \nn:input='k c'  n:input=x/ \nw  /><i>".toList) =
      some ({ before := [], source := "<br  u='a>' \nn:input='k c'  n:input=x/ \nw  />".toList
              tag := .element ['b', 'r'] .input ['k', ' ', 'c']
                [{ name := ['u'], value := some ['a', '>'], source := "  u='a>'".toList },
                  { name := "n:input".toList, value := some ['x', '/']
                    source := "  n:input=x/".toList },
                  { name := ['w'], value := none, source := " \nw".toList }]
                [' ', ' ', '/', '>'] }, "<i>".toList) ∧
      Tag.read? [] ("<br  u='a>' \nn:input='k c'  n:input=x/ \nw  /><i>".toList) = none := by
  have hsource : ofDelimiters.source ++ "<i>".toList =
      "<br  u='a>' \nn:input='k c'  n:input=x/ \nw  /><i>".toList := by
    decide +kernel
  rw [← hsource]
  constructor
  · obtain ⟨former, a, latter, hattributes, ha, hformer, hnext⟩ :=
      (ofDelimiters.next?_source ['n', ':'] "<i>".toList).1 (by
        refine ⟨_, List.mem_cons_of_mem _ List.mem_cons_self, ?_⟩
        decide +kernel)
    -- The second attribute is the first of the name.
    match former with
    | [] =>
      obtain ⟨rfl, -⟩ := List.cons.inj hattributes
      exact absurd ha (by decide +kernel)
    | [b] =>
      obtain ⟨rfl, hrest⟩ := List.cons.inj hattributes
      obtain ⟨rfl, rfl⟩ := List.cons.inj hrest
      rw [hnext]
      repeat rw [Text.toList_eq (by rfl)]
      rfl
    | b :: c :: former =>
      obtain ⟨rfl, hrest⟩ := List.cons.inj hattributes
      obtain ⟨rfl, -⟩ := List.cons.inj hrest
      exact absurd (by decide +kernel) (hformer _ (List.mem_cons_of_mem _ List.mem_cons_self))
  · exact ((ofDelimiters.next?_source [] "<i>".toList).2 (by decide +kernel)).1

end WrittenElement

end Template

end FormTemplate
