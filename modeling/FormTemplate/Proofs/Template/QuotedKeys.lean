import FormTemplate.Proofs.Template.StartTags
import FormTemplate.Proofs.Template.Steps

/-!
# Quoted keys

In quotes a word of a directive may hold anything but the quote itself.
Four readers have to agree on that: the search for the end of a tag, the
cut into words, the cut of an input's word at its colons, and the one that
takes the quotes off. The first two do (`exists_read?_brace_quoted`,
`exists_read?_element_quoted`, `Arguments.words_quoted`). The cut at the colons
comes before the quotes are taken off and does not look at them, so that
the key of an input may not hold a colon; every other quoted key is looked
up as it stands (`compile_looks_up_quoted_key`).
-/

namespace FormTemplate

namespace Template

open Text Quotation

/-! ## Tags with a quoted word -/

namespace Tag

variable {q : Char} {t blanks rest after : Text} {d : Directive} {attributePrefix : Text}

/-- **A quoted word stays the first word of a tag**: the white space in
front of it goes, and what closes the tag at its end is cut off behind
it. -/
theorem exists_ofContent?_quoted (d : Directive) (hq : isQuote q = true) (ht : q ∉ t)
    (hne : blanks ≠ []) (hblanks : ∀ c ∈ blanks, isBlank c = true) (hrest : rest.EndsWord) :
    ∃ arguments selfClosing words,
      ofContent? (d.name ++ blanks ++ (q :: t ++ q :: rest)) =
        some (.opening d arguments selfClosing) ∧
      Arguments.words arguments = (q :: t ++ [q]) :: words := by
  have hblank := Arguments.isBlank_of_isQuote hq
  have htrim : trim (blanks ++ (q :: t ++ q :: rest)) = q :: t ++ q :: trimEnd rest := by
    rw [trim, trimStart_append hblanks]
    have hstart : trimStart (q :: t ++ q :: rest) = q :: t ++ q :: rest := by
      simp [trimStart, hblank]
    rw [hstart, trimEnd_append_cons hblank]
  have htrimmed : (trimEnd rest).EndsWord := hrest.of_isPrefix (trimEnd_isPrefix rest)
  have hname : Directive.EndsName (blanks ++ (q :: t ++ q :: rest)) := by
    obtain ⟨b, blanks, rfl⟩ := List.exists_cons_of_ne_nil hne
    rintro c hc
    cases hc
    exact .inl (hblanks b List.mem_cons_self)
  rw [List.append_assoc, ofContent?_name d hname, htrim]
  dsimp only
  split
  · next hslash =>
    -- The slash at the end is not the quote, so it stands behind the word.
    rw [Bool.and_eq_true, beq_iff_eq, List.getLast?_append_cons] at hslash
    obtain ⟨front, last, hfront⟩ : ∃ front last, trimEnd rest = front ++ [last] := by
      rcases List.eq_nil_or_concat (trimEnd rest) with hnil | ⟨front, last, hconcat⟩
      · rw [hnil] at hslash
        obtain rfl : q = '/' := by simpa using hslash.1
        cases hq
      · exact ⟨front, last, by simpa using hconcat⟩
    have hbefore : (q :: t ++ q :: trimEnd rest).dropLast = q :: t ++ q :: front := by
      rw [hfront, ← List.cons_append, ← List.append_assoc, List.dropLast_concat]
    rw [hfront] at htrimmed
    have hends : (trimEnd front).EndsWord :=
      htrimmed.of_isPrefix ((trimEnd_isPrefix front).trans (List.prefix_append front [last]))
    rw [hbefore, trimEnd_append_cons hblank]
    exact ⟨_, _, _, rfl, Arguments.words_quoted hq ht hends⟩
  · exact ⟨_, _, _, rfl, Arguments.words_quoted hq ht htrimmed⟩

/-- **A tag in braces is read past its quoted word** to the closing brace
outside quotes. -/
theorem exists_read?_brace_quoted (attributePrefix : Text) (d : Directive)
    (hq : isQuote q = true) (ht : q ∉ t) (hne : blanks ≠ [])
    (hblanks : ∀ c ∈ blanks, isBlank c = true) (hrest : rest.EndsWord)
    (hend : spanUntil (· == '\x7d') none (rest ++ '\x7d' :: after) = (rest, '\x7d' :: after)) :
    ∃ arguments selfClosing words,
      read? attributePrefix
          ('\x7b' :: (d.name ++ blanks ++ (q :: t ++ q :: rest)) ++ '\x7d' :: after) =
        some (.opening d arguments selfClosing,
          (d.name ++ blanks ++ (q :: t ++ q :: rest)).length + 2) ∧
      Arguments.words arguments = (q :: t ++ [q]) :: words := by
  obtain ⟨arguments, selfClosing, words, hcontent, hwords⟩ :=
    exists_ofContent?_quoted d hq ht hne hblanks hrest
  have hstop : (q == '\x7d') = false := by
    simp only [isQuote, Bool.or_eq_true, beq_iff_eq] at hq
    rcases hq with rfl | rfl <;> decide
  have hpassed : Passed (· == '\x7d') (d.name ++ blanks ++ (q :: t ++ [q])) :=
    ((passed_name d).append (passed_blanks hblanks)).append (passed_quoted hq hstop ht)
  have hspan : spanUntil (· == '\x7d') none
      (d.name ++ blanks ++ (q :: t ++ q :: rest) ++ '\x7d' :: after) =
      (d.name ++ blanks ++ (q :: t ++ q :: rest), '\x7d' :: after) := by
    have hassoc : d.name ++ blanks ++ (q :: t ++ q :: rest) ++ '\x7d' :: after =
        d.name ++ blanks ++ (q :: t ++ [q]) ++ (rest ++ '\x7d' :: after) := by simp
    rw [hassoc, spanUntil_append_of_hides hpassed.hides, hpassed.closed, hend]
    simp
  refine ⟨arguments, selfClosing, words, ?_, hwords⟩
  change brace? (d.name ++ blanks ++ (q :: t ++ q :: rest) ++ '\x7d' :: after) = _
  rw [brace?, hspan]
  dsimp only
  rw [hcontent]
  rfl

end Tag

/-! ## Attributes with a quoted word -/

namespace Tag

variable {q : Char} {v blanks name s r : Text} {d : Directive} {attributePrefix : Text}

/-- An attribute with a value in quotes is one of those a text begins
with. -/
theorem attributes_quoted (hq : isQuote q = true) (hv : q ∉ v) (hne : blanks ≠ [])
    (hblanks : ∀ c ∈ blanks, isBlank c = true) (hnonempty : name ≠ [])
    (hname : ∀ c ∈ name, RawAttribute.isNameChar c = true) (r : Text) :
    Attributes (blanks ++ name ++ '=' :: q :: v ++ q :: r)
      [{ name, value := some v, source := blanks ++ name ++ '=' :: q :: v ++ [q] }] r := by
  have hread := RawAttribute.read?_quoted hq hv hne hblanks hnonempty hname r
  have hassoc : blanks ++ name ++ '=' :: q :: v ++ q :: r =
      blanks ++ name ++ '=' :: q :: v ++ [q] ++ r := by simp
  obtain ⟨c, rest, rfl⟩ := List.exists_cons_of_ne_nil hnonempty
  obtain ⟨hblank, -, hangle⟩ := RawAttribute.isNameChar_iff.1 (hname c List.mem_cons_self)
  have htail : tail? (blanks ++ (c :: rest) ++ '=' :: q :: v ++ [q] ++ r) = none := by
    have hnone := tail?_eq_none (s := rest ++ '=' :: q :: (v ++ q :: r)) hblanks hblank hangle
      (by
        -- After a slash comes the rest of the name or the equals sign.
        rintro -
        cases rest with
        | nil => simp
        | cons d rest =>
          have hd := (RawAttribute.isNameChar_iff.1 (hname d (by simp))).2.2
          simpa using hd)
    simpa using hnone
  rw [hassoc] at hread ⊢
  exact .cons (a := { name := c :: rest, value := some v, source := _ }) htail hread .nil

/-- **A start tag is read with the value of the attribute that carries its
directive**, whatever is quoted there. -/
theorem exists_read?_element_quoted {element tail : Text} {before after : List RawAttribute}
    (hfirst : (element.head?.map Char.isAlpha).getD false = true)
    (helement : ∀ c ∈ element, isNameChar c = true) (hq : isQuote q = true) (hv : q ∉ v)
    (hne : blanks ≠ []) (hblanks : ∀ c ∈ blanks, isBlank c = true)
    (hname : ∀ c ∈ name, RawAttribute.isNameChar c = true)
    (hd : carriedDirective? attributePrefix name = some d)
    (hbefore : ∀ b ∈ before, carriedDirective? attributePrefix b.name = none)
    (hs : Attributes s before (blanks ++ name ++ '=' :: q :: v ++ q :: r))
    (hr : attributes? r = some (after, tail)) :
    ∃ length, read? attributePrefix ('<' :: element ++ s) =
      some (.element element d v (before ++ after) tail, length) := by
  have hnonempty : name ≠ [] := by
    rw [(carriedDirective?_eq_some_iff.1 hd).2]
    exact List.append_ne_nil_of_right_ne_nil _ (Directive.name_ne_nil _)
  have hall : attributes? s =
      some (before ++ { name, value := some v, source := blanks ++ name ++ '=' :: q :: v ++ [q] } ::
        after, tail) := by
    rw [attributes?_of_attributes hs,
      attributes?_of_attributes (attributes_quoted hq hv hne hblanks hnonempty hname r), hr]
    simp
  have hbegins : ∀ c, s.head? = some c → isNameChar c = false := by
    refine fun c hc => isNameChar_eq_false (hs.head?_isBlank (fun c hc => ?_) c hc)
    obtain ⟨b, blanks, rfl⟩ := List.exists_cons_of_ne_nil hne
    obtain rfl : b = c := by simpa using hc
    exact hblanks b (by simp)
  have hread := element?_name attributePrefix hfirst helement hbegins hall
  rw [carried?_append hbefore hd] at hread
  exact ⟨_, hread⟩

end Tag

/-! ## What the code looks up -/

/-- The key that a statement looks up, or the expression that gives it a
component. -/
def Statement.target? : Statement → Option Word
  | .letForm name | .letContainer name => some name
  | .letInput e => some (.expression e)
  | .withLabel k => some (.literal k)
  | .printControl (.key k) _ _ | .printAttributes (.key k) _ _ _ => some (.literal k)
  | _ => none

/-- The modifiers of the control that a statement prints. -/
def Statement.modifiers : Statement → List Word
  | .printControl _ parts _ | .printAttributes _ _ parts _ => parts
  | _ => []

namespace Script

/-- **What the code of steps looks up**, in order. -/
def targets (s : Script) : List Word :=
  s.flatMap fun step => step.statements.filterMap Statement.target?

/-- The modifiers that the code of steps passes on. -/
def modifiers (s : Script) : List Word :=
  s.flatMap fun step => step.statements.flatMap Statement.modifiers

@[simp] theorem targets_cons (step : Step) (s : Script) :
    targets (step :: s) = targets [step] ++ targets s := by simp [targets]

@[simp] theorem modifiers_cons (step : Step) (s : Script) :
    modifiers (step :: s) = modifiers [step] ++ modifiers s := by simp [modifiers]

theorem targets_closingSteps (d : Directive) (hasBody : Bool) :
    targets (d.closingSteps hasBody) = [] := by
  cases d <;> cases hasBody <;> rfl

theorem modifiers_closingSteps (d : Directive) (hasBody : Bool) :
    modifiers (d.closingSteps hasBody) = [] := by
  cases d <;> cases hasBody <;> rfl

end Script

/-- The directive of a tag that opens one, and its arguments. -/
def Tag.request? : Tag → Option (Directive × Text)
  | .opening d arguments _ => some (d, arguments)
  | .element _ _ arguments _ _ => some (.input, arguments)
  | .closing _ => none

namespace Directive

variable {d : Directive} {arguments word : Text} {words : List Text} {step : Step}
variable {q : Char} {t : Text}

/-- What a directive takes its first word for: a name and modifiers. -/
def reading? (d : Directive) (word : Text) : Option (Word × List Word) :=
  match d with
  | .input => reference? word
  | _ => some (.ofText word, [])

/-- An opening tag looks up what its first word is read as. -/
theorem targets_of_openingStep? {hasBody : Bool}
    (hwords : Arguments.words arguments = word :: words)
    (h : d.openingStep? arguments hasBody = some step) :
    ∃ name, d.reading? word = some (name, Script.modifiers [step]) ∧
      Script.targets [step] = [name] := by
  unfold openingStep? at h
  rw [hwords] at h
  cases d with
  | form | formContainer =>
    cases h
    exact ⟨_, rfl, rfl⟩
  | label =>
    cases h
    change ∃ name, some (Word.ofText word, []) = _ ∧ _
    generalize Word.ofText word = name
    cases name <;> exact ⟨_, rfl, rfl⟩
  | input =>
    obtain ⟨⟨name, parts⟩, hreference, rfl⟩ := Option.map_eq_some_iff.1 h
    refine ⟨name, ?_, ?_⟩
    · rw [reading?, hreference]
      cases name <;> simp [Script.modifiers, Step.statements, Step.withControl, Statement.modifiers]
    · cases name <;> rfl

theorem targets_of_attributeStep? {name : Text} {attributes : List RawAttribute}
    (hwords : Arguments.words arguments = word :: words)
    (h : attributeStep? name arguments attributes = some step) :
    ∃ name, input.reading? word = some (name, Script.modifiers [step]) ∧
      Script.targets [step] = [name] := by
  unfold attributeStep? at h
  rw [hwords] at h
  obtain ⟨⟨name, parts⟩, hreference, rfl⟩ := Option.map_eq_some_iff.1 h
  refine ⟨name, ?_, ?_⟩
  · rw [reading?, hreference]
    cases name <;> simp [Script.modifiers, Step.statements, Step.withControl, Statement.modifiers]
  · cases name <;> rfl

/-- **At a tag the code looks up what the first word is read as**, and
nothing else. -/
theorem targets_of_steps? {tag : Tag} {source : Text} {hasBody : Bool} {part : Script}
    (hrequest : tag.request? = some (d, arguments))
    (hwords : Arguments.words arguments = word :: words)
    (h : (Piece.tag tag source).steps? hasBody = some part) :
    ∃ name, d.reading? word = some (name, part.modifiers) ∧ part.targets = [name] := by
  cases tag with
  | closing d => cases hrequest
  | opening d' arguments' selfClosing =>
    cases hrequest
    obtain ⟨step, hstep, rfl⟩ := Option.map_eq_some_iff.1 h
    obtain ⟨name, hreading, htargets⟩ := targets_of_openingStep? hwords hstep
    -- What closes the directive looks up nothing.
    have hclosing : Script.targets (if d.isPaired && selfClosing then d.closingSteps false else []) =
        [] ∧ Script.modifiers (if d.isPaired && selfClosing then d.closingSteps false else []) =
        [] := by
      split
      · exact ⟨Script.targets_closingSteps d false, Script.modifiers_closingSteps d false⟩
      · exact ⟨rfl, rfl⟩
    rw [Script.targets_cons, Script.modifiers_cons, hclosing.1, hclosing.2, List.append_nil,
      List.append_nil]
    exact ⟨name, hreading, htargets⟩
  | element name d' arguments' attributes tail =>
    cases hrequest
    obtain ⟨step, hstep, rfl⟩ := Option.map_eq_some_iff.1 h
    obtain ⟨word', hreading, htargets⟩ := targets_of_attributeStep? hwords hstep
    refine ⟨word', ?_, ?_⟩
    · rw [hreading, Script.modifiers_cons, Script.modifiers_cons]
      simp [Script.modifiers, Step.statements, Statement.modifiers]
    · rw [Script.targets_cons, Script.targets_cons step, htargets]
      rfl

end Directive

/-! ## Quoted words -/

/-- **The first word of the arguments is a text in quotes.** -/
structure QuotedFirst (q : Char) (t arguments : Text) : Prop where
  /-- The quote is one. -/
  quote : isQuote q = true
  /-- The text does not hold it. -/
  free : q ∉ t
  /-- It is the first word. -/
  first : ∃ words, Arguments.words arguments = (q :: t ++ [q]) :: words

namespace Directive

variable {d : Directive} {q : Char} {t : Text}

/-- **A quoted word is read as what stands in the quotes**, except for an
input when a colon is among it. -/
theorem reading?_quoted (hq : isQuote q = true) (h : ¬ (d = .input ∧ ':' ∈ t)) :
    d.reading? (q :: t ++ [q]) = some (.literal t, []) := by
  have hword := Word.ofText_quoted hq t
  cases d with
  | form | formContainer | label => exact congrArg (fun w => some (w, [])) hword
  | input =>
    have hcolon : ':' ∉ q :: t ++ [q] := by
      intro hmem
      rcases List.mem_append.1 hmem with hmem | hmem
      · rcases List.mem_cons.1 hmem with rfl | hmem
        · cases hq
        · exact h ⟨rfl, hmem⟩
      · rw [List.mem_singleton] at hmem
        subst hmem
        cases hq
    rw [reading?, reference?, pieces_of_not_mem hcolon]
    simp [← hword]

/-- **An input cuts a quoted word at its colons.** The quote in front stays
in the key, and what follows the first colon is taken for modifiers. -/
theorem reading?_quoted_of_colon (hq : isQuote q = true) (hfree : q ∉ t) (ht : ':' ∈ t) :
    input.reading? (q :: t ++ [q]) = some (.literal (q :: t.takeWhile (· != ':')),
      (pieces (· == ':') (t ++ [q])).tail.map .ofText) := by
  have hseparator : ':' ≠ q := by
    rintro rfl
    cases hq
  obtain ⟨before, after, rfl, hbefore⟩ := List.eq_append_cons_of_mem ht
  have hkey : q ∉ before := fun hmem => hfree (List.mem_append_left _ hmem)
  have htake : (before ++ ':' :: after).takeWhile (· != ':') = before := by
    rw [List.takeWhile_append_of_pos]
    · simp
    · intro c hc
      rw [bne_iff_ne]
      rintro rfl
      exact hbefore hc
  have hassoc : before ++ ':' :: after ++ [q] = before ++ ':' :: (after ++ [q]) := by simp
  rw [htake, List.cons_append, hassoc, pieces_append_cons hbefore, ← List.cons_append, reading?,
    reference?, pieces_append_cons (List.not_mem_cons_of_ne_of_not_mem hseparator hbefore),
    ← Word.ofText_of_unclosed hq hkey]
  rfl

end Directive

/-- **A tag in braces whose first word is in quotes**, in front of the rest
of a template. -/
structure BraceTag (d : Directive) (q : Char) (t after : Text) where
  /-- What stands before the word. -/
  blanks : Text
  /-- What follows the word in the tag. -/
  rest : Text
  /-- The word is not part of the name. -/
  blanks_ne_nil : blanks ≠ []
  /-- Only white space stands before the word. -/
  isBlank_blanks : ∀ c ∈ blanks, isBlank c = true
  /-- The word ends with the quote. -/
  endsWord_rest : rest.EndsWord
  /-- What follows the word is in the tag, up to the brace that ends it. -/
  closes : spanUntil (· == '\x7d') none (rest ++ '\x7d' :: after) = (rest, '\x7d' :: after)

/-- The source of the tag. -/
def BraceTag.source {d : Directive} {q : Char} {t after : Text} (b : BraceTag d q t after) :
    Text :=
  '\x7b' :: (d.name ++ b.blanks ++ (q :: t ++ q :: b.rest)) ++ ['\x7d']

/-- **A start tag with a directive whose first word is in quotes**: some
attributes, then the one that carries the directive, then others. -/
structure StartTag (attributePrefix : Text) (d : Directive) (q : Char) (t : Text) where
  /-- The name of the element. -/
  element : Text
  /-- The attributes before the directive's. -/
  before : List RawAttribute
  /-- What stands before the name of the directive's attribute. -/
  blanks : Text
  /-- The name of the directive's attribute. -/
  name : Text
  /-- The quote around its value. -/
  delimiter : Char
  /-- What stands before the word in the value. -/
  indent : Text
  /-- What follows the word in the value. -/
  rest : Text
  /-- What follows the value. -/
  following : Text
  /-- The attributes after the directive's, and the end of the tag. -/
  others : List RawAttribute × Text
  /-- The source from the first attribute on. -/
  attributes : Text
  /-- The element's name begins with a letter. -/
  isAlpha_element : (element.head?.map Char.isAlpha).getD false = true
  /-- The element's name ends at the first attribute. -/
  isNameChar_element : ∀ c ∈ element, Tag.isNameChar c = true
  /-- The source of the attributes. -/
  reads : Tag.Attributes attributes before
    (blanks ++ name ++ '=' :: delimiter :: (indent ++ (q :: t ++ q :: rest)) ++
      delimiter :: following)
  /-- None before it carries a directive. -/
  carries_before : ∀ b ∈ before, Tag.carriedDirective? attributePrefix b.name = none
  /-- White space stands before the attribute. -/
  blanks_ne_nil : blanks ≠ []
  /-- And nothing else. -/
  isBlank_blanks : ∀ c ∈ blanks, isBlank c = true
  /-- The attribute's name is one. -/
  isNameChar_name : ∀ c ∈ name, RawAttribute.isNameChar c = true
  /-- It stands for the directive. -/
  carries : Tag.carriedDirective? attributePrefix name = some d
  /-- The value is in quotes. -/
  isQuote_delimiter : isQuote delimiter = true
  /-- Which do not occur in it. -/
  free_delimiter : delimiter ∉ indent ++ (q :: t ++ q :: rest)
  /-- Only white space stands before the word. -/
  isBlank_indent : ∀ c ∈ indent, isBlank c = true
  /-- The word ends with its quote. -/
  endsWord_rest : rest.EndsWord
  /-- The tag is read to its end. -/
  reads_others : Tag.attributes? following = some others

/-- The source of the tag and what follows it. -/
def StartTag.source {attributePrefix : Text} {d : Directive} {q : Char} {t : Text}
    (tag : StartTag attributePrefix d q t) : Text :=
  '<' :: tag.element ++ tag.attributes

/-- A directive with a quoted word has a name. -/
theorem QuotedFirst.hasName {q : Char} {t arguments : Text} (h : QuotedFirst q t arguments)
    (d : Directive) : d.HasName arguments := by
  obtain ⟨words, hwords⟩ := h.first
  have hseparator : q ≠ ':' := by
    intro heq
    have hq := h.quote
    rw [heq] at hq
    cases hq
  cases d with
  | form | formContainer | label =>
    rw [Directive.HasName, hwords] <;> simp
  | input => exact ⟨_, words, hwords, by simp [hseparator]⟩

/-- **Where a quoted key is looked up.** A tag in braces whose name is
followed by a text in quotes is read with that text as its first word,
whatever it holds, and so is a start tag with such a value in the attribute
that carries a directive. In every template that compiles, the code at such
a tag looks up the text in the quotes and passes on no modifiers, unless it
is an input and the text holds a colon: then the key is what stands before
the colon, with the quote in front, and the rest are modifiers. -/
theorem compile_looks_up_quoted_key {options : Options} {template : Text} {p : Program}
    (h : compile options template = .ok p) :
    (∀ d q t after, isQuote q = true → q ∉ t → ∀ tag : BraceTag d q t after,
      ∃ arguments selfClosing,
        Tag.read? options.attributePrefix (tag.source ++ after) =
          some (.opening d arguments selfClosing, tag.source.length) ∧
        QuotedFirst q t arguments ∧ d.HasName arguments) ∧
    (∀ d q t, isQuote q = true → q ∉ t → ∀ tag : StartTag options.attributePrefix d q t,
      ∃ arguments length,
        Tag.read? options.attributePrefix tag.source =
          some (.element tag.element d arguments (tag.before ++ tag.others.1) tag.others.2,
            length) ∧
        QuotedFirst q t arguments ∧ Directive.HasName .input arguments) ∧
    ∃ parts, Piece.allSteps? false (Piece.ofText options.attributePrefix template) = some parts ∧
      p = Script.program options.runtimePath parts.flatten ∧
      ∀ before tag source after d arguments q t,
        Piece.ofText options.attributePrefix template = before ++ .tag tag source :: after →
        tag.request? = some (d, arguments) → QuotedFirst q t arguments →
        ∃ former part latter, parts = former ++ part :: latter ∧
          former.length = before.length ∧
          (¬ (d = .input ∧ ':' ∈ t) → part.targets = [.literal t] ∧ part.modifiers = []) ∧
          (d = .input ∧ ':' ∈ t →
            part.targets = [.literal (q :: t.takeWhile (· != ':'))] ∧
            part.modifiers = (pieces (· == ':') (t ++ [q])).tail.map .ofText ∧
            part.modifiers ≠ []) := by
  refine ⟨?_, ?_, ?_⟩
  · intro d q t after hq ht tag
    obtain ⟨arguments, selfClosing, words, hread, hwords⟩ :=
      Tag.exists_read?_brace_quoted options.attributePrefix d hq ht tag.blanks_ne_nil
        tag.isBlank_blanks tag.endsWord_rest tag.closes
    have hquoted : QuotedFirst q t arguments := ⟨hq, ht, words, hwords⟩
    have hsource : tag.source ++ after = '\x7b' :: (d.name ++ tag.blanks ++
        (q :: t ++ q :: tag.rest)) ++ '\x7d' :: after := by simp [BraceTag.source]
    have hlength : tag.source.length =
        (d.name ++ tag.blanks ++ (q :: t ++ q :: tag.rest)).length + 2 := by
      rw [BraceTag.source, List.cons_append, List.length_cons, List.length_append,
        List.length_singleton]
    rw [hsource, hlength]
    exact ⟨arguments, selfClosing, hread, hquoted, hquoted.hasName d⟩
  · intro d q t hq ht tag
    obtain ⟨length, hread⟩ := Tag.exists_read?_element_quoted tag.isAlpha_element
      tag.isNameChar_element tag.isQuote_delimiter tag.free_delimiter tag.blanks_ne_nil
      tag.isBlank_blanks tag.isNameChar_name tag.carries tag.carries_before tag.reads
      tag.reads_others
    have hwords := Arguments.words_quoted hq ht tag.endsWord_rest
    rw [← Arguments.words_append_of_isBlank tag.isBlank_indent] at hwords
    have hquoted : QuotedFirst q t (tag.indent ++ (q :: t ++ q :: tag.rest)) :=
      ⟨hq, ht, _, hwords⟩
    exact ⟨_, length, hread, hquoted, hquoted.hasName .input⟩
  · obtain ⟨parts, hlaidOut, rfl⟩ := laidOut_of_compile h
    refine ⟨parts, hlaidOut.allSteps?_eq, rfl, ?_⟩
    intro before tag source after d arguments q t hpieces hrequest hquoted
    have hsteps := hlaidOut.allSteps?_eq
    rw [hpieces] at hsteps
    obtain ⟨former, part, latter, hparts, hlength, -, hpart⟩ :=
      Piece.exists_of_allSteps?_append_cons hsteps
    obtain ⟨words, hwords⟩ := hquoted.first
    obtain ⟨name, hreading, htargets⟩ := Directive.targets_of_steps? hrequest hwords hpart
    refine ⟨former, part, latter, hparts, hlength, ?_, ?_⟩
    · intro hplain
      rw [Directive.reading?_quoted hquoted.quote hplain] at hreading
      obtain ⟨rfl, hmodifiers⟩ := Prod.mk.inj (Option.some.inj hreading)
      exact ⟨htargets, hmodifiers.symm⟩
    · rintro ⟨rfl, hcolon⟩
      rw [Directive.reading?_quoted_of_colon hquoted.quote hquoted.free hcolon] at hreading
      obtain ⟨rfl, hmodifiers⟩ := Prod.mk.inj (Option.some.inj hreading)
      refine ⟨htargets, hmodifiers.symm, ?_⟩
      rw [← hmodifiers, Ne, List.map_eq_nil_iff, tail_pieces_eq_nil]
      intro hnone
      have hfirst := hnone ':' (by simp [hcolon])
      cases hfirst

/-- The tag of an input with a colon in its quoted key. -/
def colonTag : BraceTag .input '\'' ['a', ':', 'b'] [] where
  blanks := [' ']
  rest := []
  blanks_ne_nil := List.cons_ne_nil _ _
  isBlank_blanks := List.all_eq_true.1 (by decide)
  endsWord_rest := by simp [EndsWord]
  closes := by decide

/-- A start tag whose key holds white space and braces. -/
def bracesTag : StartTag "n:".toList .input '\'' ['a', ' ', '\x7d', '\x7b'] where
  element := ['b']
  before := []
  blanks := [' ']
  name := "n:input".toList
  delimiter := '"'
  indent := []
  rest := []
  following := ['>']
  others := ([], ['>'])
  attributes := ' ' :: "n:input".toList ++ '=' :: "\"'a \x7d\x7b'\">".toList
  isAlpha_element := by decide
  isNameChar_element := List.all_eq_true.1 (by decide)
  reads := by
    repeat rw [Text.toList_eq (by rfl)]
    exact .nil
  carries_before := by simp
  blanks_ne_nil := List.cons_ne_nil _ _
  isBlank_blanks := List.all_eq_true.1 (by decide)
  isNameChar_name := by
    rw [Text.toList_eq (by rfl)]
    exact List.all_eq_true.1 (by decide)
  carries := by decide +kernel
  isQuote_delimiter := by decide
  free_delimiter := by decide
  isBlank_indent := by simp
  endsWord_rest := by simp [EndsWord]
  reads_others := by decide +kernel

/-- An input with a colon in its key asks for another key and passes on a
modifier; braces in a key do not matter. -/
theorem compile_looks_up_quoted_key_of_colon :
    ∃ p part arguments length, compile {} colonTag.source = .ok p ∧
      p = Script.program ({} : Options).runtimePath part ∧
      Script.targets part = [.literal ['\'', 'a']] ∧
      Script.modifiers part = [.literal ['b', '\'']] ∧
      Tag.read? "n:".toList bracesTag.source =
        some (.element ['b'] .input arguments [] ['>'], length) ∧
      QuotedFirst '\'' ['a', ' ', '\x7d', '\x7b'] arguments := by
  have hisOk : (compile {} colonTag.source).isOk = true := by decide +kernel
  have hpieces : Piece.ofText ({} : Options).attributePrefix colonTag.source =
      [] ++ [.tag (.opening .input ['\'', 'a', ':', 'b', '\''] false) colonTag.source] := by
    decide +kernel
  have hquoted : QuotedFirst '\'' ['a', ':', 'b'] ['\'', 'a', ':', 'b', '\''] :=
    ⟨by decide, by decide, [], by decide +kernel⟩
  cases hok : compile {} colonTag.source with
  | error e => rw [hok] at hisOk; cases hisOk
  | ok p =>
    obtain ⟨-, hattribute, parts, hparts, rfl, hkeys⟩ := compile_looks_up_quoted_key hok
    obtain ⟨former, part, latter, rfl, hlength, -, hcolon⟩ :=
      hkeys [] _ _ [] .input _ _ _ hpieces rfl hquoted
    obtain ⟨htargets, hmodifiers, -⟩ := hcolon ⟨rfl, by decide⟩
    obtain ⟨arguments, length, hread, hfirst, -⟩ :=
      hattribute _ _ _ (by decide) (by decide) bracesTag
    -- There is one piece and so one part.
    obtain rfl := List.length_eq_zero_iff.1 hlength
    rw [hpieces] at hparts
    obtain ⟨part', others, -, hothers, heq⟩ := Piece.allSteps?_cons_eq_some.1 hparts
    cases hothers
    cases heq
    refine ⟨_, part, arguments, length, rfl, by simp, htargets, ?_, hread, hfirst⟩
    rw [hmodifiers]
    decide +kernel

end Template

end FormTemplate
