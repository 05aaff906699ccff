import FormTemplate.Proofs.Template.BraceTags
import FormTemplate.Template.AttributeList

/-!
# Writing the tag of a directive

A `WrittenTag` is the opening tag of a directive as an author writes it: a
key in apostrophes, then attributes that are flags, texts in apostrophes, or
expressions, with any white space between them. What a tag means is read
back from its source (`WrittenTag.read?_source`), whatever the key and the
texts hold: braces, slashes, equals signs, and quotes of the other kind. The
search for the closing brace, the slash that closes the tag and the cut into
words each look at quotes, and `Quotation.Passed` is what all of them see.
-/

namespace FormTemplate

namespace Template

open Text Quotation

/-! ## Attributes -/

/-- **The value of an attribute** as it is written in the arguments of a
directive. -/
inductive WrittenAssignment where
  /-- No value. -/
  | flag
  /-- A text in apostrophes. -/
  | text (value : Text) (free : '\'' ∉ value)
  /-- An expression. -/
  | expression (code : Text) (ne_nil : code ≠ [])
      (plain : ∀ c ∈ code, isBlank c = false ∧ isQuote c = false ∧ c ≠ '\x7d')

namespace WrittenAssignment

/-- What stands behind the name. -/
def source : WrittenAssignment → Text
  | flag => []
  | text value _ => '=' :: ('\'' :: value ++ ['\''])
  | expression code _ _ => '=' :: Word.sigil :: code

/-- What the attribute is set to. -/
def assignment : WrittenAssignment → Assignment
  | flag => .flag
  | text value _ => .value (.literal value)
  | expression code _ _ => .value (.expression code)

end WrittenAssignment

/-- **An attribute in the arguments of a directive**, with the white space
before it. -/
structure WrittenArgument where
  /-- The white space before the attribute. -/
  blanks : Text
  /-- The name. -/
  name : Text
  /-- The value. -/
  value : WrittenAssignment
  /-- The attribute is a word of its own. -/
  blanks_ne_nil : blanks ≠ []
  /-- And only white space stands before it. -/
  isBlank_blanks : ∀ c ∈ blanks, isBlank c = true
  /-- The name is not empty. -/
  name_ne_nil : name ≠ []
  /-- No delimiter of the tag is in the name. -/
  plain_name : ∀ c ∈ name,
    isBlank c = false ∧ isQuote c = false ∧ c ≠ '=' ∧ c ≠ '/' ∧ c ≠ '\x7d'

namespace WrittenArgument

variable (a : WrittenArgument)

/-- The attribute without the white space before it. -/
def word : Text := a.name ++ a.value.source

/-- The attribute and the white space before it. -/
def source : Text := a.blanks ++ a.word

/-- The attribute that is meant. -/
def item : Text × Assignment := (a.name, a.value.assignment)

theorem word_ne_nil : a.word ≠ [] := List.append_ne_nil_of_left_ne_nil a.name_ne_nil _

/-- **An attribute is passed by a cut** at white space and at the closing
brace. -/
theorem passed_word {stop : Char → Bool}
    (hstop : ∀ c, stop c = true → isBlank c = true ∨ c = '\x7d') : Passed stop a.word := by
  have hplain : ∀ c, isBlank c = false → c ≠ '\x7d' → stop c = false := by
    intro c hc hbrace
    by_contra hstops
    rw [Bool.not_eq_false] at hstops
    rcases hstop c hstops with hblank | heq
    · rw [hc] at hblank
      cases hblank
    · exact hbrace heq
  have hname : Passed stop a.name := passed_of_plain fun c hc => by
    obtain ⟨hblank, hquote, -, -, hbrace⟩ := a.plain_name c hc
    exact ⟨hquote, hplain c hblank hbrace⟩
  refine hname.append ?_
  cases a.value with
  | flag => exact passed_nil
  | text value free =>
    have hequals : Passed stop ['='] := passed_of_plain (by
      simpa using ⟨by decide, hplain '=' (by decide) (by decide)⟩)
    exact hequals.append
      (passed_quoted (by decide) (hplain '\'' (by decide) (by decide)) free)
  | expression code hne plain =>
    refine passed_of_plain fun c hc => ?_
    simp only [WrittenAssignment.source, List.mem_cons] at hc
    rcases hc with rfl | rfl | hc
    · exact ⟨by decide, hplain '=' (by decide) (by decide)⟩
    · exact ⟨by decide, hplain Word.sigil (by decide) (by decide)⟩
    · obtain ⟨hblank, hquote, hbrace⟩ := plain c hc
      exact ⟨hquote, hplain c hblank hbrace⟩

theorem trimmed_word : a.word.Trimmed := by
  have hname : ∀ c ∈ a.name, isBlank c = false := fun c hc => (a.plain_name c hc).1
  unfold word
  cases a.value with
  | flag => simpa [WrittenAssignment.source] using trimmed_of_forall hname
  | text value free =>
    have hquote : Trimmed ['\''] := trimmed_of_forall (forall_mem_of_all (by decide))
    have htrimmed := (trimmed_of_forall hname).append a.name_ne_nil hquote
      (List.cons_ne_nil _ _) ('=' :: '\'' :: value)
    simpa [WrittenAssignment.source] using htrimmed
  | expression code hne plain =>
    refine trimmed_of_forall fun c hc => ?_
    simp only [WrittenAssignment.source, List.mem_append, List.mem_cons] at hc
    rcases hc with hc | rfl | rfl | hc
    · exact hname c hc
    · decide
    · decide
    · exact (plain c hc).1

/-- An attribute does not begin with a slash. -/
theorem word_ne_slash : a.word ≠ ['/'] := by
  obtain ⟨c, name, hname⟩ := List.exists_cons_of_ne_nil a.name_ne_nil
  intro heq
  rw [word, hname, List.cons_append] at heq
  obtain rfl := (List.cons.inj heq).1
  exact (a.plain_name '/' (by rw [hname]; exact List.mem_cons_self)).2.2.2.1 rfl

/-- **The word of an attribute spells the attribute.** -/
theorem ofWord_word : AttributeList.ofWord a.word = a.item := by
  have hname : '=' ∉ a.name := fun hmem => (a.plain_name '=' hmem).2.2.1 rfl
  unfold AttributeList.ofWord word item
  cases a.value with
  | flag => rw [WrittenAssignment.source, List.append_nil, cut?_eq_none.2 hname]; rfl
  | text value free =>
    rw [WrittenAssignment.source, cut?_append hname]
    dsimp only
    rw [Word.ofText_quoted (by decide)]
    rfl
  | expression code hne plain =>
    rw [WrittenAssignment.source, cut?_append hname]
    dsimp only
    rw [Word.ofText_sigil hne]
    rfl

/-- What follows a word begins with the white space of the next attribute. -/
theorem endsWord_flatMap_source (l : List WrittenArgument) : EndsWord (l.flatMap source) := by
  cases l with
  | nil => simp [EndsWord]
  | cons a l =>
    obtain ⟨b, blanks, hblanks⟩ := List.exists_cons_of_ne_nil a.blanks_ne_nil
    rintro c hc
    rw [List.flatMap_cons, source, hblanks] at hc
    cases hc
    exact a.isBlank_blanks b (by rw [hblanks]; exact List.mem_cons_self)

/-- The words of attributes are the attributes. -/
theorem words_flatMap_source (l : List WrittenArgument) :
    Arguments.words (l.flatMap source) = l.map word := by
  induction l with
  | nil => rfl
  | cons a l ih =>
    rw [List.flatMap_cons, source, List.append_assoc,
      Arguments.words_append_of_isBlank a.isBlank_blanks,
      Arguments.words_word_append a.word_ne_nil (a.passed_word fun c hc => .inl hc)
        (endsWord_flatMap_source l), ih, List.map_cons]

end WrittenArgument

/-! ## Tags -/

/-- **The opening tag of a directive as an author writes it**, with the key
in apostrophes. -/
structure WrittenTag where
  /-- The directive. -/
  directive : Directive
  /-- The key. -/
  key : Text
  /-- The attributes. -/
  attributes : List WrittenArgument
  /-- The white space behind them. -/
  blanks : Text
  /-- Whether the tag closes itself. -/
  selfClosing : Bool
  /-- The key holds no apostrophe. -/
  free_key : '\'' ∉ key
  /-- Only white space stands at the end. -/
  isBlank_blanks : ∀ c ∈ blanks, isBlank c = true

namespace WrittenTag

variable (t : WrittenTag)

/-- The key as it is written. -/
def quotedKey : Text := '\'' :: t.key ++ ['\'']

/-- The key and the attributes. -/
def arguments : Text := t.quotedKey ++ t.attributes.flatMap WrittenArgument.source

/-- What stands between the braces. -/
def content : Text :=
  t.directive.name ++ ([' '] ++ (t.arguments ++
    (t.blanks ++ if t.selfClosing then [' ', '/'] else [])))

/-- The tag. -/
def source : Text := '\x7b' :: t.content ++ ['\x7d']

theorem quotedKey_ne_nil : t.quotedKey ≠ [] := List.cons_ne_nil _ _

theorem passed_quotedKey {stop : Char → Bool} (hstop : stop '\'' = false) :
    Passed stop t.quotedKey :=
  passed_quoted (by decide) hstop t.free_key

/-- **The words of a tag** are its key and its attributes. -/
theorem words_arguments :
    Arguments.words t.arguments = t.quotedKey :: t.attributes.map WrittenArgument.word := by
  rw [arguments, Arguments.words_word_append t.quotedKey_ne_nil
    (t.passed_quotedKey (by decide)) (WrittenArgument.endsWord_flatMap_source _),
    WrittenArgument.words_flatMap_source]

theorem passed_arguments : Passed (· == '\x7d') t.arguments := by
  refine (t.passed_quotedKey (by decide)).append (passed_flatMap fun a _ => ?_)
  exact (Tag.passed_blanks a.isBlank_blanks).append
    (a.passed_word fun c hc => .inr (by simpa using hc))

/-- The tag goes on to its closing brace. -/
theorem passed_content : Passed (· == '\x7d') t.content := by
  have hslash : Passed (· == '\x7d') (if t.selfClosing then [' ', '/'] else []) := by
    cases t.selfClosing with
    | false => exact passed_nil
    | true => exact passed_of_plain (forall_mem_of_all (by decide))
  exact (Tag.passed_name t.directive).append
    ((passed_of_plain (forall_mem_of_all (by decide))).append
      (t.passed_arguments.append ((Tag.passed_blanks t.isBlank_blanks).append hslash)))

theorem trimmed_arguments : t.arguments.Trimmed := by
  have hkey : t.quotedKey.Trimmed := by
    have hquote : Trimmed ['\''] := trimmed_of_forall (forall_mem_of_all (by decide))
    exact hquote.append (List.cons_ne_nil _ _) hquote (List.cons_ne_nil _ _) t.key
  -- From the end, because it is the last attribute that ends the arguments.
  rcases List.eq_nil_or_concat t.attributes with hnil | ⟨front, a, hconcat⟩
  · rw [arguments, hnil]
    simpa using hkey
  · have hall := hkey.append t.quotedKey_ne_nil a.trimmed_word a.word_ne_nil
      (front.flatMap WrittenArgument.source ++ a.blanks)
    rw [arguments, hconcat]
    simpa [WrittenArgument.source] using hall

/-- **No slash at the end of the arguments closes the tag**: it would be a
word of its own, and none of the words is one. -/
theorem not_closesItself_arguments : ¬ Tag.ClosesItself t.arguments := by
  have hnot : ['/'] ∉ Arguments.words t.arguments := by
    rw [words_arguments, List.mem_cons, List.mem_map]
    rintro (heq | ⟨a, -, heq⟩)
    · cases heq
    · exact a.word_ne_slash heq
  rintro (heq | ⟨front, c, hc, heq⟩)
  · rw [heq] at hnot
    exact hnot (by decide +kernel)
  · have hclosed := t.passed_arguments.closed
    have hplain : ∀ d ∈ [c, '/'], isQuote d = false := by
      simpa using ⟨Arguments.isQuote_of_isBlank hc, by decide⟩
    rw [heq] at hclosed hnot
    rw [Arguments.words_append_of_closed ((closed_append_iff hplain).1 hclosed)
      (by rintro d hd; cases hd; exact hc), Arguments.words_cons_of_isBlank hc] at hnot
    exact hnot (List.mem_append_right _ (by decide +kernel))

/-- **The text between the braces spells the tag that is meant.** -/
theorem spells_content :
    Tag.Spells t.content (.opening t.directive t.arguments t.selfClosing) := by
  have hspace : ∀ c ∈ [' '], isBlank c = true := forall_mem_of_all (by decide)
  have hends : ∀ s, Directive.EndsName ([' '] ++ s) := by
    rintro s c hc
    cases hc
    exact .inl (by decide)
  unfold content
  cases t.selfClosing with
  | false =>
    rw [if_neg Bool.false_ne_true]
    have htrim : trim ([' '] ++ (t.arguments ++ (t.blanks ++ []))) = t.arguments :=
      trim_between hspace t.trimmed_arguments (by simpa using t.isBlank_blanks)
    have hspells := Tag.Spells.opening (d := t.directive) (hends (t.arguments ++ (t.blanks ++ [])))
      (by rw [htrim]; exact t.not_closesItself_arguments)
    rwa [htrim] at hspells
  | true =>
    rw [if_pos rfl]
    have hslash := t.trimmed_arguments.append (List.cons_ne_nil _ _) (t := ['/'])
      (trimmed_of_forall (forall_mem_of_all (by decide))) (List.cons_ne_nil _ _) (t.blanks ++ [' '])
    have htrim : trim ([' '] ++ (t.arguments ++ (t.blanks ++ [' ', '/']))) =
        t.arguments ++ (t.blanks ++ [' ']) ++ ['/'] := by
      have hnone : ∀ c ∈ ([] : Text), isBlank c = true := by simp
      have hbetween := trim_between hspace hslash hnone
      simpa using hbetween
    refine .selfClosing (hends _) ?_ htrim ?_ t.trimmed_arguments
    · rw [htrim]
      exact .inr ⟨t.arguments ++ t.blanks, ' ', by decide, by simp⟩
    · simpa [or_imp, forall_and] using ⟨t.isBlank_blanks, by decide⟩

/-- **A tag is read back from its source**, whatever follows it: with its
directive and whether it closes itself, and its arguments are the key, as a
literal, and then the attributes, in order and each with its value. -/
theorem read?_source (attributePrefix after : Text) :
    Tag.read? attributePrefix (t.source ++ after) =
        some (.opening t.directive t.arguments t.selfClosing, t.source.length) ∧
      ∃ word a, (Arguments.ofText t.arguments).next = (some word, a) ∧
        Word.ofText word = .literal t.key ∧
        AttributeList.ofWords a.all.1 = t.attributes.map WrittenArgument.item := by
  constructor
  · have hsource : t.source ++ after = '\x7b' :: (t.content ++ '\x7d' :: after) := by
      simp [source]
    rw [hsource]
    exact Tag.brace?_eq_some_iff.2 ⟨t.content, after, rfl, t.passed_content.closed,
      t.passed_content.hides, t.spells_content, by simp [source]⟩
  · obtain ⟨rest, hnext, hrest⟩ := Arguments.next_of_words_cons
      (a := Arguments.ofText t.arguments) t.words_arguments
    refine ⟨t.quotedKey, _, hnext, Word.ofText_quoted (by decide) t.key, ?_⟩
    rw [Arguments.all, hrest, AttributeList.ofWords, List.map_map]
    exact List.map_congr_left fun a _ => a.ofWord_word

/-- A form whose key and title hold what ends tags, words and names. -/
def ofDelimiters : WrittenTag where
  directive := .form
  key := ['a', '\x7d', ' ', 'b']
  attributes := [
    { blanks := ['\n'], name := ['x'], value := .flag
      blanks_ne_nil := List.cons_ne_nil _ _, isBlank_blanks := forall_mem_of_all (by decide)
      name_ne_nil := List.cons_ne_nil _ _, plain_name := forall_mem_of_all (by decide) },
    { blanks := ['\t'], name := ['t'], value := .text ['"', ' ', '/', '\x7d', '='] (by decide)
      blanks_ne_nil := List.cons_ne_nil _ _, isBlank_blanks := forall_mem_of_all (by decide)
      name_ne_nil := List.cons_ne_nil _ _, plain_name := forall_mem_of_all (by decide) },
    { blanks := ['\n', ' '], name := ['y']
      value := .expression ['f', '/'] (List.cons_ne_nil _ _) (forall_mem_of_all (by decide))
      blanks_ne_nil := List.cons_ne_nil _ _, isBlank_blanks := forall_mem_of_all (by decide)
      name_ne_nil := List.cons_ne_nil _ _, plain_name := forall_mem_of_all (by decide) }]
  blanks := ['\t']
  selfClosing := true
  free_key := by decide
  isBlank_blanks := forall_mem_of_all (by decide)

/-- Its tag is read back with a tag behind it. -/
theorem read?_source_ofDelimiters :
    ∃ arguments word a,
      Tag.read? [] ("\x7bform 'a\x7d b'\nx\tt='\" /\x7d='\n y=$f/\t /\x7d\x7b/form\x7d".toList) =
        some (.opening .form arguments true, 35) ∧
      (Arguments.ofText arguments).next = (some word, a) ∧
      Word.ofText word = .literal ['a', '\x7d', ' ', 'b'] ∧
      AttributeList.ofWords a.all.1 =
        [(['x'], .flag), (['t'], .value (.literal ['"', ' ', '/', '\x7d', '='])),
          (['y'], .value (.expression ['f', '/']))] := by
  obtain ⟨hread, word, a, hword, hkey, hattributes⟩ :=
    ofDelimiters.read?_source [] "\x7b/form\x7d".toList
  have hsource : ofDelimiters.source ++ "\x7b/form\x7d".toList =
      "\x7bform 'a\x7d b'\nx\tt='\" /\x7d='\n y=$f/\t /\x7d\x7b/form\x7d".toList := by
    decide +kernel
  have hlength : ofDelimiters.source.length = 35 := by decide +kernel
  rw [hsource, hlength] at hread
  exact ⟨ofDelimiters.arguments, word, a, hread, hword, hkey, hattributes⟩

end WrittenTag

end Template

end FormTemplate
