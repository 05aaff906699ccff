import FormTemplate.Markup.Element
import FormTemplate.Proofs.Text.Cutting

/-!
# Reading tags

What the page prints is read by others. `unescape` reads a text that was
written with entities, and `readTag?` a start tag with its attributes, whose
values stand in double quotes. Both undo the writers of this library:
`unescape_escape`, `readTag?_startTag`. No text gets out of the place it is
written in, for what is escaped holds no quote and no bracket
(`not_mem_escape`); so a sequence of tags can be cut at one set of places
only (`eq_of_flatten_tags_eq`).
-/

namespace FormTemplate

namespace Markup

/-! ## Texts -/

/-- **The text that was written with entities.** An ampersand that begins
none of them stands for itself. -/
def unescape : Text → Text
  | '&' :: 'a' :: 'm' :: 'p' :: ';' :: s => '&' :: unescape s
  | '&' :: 'l' :: 't' :: ';' :: s => '<' :: unescape s
  | '&' :: 'g' :: 't' :: ';' :: s => '>' :: unescape s
  | '&' :: 'q' :: 'u' :: 'o' :: 't' :: ';' :: s => '"' :: unescape s
  | '&' :: '#' :: '3' :: '9' :: ';' :: s => '\'' :: unescape s
  | c :: s => c :: unescape s
  | [] => []

theorem unescape_cons {c : Char} (h : c ≠ '&') (s : Text) :
    unescape (c :: s) = c :: unescape s := by
  rw [unescape] <;> simp_all

theorem unescape_escapeChar (c : Char) (s : Text) :
    unescape (escapeChar c ++ s) = c :: unescape s := by
  rw [escapeChar]
  split
  · next h => simp [unescape, h]
  split
  · next h => simp [unescape, h]
  split
  · next h => simp [unescape, h]
  split
  · next h => simp [unescape, h]
  split
  · next h => simp [unescape, h]
  · next h _ _ _ _ => exact unescape_cons h s

/-- **Escaping loses nothing.** -/
theorem unescape_escape (s : Text) : unescape (escape s) = s := by
  induction s with
  | nil => rfl
  | cons c s ih =>
    rw [escape_eq, List.flatMap_cons, unescape_escapeChar, ← escape_eq, ih]

/-- The characters that may end the place a text is written in. -/
def isDelimiter (c : Char) : Bool := c == '<' || c == '>' || c == '"' || c == '\''

/-- **What is escaped stays in its place.** -/
theorem not_mem_escape {c : Char} (h : isDelimiter c = true) (s : Text) : c ∉ escape s := by
  rw [escape_eq, List.mem_flatMap]
  rintro ⟨d, -, hd⟩
  have hc : ((c = '<' ∨ c = '>') ∨ c = '"') ∨ c = '\'' := by simpa [isDelimiter] using h
  rw [escapeChar] at hd
  split at hd
  · rcases hc with ((rfl | rfl) | rfl) | rfl <;> simp at hd
  split at hd
  · rcases hc with ((rfl | rfl) | rfl) | rfl <;> simp at hd
  split at hd
  · rcases hc with ((rfl | rfl) | rfl) | rfl <;> simp at hd
  split at hd
  · rcases hc with ((rfl | rfl) | rfl) | rfl <;> simp at hd
  split at hd
  · rcases hc with ((rfl | rfl) | rfl) | rfl <;> simp at hd
  · rw [List.mem_singleton] at hd
    subst hd
    simp_all

/-! ## Attributes -/

/-- The characters of names: all but white space, quotes, brackets, the
equals sign and the slash. -/
def isNameChar (c : Char) : Bool :=
  !(Text.isBlank c || isDelimiter c || c == '=' || c == '/')

/-- A text that can be read as the name of an attribute. -/
def IsName (s : Text) : Prop := s ≠ [] ∧ ∀ c ∈ s, isNameChar c = true

instance (s : Text) : Decidable (IsName s) :=
  decidable_of_iff (s.isEmpty = false ∧ s.all isNameChar = true) (by simp [IsName])

/-- Reads what follows the name of an attribute: an equals sign and a value
in double quotes, or nothing for a flag that is on. -/
def readValue? : Text → Option (AttributeValue × Text)
  | '=' :: '"' :: s => (Text.cut? '"' s).map fun p => (.text (unescape p.1), p.2)
  | s => some (.flag true, s)

/-- Reads an attribute: its name, and its value. -/
def readAttribute? (s : Text) : Option ((Text × AttributeValue) × Text) :=
  let name := s.takeWhile isNameChar
  if name = [] then none
  else (readValue? (s.dropWhile isNameChar)).map fun p => ((name, p.1), p.2)

theorem length_le_of_readValue? {s : Text} {p : AttributeValue × Text}
    (h : readValue? s = some p) : p.2.length ≤ s.length := by
  rw [readValue?.eq_def] at h
  split at h
  · obtain ⟨q, hq, rfl⟩ := Option.map_eq_some_iff.1 h
    rw [Text.eq_of_cut? hq]
    simp only [List.length_cons, List.length_append]
    omega
  · cases h
    exact Nat.le_refl _

theorem length_le_of_readAttribute? {s : Text} {p : (Text × AttributeValue) × Text}
    (h : readAttribute? s = some p) : p.2.length ≤ s.length := by
  rw [readAttribute?] at h
  split at h
  · cases h
  · obtain ⟨q, hq, rfl⟩ := Option.map_eq_some_iff.1 h
    exact Nat.le_trans (length_le_of_readValue? hq) (List.dropWhile_sublist isNameChar).length_le

/-- Reads the attributes of a tag, each with a space in front of it, and
the bracket that closes the tag. -/
def readAttributes? : Text → Option (Attributes × Text)
  | '>' :: rest => some ([], rest)
  | ' ' :: s =>
    match _h : readAttribute? s with
    | some p => (readAttributes? p.2).map fun q => (p.1 :: q.1, q.2)
    | none => none
  | _ => none
termination_by s => s.length
decreasing_by
  have := length_le_of_readAttribute? _h
  simp only [List.length_cons]
  omega

/-- **Reads a start tag**: its name, its attributes, and the text after
it. -/
def readTag? : Text → Option (Text × Attributes × Text)
  | '<' :: s =>
    if (s.head?.any Char.isAlpha) then
      (readAttributes? (s.dropWhile isNameChar)).map (s.takeWhile isNameChar, ·)
    else none
  | _ => none

/-! ## Reading what is written -/

/-- A name ends where no name goes on. -/
theorem span_isNameChar {name : Text} (h : ∀ c ∈ name, isNameChar c = true) {d : Char}
    (hd : isNameChar d = false) (s : Text) :
    (name ++ d :: s).takeWhile isNameChar = name ∧
      (name ++ d :: s).dropWhile isNameChar = d :: s := by
  constructor
  · rw [List.takeWhile_append_of_pos h, List.takeWhile_cons_of_neg (by simp [hd]),
      List.append_nil]
  · rw [List.dropWhile_append_of_pos h, List.dropWhile_cons_of_neg (by simp [hd])]

/-- A name that no equals sign follows is a flag. -/
theorem readAttribute?_flag {name : Text} (hname : IsName name) {d : Char}
    (hd : isNameChar d = false) (heq : d ≠ '=') (s : Text) :
    readAttribute? (name ++ d :: s) = some ((name, .flag true), d :: s) := by
  obtain ⟨htake, hdrop⟩ := span_isNameChar hname.2 hd s
  have hvalue : readValue? (d :: s) = some (.flag true, d :: s) := by
    rw [readValue?]
    rintro t ⟨⟩
    exact heq rfl
  rw [readAttribute?, htake, hdrop, if_neg hname.1, hvalue, Option.map_some]

/-- A value comes back as it was before it was escaped. -/
theorem readAttribute?_text {name : Text} (hname : IsName name) (value s : Text) :
    readAttribute? (name ++ '=' :: '"' :: (escape value ++ '"' :: s)) =
      some ((name, .text value), s) := by
  obtain ⟨htake, hdrop⟩ := span_isNameChar hname.2 (d := '=') (by decide)
    ('"' :: (escape value ++ '"' :: s))
  rw [readAttribute?, htake, hdrop, if_neg hname.1, readValue?,
    Text.cut?_append (not_mem_escape (by decide) value), Option.map_some, Option.map_some,
    unescape_escape]

/-- The attributes that a tag shows: all but the flags that are off. -/
def Attributes.shown (as : Attributes) : Attributes := as.filter (·.2 ≠ .flag false)

/-- What a value prints behind its name. -/
def valueSource : AttributeValue → Text
  | .text s => "=\"".toList ++ escape s ++ ['"']
  | .flag _ => []

/-- **The attributes that show are printed**, in their order, each behind a
space. -/
theorem source_eq_flatMap_shown (as : Attributes) :
    as.source = as.shown.flatMap fun a => ' ' :: a.1 ++ valueSource a.2 := by
  induction as with
  | nil => rfl
  | cons a as ih =>
    obtain ⟨name, value⟩ := a
    rw [Attributes.source, List.flatMap_cons, ← Attributes.source, ih]
    match value with
    | .flag false => rfl
    | .flag true =>
      have hflag : ' ' :: name ++ valueSource (.flag true) = ' ' :: name := List.append_nil _
      exact congrArg (· ++ _) hflag.symm
    | .text s =>
      have htext : ' ' :: name ++ valueSource (.text s) =
          Attributes.itemSource (name, .text s) := by
        simp [valueSource, Attributes.itemSource]
      exact congrArg (· ++ _) htext.symm

/-- A flag that is off prints nothing. -/
theorem source_shown (as : Attributes) : as.shown.source = as.source := by
  have hshown : as.shown.shown = as.shown := by simp [Attributes.shown]
  rw [source_eq_flatMap_shown, hshown, ← source_eq_flatMap_shown]

theorem readAttributes?_space {s : Text} {p : (Text × AttributeValue) × Text}
    (h : readAttribute? s = some p) :
    readAttributes? (' ' :: s) = (readAttributes? p.2).map fun q => (p.1 :: q.1, q.2) := by
  rw [readAttributes?]
  split
  · next q hq => cases h.symm.trans hq; rfl
  · next hq => cases h.symm.trans hq

/-- Whatever attributes follow a name, it ends before them. -/
theorem exists_source_eq (as : Attributes) (rest : Text) :
    ∃ d s, as.source ++ '>' :: rest = d :: s ∧ isNameChar d = false ∧ d ≠ '=' := by
  induction as with
  | nil => exact ⟨'>', rest, rfl, by decide, by decide⟩
  | cons a as ih =>
    obtain ⟨name, value⟩ := a
    rw [Attributes.source, List.flatMap_cons]
    match value with
    | .flag false => exact ih
    | .flag true => exact ⟨' ', _, rfl, by decide, by decide⟩
    | .text s => exact ⟨' ', _, rfl, by decide, by decide⟩

/-- **The attributes of a tag are read as they were written.** -/
theorem readAttributes?_source {as : Attributes} (h : ∀ a ∈ as, IsName a.1) (rest : Text) :
    readAttributes? (as.source ++ '>' :: rest) = some (as.shown, rest) := by
  induction as with
  | nil =>
    rw [Attributes.source, List.flatMap_nil, List.nil_append, readAttributes?]
    rfl
  | cons a as ih =>
    obtain ⟨name, value⟩ := a
    obtain ⟨hname, has⟩ := List.forall_mem_cons.1 h
    rw [Attributes.source, List.flatMap_cons, List.append_assoc]
    match value with
    | .flag false => exact ih has
    | .flag true =>
      obtain ⟨d, s, hds, hd, heq⟩ := exists_source_eq as rest
      have hflag := readAttribute?_flag hname hd heq s
      rw [← hds] at hflag
      refine (readAttributes?_space hflag).trans ?_
      rw [ih has]
      rfl
    | .text value =>
      have htext := readAttribute?_text hname value (Attributes.source as ++ '>' :: rest)
      have hsource : ∀ s, Attributes.itemSource (name, .text value) ++ s =
          ' ' :: (name ++ '=' :: '"' :: (escape value ++ '"' :: s)) := by
        simp [Attributes.itemSource]
      refine (congrArg _ (hsource _)).trans ((readAttributes?_space htext).trans ?_)
      rw [ih has]
      rfl

/-- A tag name ends before the attributes, and they are read behind it. -/
theorem read_name_source {name : Text} {as : Attributes} (hname : ∀ c ∈ name, isNameChar c = true)
    (h : ∀ a ∈ as, IsName a.1) (rest : Text) :
    (name ++ (as.source ++ '>' :: rest)).takeWhile isNameChar = name ∧
      readAttributes? ((name ++ (as.source ++ '>' :: rest)).dropWhile isNameChar) =
        some (as.shown, rest) := by
  obtain ⟨d, s, hds, hd, -⟩ := exists_source_eq as rest
  obtain ⟨htake, hdrop⟩ := span_isNameChar hname hd s
  rw [← hds] at htake hdrop
  exact ⟨htake, by rw [hdrop, readAttributes?_source h]⟩

theorem startTag_append {name : Text} (hname : name ≠ []) (as : Attributes) (rest : Text) :
    startTag name as ++ rest = '<' :: (name ++ (as.source ++ '>' :: rest)) := by
  simp [startTag, hname]

/-- **A start tag is read as it was written.** -/
theorem readTag?_startTag {name : Text} {as : Attributes}
    (hfirst : name.head?.any Char.isAlpha = true) (hname : ∀ c ∈ name, isNameChar c = true)
    (h : ∀ a ∈ as, IsName a.1) (rest : Text) :
    readTag? (startTag name as ++ rest) = some (name, as.shown, rest) := by
  obtain ⟨c, name, rfl⟩ : ∃ c t, name = c :: t := by
    cases name with
    | nil => cases hfirst
    | cons c t => exact ⟨c, t, rfl⟩
  obtain ⟨htake, hattributes⟩ := read_name_source hname h rest
  rw [startTag_append (List.cons_ne_nil c name), readTag?, if_pos (by simpa using hfirst), htake,
    hattributes]
  rfl

/-! ## Cutting markup into tags -/

/-- **A tag of a name**: nothing in it closes it before its end. -/
def IsTag (name t : Text) : Prop := ∃ inner, t = '<' :: name ++ inner ++ ['>'] ∧ '>' ∉ inner

/-- The attributes of a tag do not close it. -/
theorem not_mem_source {as : Attributes} (h : ∀ a ∈ as, IsName a.1) : '>' ∉ as.source := by
  rw [Attributes.source, List.mem_flatMap]
  rintro ⟨⟨name, value⟩, ha, hmem⟩
  have hname : '>' ∉ name := fun hc => absurd ((h _ ha).2 _ hc) (by decide)
  have hescape : ∀ s, '>' ∉ escape s := not_mem_escape (by decide)
  match value with
  | .flag false => cases hmem
  | .flag true => simp [Attributes.itemSource, hname] at hmem
  | .text s => simp [Attributes.itemSource, hname, hescape] at hmem

theorem isTag_startTag {name : Text} {as : Attributes} (hname : name ≠ [])
    (h : ∀ a ∈ as, IsName a.1) : IsTag name (startTag name as) := by
  refine ⟨as.source, ?_, not_mem_source h⟩
  rw [startTag, if_neg (by simpa using hname)]

/-- Two texts that begin with a tag begin with the same. -/
theorem IsTag.eq_of_append_eq {name t u x y : Text} (ht : IsTag name t) (hu : IsTag name u)
    (h : t ++ x = u ++ y) : t = u ∧ x = y := by
  obtain ⟨inner, rfl, hinner⟩ := ht
  obtain ⟨inner', rfl, hinner'⟩ := hu
  have hafter : inner ++ '>' :: x = inner' ++ '>' :: y := by simpa using h
  have hcut := congrArg (Text.cut? '>') hafter
  rw [Text.cut?_append hinner, Text.cut?_append hinner'] at hcut
  cases hcut
  exact ⟨rfl, rfl⟩

/-- **Tags can be cut in one way only**, also in front of a text that
begins with none. -/
theorem eq_of_flatten_tags_eq {name m n : Text} (hm : ∀ t x, IsTag name t → m ≠ t ++ x)
    (hn : ∀ t x, IsTag name t → n ≠ t ++ x) {ts us : List Text} (hts : ∀ t ∈ ts, IsTag name t)
    (hus : ∀ u ∈ us, IsTag name u) (h : ts.flatten ++ m = us.flatten ++ n) :
    ts = us ∧ m = n := by
  induction ts generalizing us with
  | nil =>
    cases us with
    | nil => exact ⟨rfl, h⟩
    | cons u us =>
      exact absurd (by simpa using h) (hm u (us.flatten ++ n) (hus u List.mem_cons_self))
  | cons t ts ih =>
    obtain ⟨ht, htail⟩ := List.forall_mem_cons.1 hts
    cases us with
    | nil => exact absurd (by simpa using h.symm) (hn t (ts.flatten ++ m) ht)
    | cons u us =>
      obtain ⟨hu, hutail⟩ := List.forall_mem_cons.1 hus
      rw [List.flatten_cons, List.flatten_cons, List.append_assoc, List.append_assoc] at h
      obtain ⟨rfl, hrest⟩ := ht.eq_of_append_eq hu h
      obtain ⟨rfl, hmn⟩ := ih htail hutail hrest
      exact ⟨rfl, hmn⟩

end Markup

end FormTemplate
