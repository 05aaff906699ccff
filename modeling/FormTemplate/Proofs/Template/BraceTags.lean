import FormTemplate.Proofs.Template.Scanning
import FormTemplate.Proofs.Template.Words

/-!
# Tags in braces

`Tag.Spells` is the grammar of what may stand between the braces of a tag:
the name of a directive after a slash, or the name and then the arguments,
with a slash at the end when the tag closes itself. `Tag.brace?_eq_some_iff`
says that the reader takes the text up to the first closing brace outside
quotes and accepts it exactly when the grammar has it. The search for that
brace and the cut into words see the same quotes, so the arguments of a tag
close theirs and so does each word of them
(`Tag.closed_of_spells`, `Arguments.closed_of_mem_words`).
-/

namespace FormTemplate

namespace Template

open Text Quotation

/-! ## Names of directives -/

namespace Directive

/-- The name of a directive is a word without a slash. -/
theorem forall_mem_name (d : Directive) : ∀ c ∈ d.name, (!(isBlank c || c == '/')) = true := by
  cases d <;>
  · delta Directive.name
    dsimp only
    rw [Text.toList_eq (by rfl)]
    exact List.all_eq_true.1 (by decide)

theorem plain_name (d : Directive) :
    ∀ c ∈ d.name, isQuote c = false ∧ (c == '\x7d') = false := by
  cases d <;>
  · delta Directive.name
    dsimp only
    rw [Text.toList_eq (by rfl)]
    simp [isQuote]

theorem name_ne_nil (d : Directive) : d.name ≠ [] := by
  cases d <;>
  · delta Directive.name
    dsimp only
    rw [Text.toList_eq (by rfl)]
    exact List.cons_ne_nil _ _

theorem ofName?_name (d : Directive) : ofName? d.name = some d := by
  cases d <;> decide +kernel

theorem ofName?_eq_some_iff {s : Text} {d : Directive} : ofName? s = some d ↔ s = d.name := by
  constructor
  · intro h
    have hname := List.find?_some h
    exact (eq_of_beq hname).symm
  · rintro rfl
    exact ofName?_name d

theorem exists_name_eq_cons (d : Directive) :
    ∃ c name, d.name = c :: name ∧ isBlank c = false ∧ c ≠ '/' := by
  obtain ⟨c, name, hname⟩ := List.exists_cons_of_ne_nil d.name_ne_nil
  have hc := d.forall_mem_name c (by rw [hname]; exact List.mem_cons_self)
  simp only [Bool.not_eq_true', Bool.or_eq_false_iff, beq_eq_false_iff_ne] at hc
  exact ⟨c, name, hname, hc⟩

/-- A name does not end with white space. -/
theorem trimEnd_name_append {blanks : Text} (d : Directive)
    (hblanks : ∀ c ∈ blanks, isBlank c = true) : trimEnd (d.name ++ blanks) = d.name := by
  rw [trimEnd_append_of_isBlank hblanks, trimEnd_eq_self]
  intro c hc
  have hname := d.forall_mem_name c (List.mem_of_getLast? hc)
  simp only [Bool.not_eq_true', Bool.or_eq_false_iff] at hname
  exact hname.1

end Directive

/-! ## The grammar -/

/-- **The end of a directive's name**: nothing follows, or white space, or a
slash. -/
def Directive.EndsName (rest : Text) : Prop :=
  ∀ c, rest.head? = some c → isBlank c = true ∨ c = '/'

namespace Tag

variable {content rest arguments : Text} {d : Directive} {t : Tag} {selfClosing : Bool}

/-- **The slash that closes a tag**: it is all there is, or white space
stands before it. -/
def ClosesItself (s : Text) : Prop :=
  s = ['/'] ∨ ∃ front c, isBlank c = true ∧ s = front ++ [c, '/']

/-- **The grammar of tags in braces**: what stands between the braces, and
the tag that it spells. -/
inductive Spells : Text → Tag → Prop
  /-- A closing tag is a slash and the name of a directive that has one;
  white space may follow. -/
  | closing {d : Directive} {blanks : Text} :
    d.isPaired = true → (∀ c ∈ blanks, isBlank c = true) →
    Spells ('/' :: d.name ++ blanks) (.closing d)
  /-- An opening tag is a name and the arguments. -/
  | opening {d : Directive} {rest : Text} :
    Directive.EndsName rest → ¬ ClosesItself (trim rest) →
    Spells (d.name ++ rest) (.opening d (trim rest) false)
  /-- Of one that closes itself the arguments end before the slash and the
  white space in front of it. -/
  | selfClosing {d : Directive} {rest arguments blanks : Text} :
    Directive.EndsName rest → ClosesItself (trim rest) →
    trim rest = arguments ++ blanks ++ ['/'] → (∀ c ∈ blanks, isBlank c = true) →
    arguments.Trimmed → Spells (d.name ++ rest) (.opening d arguments true)

/-- The reader's test for the slash that closes a tag. -/
theorem closesItself_iff {s : Text} :
    (s.getLast? == some '/' && (s.dropLast.getLast?.map isBlank).getD true) = true ↔
      ClosesItself s := by
  rcases List.eq_nil_or_concat s with rfl | ⟨t, c, rfl⟩
  · simp [ClosesItself]
  · rcases List.eq_nil_or_concat t with rfl | ⟨u, b, rfl⟩
    · have hshort : ∀ front d, [c] ≠ front ++ [d, '/'] := by
        intro front d heq
        simpa using congrArg List.length heq
      simp [ClosesItself, hshort]
    · have hlong : u ++ [b, c] ≠ ['/'] := by
        intro heq
        simpa using congrArg List.length heq
      have hlast : ∀ {front d}, u ++ [b, c] = front ++ [d, '/'] → b = d ∧ c = '/' := by
        intro front d heq
        have hpair := (List.append_inj' heq rfl).2
        exact ⟨(List.cons.inj hpair).1, (List.cons.inj (List.cons.inj hpair).2).1⟩
      simp only [List.concat_eq_append, List.append_assoc, List.cons_append, List.nil_append,
        ClosesItself, hlong, false_or]
      constructor
      · intro h
        obtain ⟨rfl, hb⟩ : c = '/' ∧ isBlank b = true := by simpa using h
        exact ⟨u, b, hb, rfl⟩
      · rintro ⟨front, d, hd, heq⟩
        obtain ⟨rfl, rfl⟩ := hlast heq
        simpa using hd

/-! ## Reading the content -/

theorem ofContent?_slash (name : Text) :
    ofContent? ('/' :: name) = (Directive.ofName? (trimEnd name)).bind fun d =>
      if d.isPaired then some (.closing d) else none := rfl

/-- **A name and what follows it** are read as an opening tag. -/
theorem ofContent?_name (d : Directive) (hrest : Directive.EndsName rest) :
    ofContent? (d.name ++ rest) =
      let arguments := trim rest
      let before := arguments.dropLast
      if arguments.getLast? == some '/' && (before.getLast?.map isBlank).getD true then
        some (.opening d (trimEnd before) true)
      else
        some (.opening d arguments false) := by
  have hname : (d.name ++ rest).takeWhile (fun c => !(isBlank c || c == '/')) = d.name := by
    rw [List.takeWhile_append_of_pos d.forall_mem_name]
    cases rest with
    | nil => simp
    | cons c rest => rcases hrest c rfl with hc | rfl <;> simp [*]
  unfold ofContent?
  split
  · next content heq =>
    -- The name does not begin with a slash.
    obtain ⟨c, name, hcons, -, hslash⟩ := d.exists_name_eq_cons
    rw [hcons] at heq
    exact absurd (List.cons.inj heq).1 hslash
  · rw [hname]
    dsimp only
    rw [List.drop_left, Directive.ofName?_name]
    rfl

theorem ofContent?_of_spells (h : Spells content t) : ofContent? content = some t := by
  cases h with
  | @closing d blanks hpaired hblanks =>
    rw [List.cons_append, ofContent?_slash, d.trimEnd_name_append hblanks, Directive.ofName?_name,
      Option.bind_some, if_pos hpaired]
  | @opening d rest hrest hslash =>
    rw [ofContent?_name d hrest]
    dsimp only
    rw [if_neg (mt closesItself_iff.1 hslash)]
  | @selfClosing d rest arguments blanks hrest hslash htrim hblanks htrimmed =>
    rw [ofContent?_name d hrest]
    dsimp only
    rw [if_pos (closesItself_iff.2 hslash), htrim, List.dropLast_concat,
      trimEnd_append_of_isBlank hblanks, trimEnd_eq_self htrimmed.last]

theorem spells_of_ofContent? (h : ofContent? content = some t) : Spells content t := by
  unfold ofContent? at h
  split at h
  · next name =>
    obtain ⟨d, hd, hclosing⟩ := Option.bind_eq_some_iff.1 h
    split at hclosing
    · next hpaired =>
      cases hclosing
      obtain ⟨blanks, hblanks, heq, -⟩ := exists_trimEnd_eq name
      rw [Directive.ofName?_eq_some_iff.1 hd] at heq
      rw [heq]
      exact .closing hpaired hblanks
    · cases hclosing
  · obtain ⟨d, hd, hopening⟩ := Option.bind_eq_some_iff.1 h
    have hcontent := List.takeWhile_append_dropWhile
      (p := fun c => !(isBlank c || c == '/')) (l := content)
    have hrest : Directive.EndsName (content.dropWhile fun c => !(isBlank c || c == '/')) := by
      intro c hc
      have hnot := List.head?_dropWhile_not (fun c => !(isBlank c || c == '/')) content
      rw [hc] at hnot
      simpa only [Bool.not_eq_false', Bool.or_eq_true, beq_iff_eq] using hnot
    dsimp only at hopening
    rw [Text.drop_length_takeWhile] at hopening
    rw [Directive.ofName?_eq_some_iff.1 hd] at hcontent
    generalize content.dropWhile _ = rest at *
    subst hcontent
    split at hopening
    · next hslash =>
      cases hopening
      rw [closesItself_iff] at hslash
      obtain ⟨front, hfront⟩ : ∃ front, trim rest = front ++ ['/'] := by
        rcases hslash with heq | ⟨front, c, -, heq⟩
        · exact ⟨[], heq⟩
        · exact ⟨front ++ [c], by rw [heq, List.append_assoc]; rfl⟩
      obtain ⟨blanks, hblanks, heq, hlast⟩ := exists_trimEnd_eq front
      obtain ⟨-, -, -, -, -, htrimmed⟩ := exists_trim_eq rest
      rw [hfront, List.dropLast_concat]
      refine .selfClosing hrest hslash (by rw [hfront, ← heq]) hblanks ⟨?_, hlast⟩
      intro c hc
      obtain ⟨s, hs⟩ := List.head?_eq_some_iff.1 hc
      exact htrimmed.head c (by rw [hfront, heq, hs]; rfl)
    · next hslash =>
      cases hopening
      rw [closesItself_iff] at hslash
      exact .opening hrest hslash

/-- **The reader of the content accepts the grammar** and nothing else. -/
theorem ofContent?_eq_some_iff : ofContent? content = some t ↔ Spells content t :=
  ⟨spells_of_ofContent?, ofContent?_of_spells⟩

/-! ## Reading the tag -/

/-- A name is passed on the way to the closing brace. -/
theorem passed_name (d : Directive) : Passed (· == '\x7d') d.name := passed_of_plain d.plain_name

/-- And so is white space. -/
theorem passed_blanks {blanks : Text} (h : ∀ c ∈ blanks, isBlank c = true) :
    Passed (· == '\x7d') blanks := by
  refine passed_of_plain fun c hc => ⟨Arguments.isQuote_of_isBlank (h c hc), ?_⟩
  rw [beq_eq_false_iff_ne]
  rintro rfl
  cases h _ hc

/-- **A tag in braces** ends at the first closing brace outside quotes. -/
theorem brace?_eq_some_iff {s : Text} {length : Nat} :
    brace? s = some (t, length) ↔
      ∃ content after, s = content ++ '\x7d' :: after ∧ Closed content ∧
        Hides (· == '\x7d') none content ∧ Spells content t ∧ length = content.length + 2 := by
  constructor
  · intro h
    rw [brace?] at h
    split at h
    · cases h
    · next content c after hspan =>
      obtain ⟨tag, hcontent, heq⟩ := Option.map_eq_some_iff.1 h
      cases heq
      obtain ⟨hs, hhides, hclosed, hbrace⟩ := spanUntil_eq_cons_iff.1 hspan
      obtain rfl : c = '\x7d' := by simpa using hbrace
      exact ⟨content, after, hs, hclosed, hhides, ofContent?_eq_some_iff.1 hcontent, rfl⟩
  · rintro ⟨content, after, rfl, hclosed, hhides, hspells, rfl⟩
    have hspan : spanUntil (· == '\x7d') none (content ++ '\x7d' :: after) =
        (content, '\x7d' :: after) :=
      spanUntil_eq_cons_iff.2 ⟨rfl, hhides, hclosed, by simp⟩
    rw [brace?, hspan]
    dsimp only
    rw [ofContent?_eq_some_iff.2 hspells]
    rfl

/-! ## Quotes in the arguments -/

/-- Trimming takes no quote away. -/
theorem closed_trim {s : Text} (h : Closed s) : Closed (trim s) := by
  obtain ⟨lead, trail, hlead, htrail, heq, -⟩ := exists_trim_eq s
  have hplain : ∀ {blanks : Text}, (∀ c ∈ blanks, isBlank c = true) →
      ∀ c ∈ blanks, isQuote c = false := fun hblanks c hc =>
    Arguments.isQuote_of_isBlank (hblanks c hc)
  rw [heq] at h
  exact (closed_append_iff (hplain htrail)).1
    ((closed_of_plain (hplain hlead)).of_append h)

/-- **The arguments of an opening tag close their quotes** if the text
between the braces does. -/
theorem closed_of_spells (hclosed : Closed content)
    (h : Spells content (.opening d arguments selfClosing)) : Closed arguments := by
  have htrim : ∀ {rest : Text}, Closed (d.name ++ rest) → Closed (trim rest) := fun hrest =>
    closed_trim ((closed_of_plain fun c hc => (d.plain_name c hc).1).of_append hrest)
  cases h with
  | opening hrest hslash => exact htrim hclosed
  | selfClosing hrest hslash heq hblanks htrimmed =>
    have hall := htrim hclosed
    rw [heq, List.append_assoc] at hall
    refine (closed_append_iff ?_).1 hall
    intro c hc
    rcases List.mem_append.1 hc with hc | hc
    · exact Arguments.isQuote_of_isBlank (hblanks c hc)
    · obtain rfl := List.mem_singleton.1 hc
      rfl

/-! ## The tags and their words -/

/-- **What is a tag in braces, and what its arguments hold.** After an opening
brace a text is a tag exactly when the text up to the first closing brace
outside quotes is in the grammar, and the tag is the one that this text
spells, as long as it and both braces. The arguments of an opening tag close
their quotes, and so does every word that they are cut into: none runs on to
the end because a quote in it is left open. -/
theorem read?_brace_iff_spells (attributePrefix s : Text) :
    (∀ t length, read? attributePrefix ('\x7b' :: s) = some (t, length) ↔
      ∃ content after, s = content ++ '\x7d' :: after ∧ Closed content ∧
        Hides (· == '\x7d') none content ∧ Spells content t ∧ length = content.length + 2) ∧
    ∀ d arguments selfClosing length,
      read? attributePrefix ('\x7b' :: s) = some (.opening d arguments selfClosing, length) →
      Closed arguments ∧ ∀ w ∈ Arguments.words arguments, Closed w := by
  refine ⟨fun t length => brace?_eq_some_iff, fun d arguments selfClosing length h => ?_⟩
  obtain ⟨content, after, -, hclosed, -, hspells, -⟩ := brace?_eq_some_iff.1 h
  have harguments := closed_of_spells hclosed hspells
  exact ⟨harguments, fun w hw => Arguments.closed_of_mem_words harguments hw⟩

/-- A brace and a slash in quotes, a slash at the end of a value, and the
slash that closes the tag. -/
theorem read?_brace_iff_spells_of_slashes :
    ∃ content after, "form 'a/ \x7db' x=/ /\x7d/\x7d".toList = content ++ '\x7d' :: after ∧
      Spells content (.opening .form "'a/ \x7db' x=/".toList true) ∧ content.length = 18 ∧
      ∀ w ∈ Arguments.words "'a/ \x7db' x=/".toList, Closed w := by
  have hread : read? [] ('\x7b' :: "form 'a/ \x7db' x=/ /\x7d/\x7d".toList) =
      some (.opening .form "'a/ \x7db' x=/".toList true, 20) := by decide +kernel
  obtain ⟨hiff, hwords⟩ := read?_brace_iff_spells [] "form 'a/ \x7db' x=/ /\x7d/\x7d".toList
  obtain ⟨content, after, hs, -, -, hspells, hlength⟩ := (hiff _ _).1 hread
  exact ⟨content, after, hs, hspells, by omega, (hwords _ _ _ _ hread).2⟩

end Tag

end Template

end FormTemplate
