import FormTemplate.Proofs.Settings.Described
import FormTemplate.Proofs.Text.Cutting
import FormTemplate.Template.Program

/-!
# Names of functions

The generated code defines a function under a name from the settings, and
nothing but the check of the settings looks at that name. The check takes
the words, which are letters, digits and underscores (`isIdentifier_iff`).
Not every word can name a function: the language of the generated code
keeps some for itself, and the underscore alone is none of its names.
`definedName?` reads the name back as that language does, and finds it
exactly where it may stand (`definedName?_source`).
-/

namespace FormTemplate

namespace Settings

variable {s : Settings} {name : Text}

/-! ## Words -/

/-- A word: ASCII letters, digits and underscores, the first one no
digit. -/
def IsWord (s : Text) : Prop :=
  s ≠ [] ∧ (∀ c ∈ s, c.isAlphanum = true ∨ c = '_') ∧ ∀ c, s.head? = some c → c.isDigit = false

theorem isIdentifierPart_iff {c : Char} :
    isIdentifierPart c = true ↔ c.isAlphanum = true ∨ c = '_' := by
  rw [isIdentifierPart, Bool.or_eq_true, beq_iff_eq, or_comm]

/-- An identifier begins with what may stand in it, but for the digits. -/
theorem isIdentifierStart_iff {c : Char} :
    isIdentifierStart c = true ↔ (c.isAlphanum = true ∨ c = '_') ∧ c.isDigit = false := by
  have hletter : c.isAlpha = true → c.isDigit = false := by
    intro h
    rw [Bool.eq_false_iff, Ne, Text.isDigit_iff]
    rw [Text.isAlpha_iff] at h
    omega
  rw [isIdentifierStart, Bool.or_eq_true, beq_iff_eq, Char.isAlphanum, Bool.or_eq_true]
  constructor
  · rintro (rfl | h)
    · exact ⟨.inr rfl, rfl⟩
    · exact ⟨.inl (.inl h), hletter h⟩
  · rintro ⟨(h | h) | h, hdigit⟩
    · exact .inr h
    · rw [hdigit] at h
      cases h
    · exact .inl h

/-- **The identifiers are the words.** -/
theorem isIdentifier_iff : isIdentifier name = true ↔ IsWord name := by
  cases name with
  | nil =>
    constructor
    · intro h
      cases h
    · rintro ⟨hne, -⟩
      exact absurd rfl hne
  | cons c s =>
    rw [isIdentifier, Bool.and_eq_true, isIdentifierStart_iff, List.all_eq_true]
    constructor
    · rintro ⟨⟨hc, hdigit⟩, hs⟩
      refine ⟨List.cons_ne_nil c s, List.forall_mem_cons.2 ⟨hc, fun d hd => ?_⟩, ?_⟩
      · exact isIdentifierPart_iff.1 (hs d hd)
      · rintro _ ⟨⟩
        exact hdigit
    · rintro ⟨-, hparts, hfirst⟩
      obtain ⟨hc, hs⟩ := List.forall_mem_cons.1 hparts
      exact ⟨⟨hc, hfirst c rfl⟩, fun d hd => isIdentifierPart_iff.2 (hs d hd)⟩

/-- The check of the settings refuses a name only if it is no word. -/
theorem not_isWord_of_validate (h : s.validate = .error (.notAnIdentifier name)) :
    name = s.functionName ∧ ¬IsWord name := by
  rw [validate] at h
  split at h
  · cases h
  split at h
  · cases h
  split at h
  · cases h
  split at h
  · cases h
  · next hname =>
    cases h
    exact ⟨rfl, fun hword => hname (isIdentifier_iff.2 hword)⟩

/-- And what it takes is a word. -/
theorem isWord_of_validate (h : s.validate = .ok ()) : IsWord s.functionName := by
  rw [validate] at h
  split at h
  · cases h
  split at h
  · cases h
  split at h
  · cases h
  split at h
  · next hname => exact isIdentifier_iff.1 hname
  · cases h

/-! ## Words that name functions -/

/-- The words that the language of the generated code keeps for itself, in
its edition of 2024: those that it uses, and those that it may use one
day. -/
def reservedWords : List Text :=
  ["as", "async", "await", "break", "const", "continue", "crate", "dyn", "else", "enum", "extern",
    "false", "fn", "for", "if", "impl", "in", "let", "loop", "match", "mod", "move", "mut", "pub",
    "ref", "return", "self", "Self", "static", "struct", "super", "trait", "true", "type", "unsafe",
    "use", "where", "while", "abstract", "become", "box", "do", "final", "gen", "macro", "override",
    "priv", "try", "typeof", "unsized", "virtual", "yield"].map String.toList

/-- **The names that a function may have.** -/
structure IsFunctionName (name : Text) : Prop where
  /-- It is a word. -/
  isWord : IsWord name
  /-- It is not the underscore alone. -/
  ne_underscore : name ≠ ['_']
  /-- The word is free. -/
  not_reserved : name ∉ reservedWords

instance (name : Text) : Decidable (IsFunctionName name) :=
  decidable_of_iff
    (isIdentifier name = true ∧ name ≠ ['_'] ∧ ¬reservedWords.contains name = true)
    ⟨fun ⟨hword, hne, hfree⟩ =>
        ⟨isIdentifier_iff.1 hword, hne, fun h => hfree (List.contains_iff_mem.2 h)⟩,
      fun ⟨hword, hne, hfree⟩ =>
        ⟨isIdentifier_iff.2 hword, hne, fun h => hfree (List.contains_iff_mem.1 h)⟩⟩

end Settings

namespace Template

namespace Program

open Settings

/-- **The name of the function that a source defines**, if it is a name in
ASCII: the word behind `pub fn` on the second line, with the parameters
right behind it. -/
def definedName? (source : Text) : Option Text :=
  (Text.cut? '\n' source).bind fun lines => ("pub fn ".toList.isPrefixOf? lines.2).bind fun s =>
    let name := s.takeWhile isIdentifierPart
    if IsFunctionName name ∧ (s.dropWhile isIdentifierPart).head? = some '(' then some name
    else none

/-- The name stands between `pub fn` and the parameters. -/
theorem exists_source_eq_append (p : Program) (name runtimePath : Text) :
    ∃ rest, p.source name runtimePath =
      "#[allow(unused_variables, clippy::all)]".toList ++
        '\n' :: ("pub fn ".toList ++ (name ++ '(' :: rest)) := by
  -- Cut with the literals kept closed: the text of each is long to compute with.
  have hcut : ∀ {a a' b c c' d e f g h : Text}, a = a' ++ ['\n'] → c = '(' :: c' →
      ∃ rest, a ++ (b ++ name ++ c ++ runtimePath ++ d ++ runtimePath ++ e) ++ f ++ g ++ h =
        a' ++ '\n' :: (b ++ (name ++ '(' :: rest)) := by
    rintro _ a' b _ c' d e f g h rfl rfl
    exact ⟨c' ++ runtimePath ++ d ++ runtimePath ++ e ++ f ++ g ++ h, by simp⟩
  have hline : "#[allow(unused_variables, clippy::all)]\n".toList =
      "#[allow(unused_variables, clippy::all)]".toList ++ ['\n'] := by decide
  have hparameters : "(out: &mut String, ctx: ".toList =
      '(' :: "out: &mut String, ctx: ".toList := by decide
  delta source signature
  exact hcut hline hparameters

/-- **A name can be read back exactly if a function may have it.** -/
theorem definedName?_source (p : Program) (name runtimePath : Text) :
    definedName? (p.source name runtimePath) = some name ↔ IsFunctionName name := by
  obtain ⟨rest, hsource⟩ := exists_source_eq_append p name runtimePath
  rw [hsource, definedName?, Text.cut?_append (by decide), Option.bind_some,
    List.isPrefixOf?_eq_some_iff_append_eq.2 rfl, Option.bind_some]
  constructor
  · intro h
    dsimp only at h
    split at h
    · next hname =>
      rw [Option.some.inj h] at hname
      exact hname.1
    · cases h
  · intro hname
    have hparts : ∀ c ∈ name, isIdentifierPart c = true := fun c hc =>
      isIdentifierPart_iff.2 (hname.isWord.2.1 c hc)
    have hstop : isIdentifierPart '(' = false := by decide
    have htake : (name ++ '(' :: rest).takeWhile isIdentifierPart = name := by
      rw [List.takeWhile_append_of_pos hparts, List.takeWhile_cons_of_neg (by simp [hstop]),
        List.append_nil]
    have hdrop : (name ++ '(' :: rest).dropWhile isIdentifierPart = '(' :: rest := by
      rw [List.dropWhile_append_of_pos hparts, List.dropWhile_cons_of_neg (by simp [hstop])]
    simp only [htake, hdrop]
    exact if_pos ⟨hname, rfl⟩

end Program

end Template

/-! ## Main statement -/

namespace Settings

open Template

/-- **The settings of a run name a function by a word**: the one given for
the run, else that of the settings file, else the default. The generated
code defines a function of that name exactly when the word is not the
underscore alone and not reserved, which nothing looks at; and the check of
the name refuses only what is no word. -/
theorem load_names_function (path : Option Text) (o : Overrides) (t : FileTree) :
    (∀ loaded name, ((load path o : StateM FileTree _).run t).1 = .ok loaded →
      loaded.settings.functionName = name →
      (∃ es, settingsDocument? t path = some es ∧
        name = o.functionName.getD
          ((given? es "output".toList "function_name".toList).getD "render".toList)) ∧
      IsWord name ∧ (IsFunctionName name ↔ name ≠ ['_'] ∧ name ∉ reservedWords) ∧
      ∀ p : Program,
        Program.definedName? (p.source name loaded.settings.runtimePath) = some name ↔
          IsFunctionName name) ∧
    ∀ (s : Settings) (name : Text), s.validate = .error (.notAnIdentifier name) →
      name = s.functionName ∧ ¬IsWord name ∧ ¬IsFunctionName name := by
  refine ⟨?_, fun s name h => ?_⟩
  · rintro loaded _ h rfl
    obtain ⟨-, es, hes, hsettings, hvalid⟩ := exists_of_load h
    have hword := isWord_of_validate hvalid
    refine ⟨⟨es, hes, ?_⟩, hword, ?_, fun p => Program.definedName?_source p _ _⟩
    · rw [hsettings]
      rfl
    · exact ⟨fun h => ⟨h.ne_underscore, h.not_reserved⟩, fun ⟨hne, hfree⟩ => ⟨hword, hne, hfree⟩⟩
  · obtain ⟨hname, hword⟩ := not_isWord_of_validate h
    exact ⟨hname, hword, fun hfunction => hword hfunction.isWord⟩

/-- A settings file that names the function by a reserved word. -/
def reservedTree : FileTree where
  files := [([fileName], Utf8.encode "[output]\nfunction_name = \"match\"\n".toList)]

/-- It is loaded, though no function can have that name; a name with a
hyphen is refused. -/
theorem load_names_function_of_reserved :
    (∃ loaded, ((load none {} : StateM FileTree _).run reservedTree).1 = .ok loaded ∧
      loaded.settings.functionName = "match".toList ∧ IsWord "match".toList ∧
      ¬IsFunctionName "match".toList ∧ ∀ p : Program,
        Program.definedName? (p.source "match".toList loaded.settings.runtimePath) ≠
          some "match".toList) ∧
    ({ functionName := "a-b".toList } : Settings).validate =
      .error (.notAnIdentifier "a-b".toList) ∧ ¬IsWord "a-b".toList := by
  have h : ((load none {} : StateM FileTree _).run reservedTree).1 =
      .ok { settings := { functionName := "match".toList }, path := some ('/' :: fileName) } := by
    decide +kernel
  have hrefused : ({ functionName := "a-b".toList } : Settings).validate =
      .error (.notAnIdentifier "a-b".toList) := by decide
  obtain ⟨hloaded, hcheck⟩ := load_names_function none {} reservedTree
  obtain ⟨-, hword, hfree, hdefined⟩ := hloaded _ _ h rfl
  have hreserved : ¬IsFunctionName "match".toList := fun hname =>
    (hfree.1 hname).2 (by decide)
  exact ⟨⟨_, h, rfl, hword, hreserved, fun p hp => hreserved ((hdefined p).1 hp)⟩, hrefused,
    (hcheck _ _ hrefused).2.1⟩

end Settings

end FormTemplate
