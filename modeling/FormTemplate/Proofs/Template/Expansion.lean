import FormTemplate.Proofs.Template.Division
import FormTemplate.Proofs.Template.Placeholders

/-!
# What goes into a pattern

A pattern is expanded part by part. `PatternPart.answer` is what a part stands
for when some words are left, and `wordsLeft` counts which words the parts in
front of it leave; `expand_eq_joined` says that the code of a pattern is
nothing but these answers one after the other. So each word goes in once and
in order, what goes in is not looked at again, and it is known where an
expansion fails. `writeOut` goes over the text of a pattern once and puts in
what it finds where it finds it; that comes to the same (`writeOut_eq`).
-/

namespace FormTemplate

namespace Template

open Arguments

/-- Writing a text from the arguments of a directive: what is written, and
the arguments past the words that it takes. -/
abbrev Writing := Arguments → Except CompileError Text × Arguments

namespace Writing

/-- A text that takes no words. -/
def plainly (s : Text) : Writing := fun a => (.ok s, a)

/-- **One text after the other**, unless the first fails. -/
def inTurn (x y : Writing) : Writing := fun a =>
  match x a with
  | (.error e, a) => (.error e, a)
  | (.ok code, a) =>
    match y a with
    | (.error e, a) => (.error e, a)
    | (.ok rest, a) => (.ok (code ++ rest), a)

variable {x y z : Writing} {s t : Text}

theorem inTurn_assoc : inTurn (inTurn x y) z = inTurn x (inTurn y z) := by
  funext a
  unfold inTurn
  rcases x a with ⟨_ | code, a⟩
  · rfl
  · dsimp only
    rcases y a with ⟨_ | code', a⟩
    · rfl
    · dsimp only
      rcases z a with ⟨_ | code'', a⟩
      · rfl
      · dsimp only
        rw [List.append_assoc]

theorem plainly_inTurn_plainly : inTurn (plainly s) (plainly t) = plainly (s ++ t) := rfl

theorem nil_inTurn : inTurn (plainly []) x = x := by
  funext a
  unfold inTurn plainly
  dsimp only
  rcases x a with ⟨_ | code, a⟩ <;> rfl

end Writing

open Writing

/-! ## The words that parts take -/

namespace PatternPart

variable {part : PatternPart} {given : List PatternArgument} {ws : List Text}

/-- **What a part stands for** when some words are left. -/
def answer (runtimePath : Text) (given : List PatternArgument) (ws : List Text) :
    PatternPart → Except CompileError Text
  | plain code => .ok code
  | runtime => .ok runtimePath
  | nextWord =>
    match ws with
    | [] => .error (.internal .noWordLeft)
    | word :: _ => .ok (Word.ofText word).code
  | remainingWords => .ok (AttributeList.ofWords ws).code
  | argument index form =>
    match given[index]? with
    | none => .error (.internal (.noArgument index))
    | some value => Pattern.argumentCode value form

/-- The words that a part leaves. -/
def leaves (ws : List Text) : PatternPart → List Text
  | nextWord => ws.tail
  | remainingWords => []
  | plain _ | runtime | argument .. => ws

/-- **A part lacks what it stands for**: there is no word left for it, it names
no argument, or it asks for an attribute list as a word. -/
def Lacks (given : List PatternArgument) (ws : List Text) : PatternPart → Prop
  | nextWord => ws = []
  | argument index form =>
    given.length ≤ index ∨ form = .word ∧ ∃ l, given[index]? = some (.attributes l)
  | plain _ | runtime | remainingWords => False

/-- **A part fails if it lacks something**, and only then. -/
theorem answer_eq_error_iff (runtimePath : Text) :
    (∃ e, part.answer runtimePath given ws = .error e) ↔ part.Lacks given ws := by
  cases part with
  | plain code => exact iff_of_false (fun ⟨_, h⟩ => nomatch h) id
  | runtime => exact iff_of_false (fun ⟨_, h⟩ => nomatch h) id
  | remainingWords => exact iff_of_false (fun ⟨_, h⟩ => nomatch h) id
  | nextWord =>
    cases ws with
    | nil => exact iff_of_true ⟨_, rfl⟩ rfl
    | cons word ws => exact iff_of_false (fun ⟨_, h⟩ => nomatch h) (List.cons_ne_nil word ws)
  | argument index form =>
    unfold answer Lacks
    dsimp only
    cases hgiven : given[index]? with
    | none => exact iff_of_true ⟨_, rfl⟩ (.inl (List.getElem?_eq_none_iff.1 hgiven))
    | some value =>
      have hlength : ¬ given.length ≤ index := by
        rw [Nat.not_le]
        exact (List.getElem?_eq_some_iff.1 hgiven).1
      cases value with
      | text s =>
        refine iff_of_false ?_ ?_
        · rintro ⟨e, h⟩
          cases form <;> cases h
        · rintro (hle | ⟨-, l, hl⟩)
          · exact hlength hle
          · cases hl
      | attributes l =>
        cases form with
        | word => exact iff_of_true ⟨_, rfl⟩ (.inr ⟨rfl, l, rfl⟩)
        | raw | var =>
          refine iff_of_false ?_ ?_
          · rintro ⟨e, h⟩
            cases h
          · rintro (hle | ⟨hform, -⟩)
            · exact hlength hle
            · cases hform

/-- The failure is a fault of the pattern. -/
theorem exists_fault_of_answer {runtimePath : Text} {e : CompileError}
    (h : part.answer runtimePath given ws = .error e) : ∃ fault, e = .internal fault := by
  unfold answer at h
  cases part with
  | plain code => cases h
  | runtime => cases h
  | remainingWords => cases h
  | nextWord =>
    cases ws with
    | nil =>
      cases h
      exact ⟨_, rfl⟩
    | cons word ws => cases h
  | argument index form =>
    dsimp only at h
    cases hgiven : given[index]? with
    | none =>
      rw [hgiven] at h
      cases h
      exact ⟨_, rfl⟩
    | some value =>
      rw [hgiven] at h
      cases value <;> cases form <;> cases h
      exact ⟨_, rfl⟩

end PatternPart

namespace Pattern

variable {part : PatternPart} {p q : Pattern} {ws : List Text}
variable {a : Arguments} {c : Char} {s t : Text}

/-- **The words that some parts leave**: each `nextWord` takes one, and
`remainingWords` all that are left. -/
def wordsLeft (before : Pattern) (ws : List Text) : List Text :=
  if .remainingWords ∈ before then [] else ws.drop (before.count .nextWord)

@[simp] theorem wordsLeft_nil : wordsLeft [] ws = ws := rfl

@[simp] theorem wordsLeft_cons : wordsLeft (part :: p) ws = wordsLeft p (part.leaves ws) := by
  unfold wordsLeft
  cases part with
  | plain code | runtime | argument => simp [PatternPart.leaves]
  | nextWord => simp [PatternPart.leaves]
  | remainingWords => simp [PatternPart.leaves]

variable (runtimePath : Text) (given : List PatternArgument)

theorem expandPart_fst (a : Arguments) (part : PatternPart) :
    (expandPart runtimePath given a part).1 = part.answer runtimePath given (words a.rest) := by
  cases part with
  | plain code => rfl
  | runtime => rfl
  | remainingWords => rfl
  | nextWord =>
    cases hwords : words a.rest with
    | nil =>
      obtain ⟨rest, hnext⟩ := next_of_words_nil hwords
      rw [expandPart, hnext]
      rfl
    | cons word ws =>
      obtain ⟨rest, hnext, -⟩ := next_of_words_cons hwords
      rw [expandPart, hnext]
      rfl
  | argument index form =>
    unfold expandPart PatternPart.answer
    dsimp only
    cases given[index]? <;> rfl

theorem expandPart_snd (a : Arguments) (part : PatternPart) :
    (expandPart runtimePath given a part).2 = a ∧ (∀ ws, part.leaves ws = ws) ∨
      (expandPart runtimePath given a part).2 = a.next.2 ∧ (∀ ws, part.leaves ws = ws.tail) ∨
      (expandPart runtimePath given a part).2 = a.all.2 ∧ ∀ ws, part.leaves ws = [] := by
  cases part with
  | plain code => exact .inl ⟨rfl, fun _ => rfl⟩
  | runtime => exact .inl ⟨rfl, fun _ => rfl⟩
  | remainingWords => exact .inr (.inr ⟨rfl, fun _ => rfl⟩)
  | nextWord =>
    refine .inr (.inl ⟨?_, fun _ => rfl⟩)
    unfold expandPart
    dsimp only
    rcases a.next with ⟨_ | word, a⟩ <;> rfl
  | argument index form =>
    refine .inl ⟨?_, fun _ => rfl⟩
    unfold expandPart
    dsimp only
    cases given[index]? <;> rfl

/-- A part takes the words that it stands for. -/
theorem words_expandPart (a : Arguments) (part : PatternPart) :
    words (expandPart runtimePath given a part).2.rest = part.leaves (words a.rest) := by
  rcases expandPart_snd runtimePath given a part with
    ⟨hrest, hleaves⟩ | ⟨hrest, hleaves⟩ | ⟨hrest, hleaves⟩
  · rw [hrest, hleaves]
  · rw [hrest, hleaves, words_next]
  · rw [hrest, hleaves]
    rfl

/-- And what is left then is the end of the same arguments. -/
theorem inside_expandPart (part : PatternPart) (h : a.Inside) :
    (expandPart runtimePath given a part).2.Inside ∧
      (expandPart runtimePath given a part).2.source = a.source := by
  rcases expandPart_snd runtimePath given a part with
    ⟨hrest, -⟩ | ⟨hrest, -⟩ | ⟨hrest, -⟩
  · rw [hrest]
    exact ⟨h, rfl⟩
  · rw [hrest]
    exact ⟨h.next, rfl⟩
  · rw [hrest]
    exact ⟨inside_all a, rfl⟩

/-! ## Expanding part by part -/

theorem expand_cons :
    expand runtimePath given (part :: p) =
      inTurn (fun a => expandPart runtimePath given a part) (expand runtimePath given p) := rfl

/-- Texts one after the other; the first failure is that of all. -/
def joined : List (Except CompileError Text) → Except CompileError Text
  | [] => .ok []
  | .error e :: _ => .error e
  | .ok code :: l => (joined l).map (code ++ ·)

/-- **The code of a pattern is the answers of its parts**, one after the
other. -/
theorem expand_eq_joined (p : Pattern) (a : Arguments) :
    (p.expand runtimePath given a).1 = joined (p.mapIdx fun i part =>
      part.answer runtimePath given (wordsLeft (p.take i) (words a.rest))) := by
  induction p generalizing a with
  | nil => rfl
  | cons part p ih =>
    have hpart := expandPart_fst runtimePath given a part
    have hrest := words_expandPart runtimePath given a part
    have htail := ih (expandPart runtimePath given a part).2
    rw [hrest] at htail
    simp only [List.mapIdx_cons, List.take_zero, wordsLeft_nil, List.take_succ_cons,
      wordsLeft_cons]
    rw [← hpart, expand_cons]
    unfold inTurn
    dsimp only
    rcases hexpand : expandPart runtimePath given a part with ⟨_ | code, b⟩
    · rfl
    · rw [hexpand] at htail
      dsimp only at htail ⊢
      rw [joined, ← htail]
      rcases expand runtimePath given p b with ⟨_ | rest, b⟩ <;> rfl

/-- A pattern without a failure takes the words of its parts. -/
theorem words_expand {code : Text} (p : Pattern) (a : Arguments)
    (h : (p.expand runtimePath given a).1 = .ok code) :
    words (p.expand runtimePath given a).2.rest = wordsLeft p (words a.rest) := by
  induction p generalizing a code with
  | nil => rfl
  | cons part p ih =>
    have hrest := words_expandPart runtimePath given a part
    rw [expand_cons] at h ⊢
    unfold inTurn at h ⊢
    dsimp only at h ⊢
    rw [wordsLeft_cons, ← hrest]
    rcases hfirst : expandPart runtimePath given a part with ⟨_ | first, b⟩
    · rw [hfirst] at h
      cases h
    · rw [hfirst] at h
      dsimp only at h ⊢
      rcases hexpand : expand runtimePath given p b with ⟨_ | rest, b'⟩
      · rw [hexpand] at h
        cases h
      · have htail := @ih rest b
        rw [hexpand] at htail
        exact htail rfl

/-- Whether it fails or not, what is left is the end of the arguments. -/
theorem inside_expand (p : Pattern) (h : a.Inside) :
    (p.expand runtimePath given a).2.Inside ∧
      (p.expand runtimePath given a).2.source = a.source := by
  induction p generalizing a with
  | nil => exact ⟨h, rfl⟩
  | cons part p ih =>
    obtain ⟨hinside, hsource⟩ := inside_expandPart runtimePath given part h
    rw [expand_cons]
    unfold inTurn
    dsimp only
    rcases hfirst : expandPart runtimePath given a part with ⟨_ | first, b⟩
    · rw [hfirst] at hinside hsource
      exact ⟨hinside, hsource⟩
    · rw [hfirst] at hinside hsource
      obtain ⟨hinside', hsource'⟩ := ih hinside
      rw [hsource] at hsource'
      dsimp only at hinside' hsource' ⊢
      rcases hexpand : expand runtimePath given p b with ⟨_ | rest, b'⟩
      · rw [hexpand] at hinside' hsource'
        exact ⟨hinside', hsource'⟩
      · rw [hexpand] at hinside' hsource'
        exact ⟨hinside', hsource'⟩

/-! ## Where an expansion fails -/

theorem joined_eq_error {l : List (Except CompileError Text)} {e : CompileError}
    (h : joined l = .error e) : .error e ∈ l := by
  induction l with
  | nil => cases h
  | cons x l ih =>
    cases x with
    | error e' =>
      cases h
      exact List.mem_cons_self
    | ok code =>
      rw [joined] at h
      cases hjoined : joined l with
      | ok rest =>
        rw [hjoined] at h
        cases h
      | error e' =>
        rw [hjoined] at h
        cases h
        exact List.mem_cons_of_mem _ (ih hjoined)

theorem exists_joined_eq_error {l : List (Except CompileError Text)} {e : CompileError}
    (h : .error e ∈ l) : ∃ e', joined l = .error e' := by
  induction l with
  | nil => cases h
  | cons x l ih =>
    cases x with
    | error e' => exact ⟨e', rfl⟩
    | ok code =>
      obtain ⟨e', he'⟩ : ∃ e', joined l = .error e' := by
        refine ih ?_
        simpa using h
      exact ⟨e', by rw [joined, he']; rfl⟩

/-- **An expansion fails if some part of it lacks something**, and only
then. -/
theorem expand_eq_error_iff (p : Pattern) (a : Arguments) :
    (∃ e, (p.expand runtimePath given a).1 = .error e) ↔
      ∃ (i : Nat) (part : PatternPart), p[i]? = some part ∧
        part.Lacks given (wordsLeft (p.take i) (words a.rest)) := by
  rw [expand_eq_joined]
  constructor
  · rintro ⟨e, he⟩
    obtain ⟨i, hi, heq⟩ := List.mem_mapIdx.1 (joined_eq_error he)
    exact ⟨i, p[i], List.getElem?_eq_getElem hi,
      (PatternPart.answer_eq_error_iff runtimePath).1 ⟨e, heq⟩⟩
  · rintro ⟨i, part, hpart, hlacks⟩
    obtain ⟨hi, rfl⟩ := List.getElem?_eq_some_iff.1 hpart
    obtain ⟨e, he⟩ := (PatternPart.answer_eq_error_iff runtimePath).2 hlacks
    exact exists_joined_eq_error (List.mem_mapIdx.2 ⟨i, hi, he⟩)

theorem exists_fault_of_expand {e : CompileError} (p : Pattern) (a : Arguments)
    (h : (p.expand runtimePath given a).1 = .error e) : ∃ fault, e = .internal fault := by
  rw [expand_eq_joined] at h
  obtain ⟨i, hi, heq⟩ := List.mem_mapIdx.1 (joined_eq_error h)
  exact PatternPart.exists_fault_of_answer heq

/-! ## The text of a pattern -/

theorem expand_consPlain :
    expand runtimePath given (consPlain c p) =
      inTurn (plainly [c]) (expand runtimePath given p) := by
  cases p with
  | nil => rfl
  | cons part p =>
    cases part with
    | plain code =>
      have hhead : (fun a => expandPart runtimePath given a (.plain (c :: code))) =
          inTurn (plainly [c]) fun a => expandPart runtimePath given a (.plain code) := rfl
      rw [consPlain, expand_cons, hhead, inTurn_assoc]
      rfl
    | runtime | nextWord | remainingWords | argument => rfl

/-- **A text and another behind it are expanded in turn**, if in the first no
percent sign stands outside a placeholder. -/
theorem expand_ofText_append (h : ∀ code, .plain code ∈ ofText s → '%' ∉ code) (t : Text) :
    (ofText (s ++ t)).expand runtimePath given =
      inTurn ((ofText s).expand runtimePath given) ((ofText t).expand runtimePath given) := by
  revert h
  refine ofText_induction (motive := fun s => (∀ code, .plain code ∈ ofText s → '%' ∉ code) →
    (ofText (s ++ t)).expand runtimePath given =
      inTurn ((ofText s).expand runtimePath given) ((ofText t).expand runtimePath given))
    ?nil ?placeholder ?plain s
  case nil =>
    intro _
    rw [List.nil_append]
    exact nil_inTurn.symm
  case placeholder =>
    intro part name s hname ih h
    rw [ofText_of_spelled hname] at h ⊢
    have hrest := ih fun code hcode => h code (List.mem_cons_of_mem _ hcode)
    rw [List.cons_append, List.append_assoc, ofText_of_spelled hname, expand_cons, hrest,
      expand_cons, inTurn_assoc]
  case plain =>
    intro c s hc ih h
    rw [ofText_of_isPlain hc] at h ⊢
    obtain ⟨code, parts, hparts, hmem⟩ : ∃ code parts, consPlain c (ofText s) =
        .plain (c :: code) :: parts ∧ ∀ part ∈ ofText s, part = .plain code ∨ part ∈ parts := by
      cases ofText s with
      | nil => exact ⟨[], [], rfl, nofun⟩
      | cons part parts =>
        cases part with
        | plain code =>
          exact ⟨code, parts, rfl, fun part hpart => List.mem_cons.1 hpart⟩
        | runtime | nextWord | remainingWords | argument =>
          exact ⟨[], _, rfl, fun part hpart => .inr hpart⟩
    rw [hparts] at h
    have hfirst := h (c :: code) List.mem_cons_self
    rw [List.mem_cons, not_or] at hfirst
    have hplain : IsPlain c (s ++ t) := fun hpercent => absurd hpercent.symm hfirst.1
    have hrest := ih fun other hother => by
      rcases hmem _ hother with heq | hmem
      · cases heq
        exact hfirst.2
      · exact h other (List.mem_cons_of_mem _ hmem)
    rw [List.cons_append, ofText_of_isPlain hplain, expand_consPlain, hrest, expand_consPlain,
      inTurn_assoc]

/-- The text in front of a percent sign is copied. -/
theorem expand_ofText_append_of_not_mem (h : '%' ∉ s) (t : Text) :
    (ofText (s ++ t)).expand runtimePath given =
      inTurn (plainly s) ((ofText t).expand runtimePath given) := by
  induction s with
  | nil => exact nil_inTurn.symm
  | cons c s ih =>
    rw [List.mem_cons, not_or] at h
    have hplain : IsPlain c (s ++ t) := fun hpercent => absurd hpercent.symm h.1
    rw [List.cons_append, ofText_of_isPlain hplain, expand_consPlain, ih h.2, ← inTurn_assoc,
      plainly_inTurn_plainly]
    rfl

/-- A text without percent signs is copied. -/
theorem expand_ofText_of_not_mem (h : '%' ∉ s) :
    (ofText s).expand runtimePath given = plainly s := by
  have hnil := expand_ofText_append_of_not_mem runtimePath given h []
  rw [List.append_nil] at hnil
  rw [hnil]
  exact plainly_inTurn_plainly.trans (congrArg plainly (List.append_nil s))

/-- **One pass over the text of a pattern.** Behind `out` goes what stands in
front of the next percent sign, and then what the placeholder behind the sign
stands for, or the sign itself; the pass goes on behind that. -/
def writeOut (runtimePath : Text) (given : List PatternArgument) (out s : Text) : Writing :=
  fun a =>
    match _h : Text.cut? '%' s with
    | none => (.ok (out ++ s), a)
    | some (front, after) =>
      match placeholder? after with
      | none => writeOut runtimePath given (out ++ front ++ ['%']) after a
      | some (part, length) =>
        match expandPart runtimePath given a part with
        | (.error e, a) => (.error e, a)
        | (.ok code, a) => writeOut runtimePath given (out ++ front ++ code) (after.drop length) a
termination_by s.length
decreasing_by
  all_goals
    have hs := Text.eq_of_cut? _h
    simp only [hs, List.length_append, List.length_cons, List.length_drop]
    omega

/-- **Cutting first and putting in later comes to the same.** -/
theorem writeOut_eq (out s : Text) :
    writeOut runtimePath given out s =
      inTurn (plainly out) ((ofText s).expand runtimePath given) := by
  induction hn : s.length using Nat.strongRecOn generalizing out s with
  | ind n ih =>
    funext a
    rw [writeOut]
    split
    · next hcut =>
      rw [expand_ofText_of_not_mem _ _ (Text.cut?_eq_none.1 hcut), plainly_inTurn_plainly]
      rfl
    · next front after hcut =>
      have hs : s = front ++ '%' :: after := Text.eq_of_cut? hcut
      have happend := expand_ofText_append_of_not_mem runtimePath given
        (Text.not_mem_of_cut? hcut) ('%' :: after)
      rw [hs, happend, ← inTurn_assoc, plainly_inTurn_plainly]
      split
      · next hnone =>
        have hplain : IsPlain '%' after := isPlain_iff.2 (by rw [if_pos rfl, hnone])
        have hlength : after.length < n := by
          rw [← hn, hs, List.length_append, List.length_cons]
          omega
        rw [ih _ hlength _ _ rfl, ofText_of_isPlain hplain, expand_consPlain, ← inTurn_assoc,
          plainly_inTurn_plainly]
      · next part length hsome =>
        obtain ⟨name, hname, ⟨behind, hafter⟩, hlen⟩ := exists_spelled_of_placeholder? hsome
        have hbehind : after.drop length = behind := by rw [← hafter, hlen, List.drop_left]
        have hlength : behind.length < n := by
          rw [← hn, hs, ← hafter, List.length_append, List.length_cons, List.length_append]
          omega
        rw [hbehind, ← hafter, ofText_of_spelled hname, expand_cons]
        unfold inTurn plainly
        dsimp only
        rcases expandPart runtimePath given a part with ⟨_ | code, b⟩
        · rfl
        · dsimp only
          rw [ih _ hlength _ _ rfl]
          unfold inTurn plainly
          dsimp only
          rcases expand runtimePath given (ofText behind) b with ⟨_ | rest, b⟩
          · rfl
          · dsimp only
            rw [List.append_assoc]

/-- **What a pattern puts in, it puts in once.** Its text has one cut into
parts; the code is what these stand for, one after the other, each with the
words that the parts in front of it leave. One pass over the text writes the
same, and never reads what it wrote. An expansion fails if some part lacks
what it stands for, always by a fault of the pattern, and texts are expanded
in turn, if no percent sign of the first stands outside its placeholders. -/
theorem expand_puts_in_once (runtimePath : Text) (given : List PatternArgument) (s t : Text)
    (a : Arguments) :
    (∀ parts, Cut s parts ↔ parts = ofText s) ∧
    ((ofText s).expand runtimePath given a).1 = joined ((ofText s).mapIdx fun i part =>
      part.answer runtimePath given (wordsLeft ((ofText s).take i) (words a.rest))) ∧
    writeOut runtimePath given [] s a = (ofText s).expand runtimePath given a ∧
    (∀ code, ((ofText s).expand runtimePath given a).1 = .ok code →
      words ((ofText s).expand runtimePath given a).2.rest =
        wordsLeft (ofText s) (words a.rest)) ∧
    ((∃ e, ((ofText s).expand runtimePath given a).1 = .error e) ↔
      ∃ (i : Nat) (part : PatternPart), (ofText s)[i]? = some part ∧
        part.Lacks given (wordsLeft ((ofText s).take i) (words a.rest))) ∧
    (∀ e, ((ofText s).expand runtimePath given a).1 = .error e → ∃ fault, e = .internal fault) ∧
    ((∀ code, .plain code ∈ ofText s → '%' ∉ code) →
      (ofText (s ++ t)).expand runtimePath given a =
        inTurn ((ofText s).expand runtimePath given) ((ofText t).expand runtimePath given) a) := by
  refine ⟨fun parts => cut_iff, expand_eq_joined runtimePath given _ a, ?_,
    fun code => words_expand runtimePath given _ a, expand_eq_error_iff runtimePath given _ a,
    fun e => exists_fault_of_expand runtimePath given _ a, fun h => ?_⟩
  · rw [writeOut_eq, nil_inTurn]
  · rw [expand_ofText_append runtimePath given h]

/-- The path, a word and an argument hold percent signs, which are copied. The
text behind has one in front of no placeholder, and asks for attributes as a
word. -/
theorem expand_puts_in_once_of_percents :
    ((ofText "%runtime(%node.word, %0.var".toList).expand "%0.raw".toList
        [.text "%node.word".toList, .attributes []] (.ofText "%1.raw x".toList)).1 =
      .ok "%0.raw(\"%1.raw\", \"%node.word\"".toList ∧
    words ((ofText "%runtime(%node.word, %0.var".toList).expand "%0.raw".toList
        [.text "%node.word".toList, .attributes []] (.ofText "%1.raw x".toList)).2.rest =
      ["x".toList] ∧
    (∀ code, .plain code ∈ ofText "%runtime(%node.word, %0.var".toList → '%' ∉ code) ∧
    (ofText ("%runtime(%node.word, %0.var".toList ++ " 5% %1.word".toList)).expand "%0.raw".toList
        [.text "%node.word".toList, .attributes []] (.ofText "%1.raw x".toList) =
      inTurn
        ((ofText "%runtime(%node.word, %0.var".toList).expand "%0.raw".toList
          [.text "%node.word".toList, .attributes []])
        ((ofText " 5% %1.word".toList).expand "%0.raw".toList
          [.text "%node.word".toList, .attributes []])
        (.ofText "%1.raw x".toList) ∧
    ∃ fault, ((ofText " 5% %1.word".toList).expand "%0.raw".toList
        [.text "%node.word".toList, .attributes []] (.ofText "%1.raw x".toList)).1 =
      .error (.internal fault) := by
  have hcode : ((ofText "%runtime(%node.word, %0.var".toList).expand "%0.raw".toList
      [.text "%node.word".toList, .attributes []] (.ofText "%1.raw x".toList)).1 =
      .ok "%0.raw(\"%1.raw\", \"%node.word\"".toList := by
    decide +kernel
  have hparts : ofText "%runtime(%node.word, %0.var".toList =
      [.runtime, .plain "(".toList, .nextWord, .plain ", ".toList, .argument 0 .var] := by
    decide +kernel
  have hplain : ∀ code, .plain code ∈ ofText "%runtime(%node.word, %0.var".toList →
      '%' ∉ code := by
    rw [hparts]
    simp
  have hfails : ((ofText " 5% %1.word".toList).expand "%0.raw".toList
      [.text "%node.word".toList, .attributes []] (.ofText "%1.raw x".toList)).1 =
      .error (.internal .attributesAsWord) := by
    decide +kernel
  obtain ⟨-, -, -, hwords, -, -, happend⟩ := expand_puts_in_once "%0.raw".toList
    [.text "%node.word".toList, .attributes []] "%runtime(%node.word, %0.var".toList
    " 5% %1.word".toList (.ofText "%1.raw x".toList)
  obtain ⟨-, -, -, -, -, hfault, -⟩ := expand_puts_in_once "%0.raw".toList
    [.text "%node.word".toList, .attributes []] " 5% %1.word".toList []
    (.ofText "%1.raw x".toList)
  obtain ⟨fault, hfault⟩ := hfault _ hfails
  refine ⟨hcode, ?_, hplain, happend hplain, fault, hfails.trans (congrArg _ hfault)⟩
  rw [hwords _ hcode]
  decide +kernel

end Pattern

end Template

end FormTemplate
