import FormTemplate.Proofs.Template.Words
import Mathlib.Logic.Function.Iterate

/-!
# The arguments divided into words

Reading the arguments of a directive divides them: words with white space
between them, and white space in a word only inside quotes that the word
opens itself. `Divides` states what a division is without saying how it is
found; a text has one (`exists_divides`), and its words are the ones that are
read (`Divides.words_eq`), so there is no other. A `Reading` is one way to go
on reading. Whatever is read in whatever order, what has been fetched since
the arguments started over and what is left are the words together
(`fetched_append_words`).
-/

namespace FormTemplate

namespace Template

open Quotation

namespace Arguments

variable {source lead gap w rest : Text} {l : List (Text × Text)} {a : Arguments}

/-! ## Divisions -/

/-- **A word of the arguments.** -/
structure IsWord (w : Text) : Prop where
  /-- It is not empty. -/
  ne_nil : w ≠ []
  /-- It does not begin with white space. -/
  head : ∀ c, w.head? = some c → Text.isBlank c = false
  /-- White space in it stands inside quotes that it opens itself. -/
  hides : Hides Text.isBlank none w

/-- **A division of a text into words**, each given with what stands behind
it; `lead` is what stands in front of the first. -/
structure Divides (source lead : Text) (l : List (Text × Text)) : Prop where
  /-- Together they are the text. -/
  source_eq : source = lead ++ l.flatMap fun p => p.1 ++ p.2
  /-- In front of the first word is white space only. -/
  blank_lead : ∀ c ∈ lead, Text.isBlank c = true
  /-- So it is behind each word. -/
  blank_gap : ∀ p ∈ l, ∀ c ∈ p.2, Text.isBlank c = true
  /-- Between two words there is some. -/
  gap_ne_nil : ∀ p ∈ l.dropLast, p.2 ≠ []
  /-- The words are words. -/
  isWord : ∀ p ∈ l, IsWord p.1
  /-- A word with another behind it closes its quotes. -/
  closed : ∀ p ∈ l.dropLast, Closed p.1
  /-- The last one does too, unless it reaches the end of the text. -/
  closed_last : ∀ p, l.getLast? = some p → Closed p.1 ∨ p.2 = []

theorem divides_nil (hlead : ∀ c ∈ lead, Text.isBlank c = true) : Divides lead lead [] where
  source_eq := (List.append_nil lead).symm
  blank_lead := hlead
  blank_gap := nofun
  gap_ne_nil := nofun
  isWord := nofun
  closed := nofun
  closed_last := nofun

/-- A word that reaches the end of the text. -/
theorem divides_singleton (hlead : ∀ c ∈ lead, Text.isBlank c = true) (hw : IsWord w) :
    Divides (lead ++ w) lead [(w, [])] where
  source_eq := by simp
  blank_lead := hlead
  blank_gap := by simp
  gap_ne_nil := nofun
  isWord := by simpa using hw
  closed := nofun
  closed_last := by simp

/-- A word in front of what is divided already. -/
theorem Divides.cons (hlead : ∀ c ∈ lead, Text.isBlank c = true) (hw : IsWord w)
    (hclosed : Closed w) (hgap : gap ≠ []) (h : Divides rest gap l) :
    Divides (lead ++ (w ++ rest)) lead ((w, gap) :: l) where
  source_eq := by
    rw [h.source_eq, List.flatMap_cons, List.append_assoc w gap]
  blank_lead := hlead
  blank_gap := List.forall_mem_cons.2 ⟨h.blank_lead, h.blank_gap⟩
  gap_ne_nil := by
    cases l with
    | nil => exact nofun
    | cons p l =>
      rw [List.dropLast_cons_cons, List.forall_mem_cons]
      exact ⟨hgap, h.gap_ne_nil⟩
  isWord := List.forall_mem_cons.2 ⟨hw, h.isWord⟩
  closed := by
    cases l with
    | nil => exact nofun
    | cons p l =>
      rw [List.dropLast_cons_cons, List.forall_mem_cons]
      exact ⟨hclosed, h.closed⟩
  closed_last := by
    cases l with
    | nil =>
      intro p hp
      cases hp
      exact .inl hclosed
    | cons p l => exact h.closed_last

/-- **What stands behind the first word is divided too.** -/
theorem Divides.exists_rest (h : Divides source lead ((w, gap) :: l)) :
    ∃ rest, source = lead ++ (w ++ rest) ∧ Divides rest gap l ∧
      (l ≠ [] → gap ≠ [] ∧ Closed w) ∧ (l = [] → Closed w ∨ gap = []) := by
  refine ⟨gap ++ l.flatMap fun p => p.1 ++ p.2, ?_, ⟨rfl, ?_, ?_, ?_, ?_, ?_, ?_⟩, ?_, ?_⟩
  · rw [h.source_eq, List.flatMap_cons, List.append_assoc w gap]
  · exact h.blank_gap _ List.mem_cons_self
  · exact fun p hp => h.blank_gap p (List.mem_cons_of_mem _ hp)
  · intro p hp
    cases l with
    | nil => cases hp
    | cons q l => exact h.gap_ne_nil p (List.mem_cons_of_mem _ hp)
  · exact fun p hp => h.isWord p (List.mem_cons_of_mem _ hp)
  · intro p hp
    cases l with
    | nil => cases hp
    | cons q l => exact h.closed p (List.mem_cons_of_mem _ hp)
  · intro p hp
    cases l with
    | nil => cases hp
    | cons q l => exact h.closed_last p hp
  · intro hne
    cases l with
    | nil => exact absurd rfl hne
    | cons q l => exact ⟨h.gap_ne_nil _ List.mem_cons_self, h.closed _ List.mem_cons_self⟩
  · rintro rfl
    exact h.closed_last _ rfl

/-! ## The words of a division -/

/-- A word that reaches the end of the text, whether it closes its quotes or
not. -/
theorem words_of_isWord (h : IsWord w) : words w = [w] := by
  obtain ⟨c, w, rfl⟩ := List.exists_cons_of_ne_nil h.ne_nil
  have hc : ¬ Text.isBlank c = true := by simp [h.head c rfl]
  have hspan : spanUntil Text.isBlank none (c :: w) = (c :: w, []) :=
    spanUntil_eq_nil_iff.2 ⟨rfl, h.hides⟩
  rw [words_cons_of_not_isBlank hc, hspan]
  rfl

/-- White space ends a word. -/
theorem endsWord_append (hgap : ∀ c ∈ gap, Text.isBlank c = true) (hne : gap ≠ []) (s : Text) :
    (gap ++ s).EndsWord := by
  obtain ⟨d, gap, rfl⟩ := List.exists_cons_of_ne_nil hne
  intro c hc
  cases hc
  exact hgap d List.mem_cons_self

/-- **The words of a division are the words of the text**, so a text has
only one division into words. -/
theorem Divides.words_eq (h : Divides source lead l) : words source = l.map Prod.fst := by
  induction l generalizing source lead with
  | nil =>
    have hsource := h.source_eq
    rw [List.flatMap_nil, List.append_nil] at hsource
    subst hsource
    have hwords := words_append_of_isBlank h.blank_lead []
    rwa [List.append_nil] at hwords
  | cons p l ih =>
    obtain ⟨w, gap⟩ := p
    obtain ⟨rest, hsource, hrest, hinner, hlast⟩ := h.exists_rest
    have hw : IsWord w := h.isWord _ List.mem_cons_self
    rw [hsource, words_append_of_isBlank h.blank_lead, List.map_cons, ← ih hrest]
    cases l with
    | nil =>
      have hgap : rest = gap := by simpa using hrest.source_eq
      subst hgap
      rcases hlast rfl with hclosed | rfl
      · exact words_word_append hw.ne_nil ⟨hclosed, hw.hides⟩ fun c hc =>
          hrest.blank_lead c (List.mem_of_head? hc)
      · rw [List.append_nil]
        exact words_of_isWord hw
    | cons q l =>
      obtain ⟨hgap, hclosed⟩ := hinner (List.cons_ne_nil q l)
      have hends : rest.EndsWord := by
        rw [hrest.source_eq]
        exact endsWord_append hrest.blank_lead hgap _
      exact words_word_append hw.ne_nil ⟨hclosed, hw.hides⟩ hends

/-- A text that begins with white space is divided with white space in front
of the first word. -/
theorem Divides.lead_ne_nil {c : Char} (hc : Text.isBlank c = true)
    (h : Divides (c :: rest) lead l) : lead ≠ [] := by
  rintro rfl
  have hsource := h.source_eq
  cases l with
  | nil => cases hsource
  | cons p l =>
    have hw : IsWord p.1 := h.isWord p List.mem_cons_self
    obtain ⟨d, v, hv⟩ := List.exists_cons_of_ne_nil hw.ne_nil
    have hd : Text.isBlank d = false := hw.head d (by rw [hv]; rfl)
    rw [List.flatMap_cons, hv] at hsource
    obtain ⟨rfl, -⟩ := List.cons.inj hsource
    rw [hc] at hd
    cases hd

/-- **Every text has a division into words.** -/
theorem exists_divides (source : Text) : ∃ lead l, Divides source lead l := by
  induction hn : source.length using Nat.strongRecOn generalizing source with
  | ind n ih =>
    have hsource : source = source.takeWhile Text.isBlank ++ source.dropWhile Text.isBlank :=
      List.takeWhile_append_dropWhile.symm
    have hlead : ∀ c ∈ source.takeWhile Text.isBlank, Text.isBlank c = true := fun c hc =>
      List.mem_takeWhile_imp hc
    have hstart := List.head?_dropWhile_not Text.isBlank source
    generalize source.takeWhile Text.isBlank = lead at hsource hlead
    generalize source.dropWhile Text.isBlank = s at hsource hstart
    subst hsource
    cases s with
    | nil =>
      rw [List.append_nil]
      exact ⟨lead, [], divides_nil hlead⟩
    | cons c s =>
      have hc : Text.isBlank c = false := by simpa using hstart
      rcases hspan : spanUntil Text.isBlank none (c :: s) with ⟨w, rest⟩
      have happend : w ++ rest = c :: s := by
        have := spanUntil_append Text.isBlank none (c :: s)
        rwa [hspan] at this
      have hw : IsWord w := by
        obtain ⟨v, rfl⟩ : ∃ v, w = c :: v := by
          rw [spanUntil, if_neg (by simp [hc])] at hspan
          exact ⟨_, (Prod.mk.inj hspan).1.symm⟩
        refine ⟨List.cons_ne_nil c v, fun d hd => ?_, ?_⟩
        · cases hd
          exact hc
        · have := hides_spanUntil Text.isBlank none (c :: s)
          rwa [hspan] at this
      rw [← happend] at hn ⊢
      cases rest with
      | nil =>
        rw [List.append_nil]
        exact ⟨lead, [(w, [])], divides_singleton hlead hw⟩
      | cons d rest =>
        -- The word ends at white space outside quotes, and what is left is shorter.
        have hd : Text.isBlank d = true := stop_of_spanUntil hspan
        have hclosed : Closed w := openAfter_of_spanUntil hspan
        have hlength : (d :: rest).length < n := by
          have hpos := List.length_pos_iff.2 hw.ne_nil
          rw [← hn, List.length_append, List.length_append]
          omega
        obtain ⟨gap, l, h⟩ := ih _ hlength (d :: rest) rfl
        exact ⟨lead, (w, gap) :: l, .cons hlead hw hclosed (h.lead_ne_nil hd) h⟩

/-! ## Reading on -/

/-- The next word, classified, and the arguments past it. -/
def nextToken (a : Arguments) : Option Word × Arguments :=
  (a.next.1.map Word.ofText, a.next.2)

/-- A way to go on reading the arguments. -/
inductive Reading where
  /-- The next word. -/
  | word
  /-- The next word, classified. -/
  | token
  /-- All words that are left. -/
  | all
  /-- The arguments start over. -/
  | rewind
deriving Repr, DecidableEq

/-- The arguments after a reading. -/
def read (a : Arguments) : Reading → Arguments
  | .word => a.next.2
  | .token => a.nextToken.2
  | .all => a.all.2
  | .rewind => a.rewind

/-- The words that a reading fetches. -/
def fetch (a : Arguments) : Reading → List Text
  | .word | .token => a.next.1.toList
  | .all => a.all.1
  | .rewind => []

/-- The arguments after some readings. -/
def readAll (a : Arguments) (rs : List Reading) : Arguments := rs.foldl read a

/-- **The words fetched since the arguments last started over**, when
`before` were fetched at the beginning. -/
def fetched (a : Arguments) (before : List Text) : List Reading → List Text
  | [] => before
  | .rewind :: rs => fetched a.rewind [] rs
  | r :: rs => fetched (a.read r) (before ++ a.fetch r) rs

/-- **What is left is the end of the arguments.** -/
def Inside (a : Arguments) : Prop := a.rest <:+ a.source

theorem inside_ofText (s : Text) : (ofText s).Inside := List.suffix_rfl

theorem Inside.next (h : a.Inside) : a.next.2.Inside := by
  have hspan := spanUntil_append Text.isBlank none (Text.trimStart a.rest)
  have hword : (firstWord a.rest).2 <:+ Text.trimStart a.rest := ⟨_, hspan⟩
  exact (hword.trans (List.dropWhile_suffix _)).trans h

theorem inside_all (a : Arguments) : a.all.2.Inside := List.nil_suffix

theorem Inside.read (h : a.Inside) (r : Reading) : (a.read r).Inside := by
  cases r with
  | word => exact h.next
  | token => exact h.next
  | all => exact inside_all a
  | rewind => exact inside_ofText a.source

theorem Inside.readAll (h : a.Inside) (rs : List Reading) : (a.readAll rs).Inside := by
  induction rs generalizing a with
  | nil => exact h
  | cons r rs ih => exact ih (h.read r)

/-- No word is in white space, and in nothing else. -/
theorem words_eq_nil_iff (s : Text) : words s = [] ↔ ∀ c ∈ s, Text.isBlank c = true := by
  constructor
  · intro h
    obtain ⟨lead, l, hdivides⟩ := exists_divides s
    have hl : l = [] := by
      rw [hdivides.words_eq, List.map_eq_nil_iff] at h
      exact h
    subst hl
    have hsource := hdivides.source_eq
    rw [List.flatMap_nil, List.append_nil] at hsource
    rw [hsource]
    exact hdivides.blank_lead
  · intro h
    have hwords := words_append_of_isBlank h []
    rwa [List.append_nil] at hwords

/-- **The next word is the first of those that are left.** -/
theorem next_eq_head? (a : Arguments) : a.next.1 = (words a.rest).head? := by
  cases hwords : words a.rest with
  | nil =>
    obtain ⟨rest, hnext⟩ := next_of_words_nil hwords
    rw [hnext]
    rfl
  | cons w ws =>
    obtain ⟨rest, hnext, -⟩ := next_of_words_cons hwords
    rw [hnext]
    rfl

/-- And the others are left then. -/
theorem words_next (a : Arguments) : words a.next.2.rest = (words a.rest).tail := by
  cases hwords : words a.rest with
  | nil =>
    have hsuffix : a.next.2.rest <:+ a.rest :=
      Inside.next (a := { a with source := a.rest }) List.suffix_rfl
    have hblank := (words_eq_nil_iff _).1 hwords
    exact (words_eq_nil_iff _).2 fun c hc => hblank c (hsuffix.subset hc)
  | cons w ws =>
    obtain ⟨rest, hnext, hrest⟩ := next_of_words_cons hwords
    rw [hnext]
    exact hrest

/-- So nothing is left exactly when there is no next word. -/
theorem atEnd_iff (a : Arguments) : a.atEnd = true ↔ a.next.1 = none := by
  rw [next_eq_head?, List.head?_eq_none_iff, words_eq_nil_iff, atEnd, List.all_eq_true]

/-- **One word after the other** is fetched, and none when all were. -/
theorem next_iterate (a : Arguments) (k : Nat) :
    ((fun a => a.next.2)^[k] a).next.1 = (words a.rest)[k]? := by
  induction k generalizing a with
  | zero => rw [Function.iterate_zero, id_eq, next_eq_head?, List.head?_eq_getElem?]
  | succ k ih => rw [Function.iterate_succ_apply, ih, words_next, List.getElem?_tail]

/-- A reading that does not start over fetches the first of the words that
are left, and leaves the others. -/
theorem fetch_append_words (a : Arguments) {r : Reading} (hr : r ≠ .rewind) :
    a.fetch r ++ words (a.read r).rest = words a.rest := by
  have hword : a.next.1.toList ++ words a.next.2.rest = words a.rest := by
    rw [next_eq_head?, words_next]
    cases words a.rest <;> rfl
  cases r with
  | word => exact hword
  | token => exact hword
  | all => exact List.append_nil _
  | rewind => exact absurd rfl hr

/-- Reading does not change the arguments. -/
theorem source_read (a : Arguments) (r : Reading) : (a.read r).source = a.source := by
  cases r <;> rfl

theorem source_readAll (a : Arguments) (rs : List Reading) :
    (a.readAll rs).source = a.source := by
  induction rs generalizing a with
  | nil => rfl
  | cons r rs ih =>
    have hrest := ih (a.read r)
    rw [source_read] at hrest
    exact hrest

/-- **What has been fetched and what is left** are the words of the
arguments, after any readings. -/
theorem fetched_append_words (a : Arguments) {before : List Text} (rs : List Reading)
    (h : before ++ words a.rest = words a.source) :
    a.fetched before rs ++ words (a.readAll rs).rest = words a.source := by
  induction rs generalizing a before with
  | nil => exact h
  | cons r rs ih =>
    have hgoesOn : r ≠ .rewind → (before ++ a.fetch r) ++ words (a.read r).rest =
        words (a.read r).source := by
      intro hr
      rw [List.append_assoc, fetch_append_words a hr, h, source_read]
    cases r with
    | word => exact ih (a.read .word) (hgoesOn nofun)
    | token => exact ih (a.read .token) (hgoesOn nofun)
    | all => exact ih (a.read .all) (hgoesOn nofun)
    | rewind => exact ih a.rewind rfl

/-- **Reading divides the arguments into words.** The words that are fetched
one after the other are those of a division of the arguments, there is no
other division, and after the last word there is none. Wherever readings of
any kind have come to, the arguments are at their end exactly when there is no
next word; the words fetched since they started over and all that are left are
the words of the division, so what is fetched at once is what would be fetched
one after the other; and when the arguments start over, the same words come
again. -/
theorem reading_divides (source : Text) :
    (∀ k, ((fun a => a.next.2)^[k] (ofText source)).next.1 = (words source)[k]?) ∧
    (∀ ws, (∃ lead l, Divides source lead l ∧ l.map Prod.fst = ws) ↔ ws = words source) ∧
    ∀ rs : List Reading,
      let a := (ofText source).readAll rs
      a.Inside ∧ a.source = source ∧
      (a.atEnd = true ↔ a.next.1 = none) ∧
      (ofText source).fetched [] rs ++ a.all.1 = words source ∧
      (∀ k, ((fun a => a.next.2)^[k] a).next.1 = a.all.1[k]?) ∧
      a.all.2.next.1 = none ∧
      ∀ k, ((fun a => a.next.2)^[k] a.rewind).next.1 = (words source)[k]? := by
  refine ⟨next_iterate (ofText source), fun ws => ?_, fun rs => ?_⟩
  · constructor
    · rintro ⟨lead, l, h, rfl⟩
      exact h.words_eq.symm
    · rintro rfl
      obtain ⟨lead, l, h⟩ := exists_divides source
      exact ⟨lead, l, h, h.words_eq.symm⟩
  · intro a
    have hsource : a.source = source := source_readAll _ rs
    refine ⟨(inside_ofText source).readAll rs, hsource, atEnd_iff a,
      fetched_append_words (ofText source) rs rfl, next_iterate a, rfl, fun k => ?_⟩
    rw [next_iterate, rewind, hsource]
    rfl

/-- A quote opens inside a word too, hides the other kind and white space, and
may run to the end. -/
example : words "  a='b \" c'd e=\"f ' g ".toList =
    ["a='b \" c'd".toList, "e=\"f ' g ".toList] := by
  decide +kernel

end Arguments

end Template

end FormTemplate
