import FormTemplate.Proofs.Text.Cutting
import Mathlib.Data.List.Induction

/-!
# Inside and outside quotes

`Quotation.openAfter` is the quote that is open at the end of a text. Two
properties of texts are read off it: a text is `Closed` when no quote is
open at its end, and it `Hides` a kind of character when each one in it
stands inside quotes. `spanUntil_eq_cons_iff` says that a cut takes the one
beginning that has both properties and a stop behind it. Texts that have
both are `Passed`, and they stay so when they are joined, so that what a
reader does with a long text is told from its parts.
-/

namespace FormTemplate

namespace Quotation

variable {stop : Char → Bool} {q : Quotation} {c x : Char} {s t before rest : Text}

/-! ## The quote at the end of a text -/

/-- The quote that is open after a text, with `q` open before it. -/
def openAfter (q : Quotation) (s : Text) : Quotation := s.foldl next q

@[simp] theorem openAfter_nil : openAfter q [] = q := rfl

@[simp] theorem openAfter_cons : openAfter q (c :: s) = openAfter (next q c) s := rfl

@[simp] theorem openAfter_append : openAfter q (s ++ t) = openAfter (openAfter q s) t :=
  List.foldl_append

/-- Without quotes a text opens none. -/
theorem openAfter_none_of_plain (h : ∀ c ∈ s, isQuote c = false) : openAfter none s = none := by
  induction s with
  | nil => rfl
  | cons c s ih =>
    rw [List.forall_mem_cons] at h
    rw [openAfter_cons, next, h.1]
    exact ih h.2

/-- A quote stays open as long as it does not come again. -/
theorem openAfter_some_of_not_mem (h : x ∉ s) : openAfter (some x) s = some x := by
  induction s with
  | nil => rfl
  | cons c s ih =>
    rw [List.mem_cons, not_or] at h
    rw [openAfter_cons, next, if_neg (Ne.symm h.1)]
    exact ih h.2

/-- What is open is a quote. -/
theorem isQuote_of_openAfter (h : openAfter none s = some x) : isQuote x = true := by
  induction s using List.reverseRecOn with
  | nil => cases h
  | append_singleton s c ih =>
    rw [openAfter_append] at h
    cases hs : openAfter none s with
    | none =>
      rw [hs, openAfter_cons, openAfter_nil, next] at h
      split at h
      · next hc => cases h; exact hc
      · cases h
    | some y =>
      rw [hs, openAfter_cons, openAfter_nil, next] at h
      split at h
      · cases h
      · cases h; exact ih hs

/-- **A text closes its quotes**: none is open at its end. -/
def Closed (s : Text) : Prop := openAfter none s = none

theorem closed_nil : Closed [] := rfl

theorem Closed.append (hs : Closed s) (ht : Closed t) : Closed (s ++ t) := by
  rw [Closed, openAfter_append, hs, ht]

/-- What follows closed quotes closes its own. -/
theorem Closed.of_append (hs : Closed s) (h : Closed (s ++ t)) : Closed t := by
  rwa [Closed, openAfter_append, hs] at h

theorem closed_of_plain (h : ∀ c ∈ s, isQuote c = false) : Closed s := openAfter_none_of_plain h

/-- A text without quotes behind a text closes none of its quotes. -/
theorem closed_append_iff (h : ∀ c ∈ t, isQuote c = false) : Closed (s ++ t) ↔ Closed s := by
  refine ⟨fun hst => ?_, fun hs => hs.append (closed_of_plain h)⟩
  cases hs : openAfter none s with
  | none => exact hs
  | some x =>
    have hx : x ∉ t := fun hmem => by
      have hplain := h x hmem
      rw [isQuote_of_openAfter hs] at hplain
      cases hplain
    rw [Closed, openAfter_append, hs, openAfter_some_of_not_mem hx] at hst
    cases hst

theorem closed_quoted (hx : isQuote x = true) (ht : x ∉ t) : Closed (x :: t ++ [x]) := by
  have hopen : openAfter none (x :: t) = some x := by
    rw [openAfter_cons, next, if_pos hx, openAfter_some_of_not_mem ht]
  rw [Closed, openAfter_append, hopen]
  simp [next]

/-! ## Stops outside quotes -/

/-- **A text hides the stops** when each stop in it stands inside quotes;
`q` is open before the text. -/
def Hides (stop : Char → Bool) (q : Quotation) (s : Text) : Prop :=
  ∀ before c rest, s = before ++ c :: rest → openAfter q before = none → stop c = false

theorem hides_nil : Hides stop q [] := by
  intro before c rest h
  simp at h

theorem hides_cons :
    Hides stop q (c :: s) ↔ (q = none → stop c = false) ∧ Hides stop (next q c) s := by
  constructor
  · intro h
    refine ⟨fun hq => h [] c s rfl hq, fun before d rest hs hopen => ?_⟩
    exact h (c :: before) d rest (by rw [hs, List.cons_append]) hopen
  · rintro ⟨hc, hs⟩ before d rest heq hopen
    cases before with
    | nil =>
      obtain ⟨rfl, -⟩ := List.cons.inj heq
      exact hc hopen
    | cons b before =>
      obtain ⟨rfl, htail⟩ := List.cons.inj heq
      exact hs before d rest htail hopen

theorem hides_append :
    Hides stop q (s ++ t) ↔ Hides stop q s ∧ Hides stop (openAfter q s) t := by
  induction s generalizing q with
  | nil => simp [hides_nil]
  | cons c s ih => rw [List.cons_append, hides_cons, hides_cons, ih, openAfter_cons, and_assoc]

theorem Closed.hides_append (hs : Closed s) :
    Hides stop none (s ++ t) ↔ Hides stop none s ∧ Hides stop none t := by
  rw [Quotation.hides_append, hs]

/-- A text without stops hides them. -/
theorem hides_of_forall (h : ∀ c ∈ s, stop c = false) : Hides stop q s := by
  rintro before c rest rfl -
  exact h c (by simp)

/-- Inside quotes all is hidden. -/
theorem hides_quoted (hx : isQuote x = true) (hstop : stop x = false) (ht : x ∉ t) :
    Hides stop none (x :: t ++ [x]) := by
  rw [List.cons_append, hides_cons, next, if_pos hx, Quotation.hides_append,
    openAfter_some_of_not_mem ht]
  refine ⟨fun _ => hstop, ?_, hides_of_forall (by simpa using hstop)⟩
  rintro before c rest rfl hopen
  rw [openAfter_some_of_not_mem fun hmem => ht (List.mem_append_left _ hmem)] at hopen
  cases hopen

/-- **A text that a cut passes**: it closes its quotes and hides the stops. -/
structure Passed (stop : Char → Bool) (s : Text) : Prop where
  /-- No quote is open at its end. -/
  closed : Closed s
  /-- No stop stands outside quotes. -/
  hides : Hides stop none s

theorem passed_nil : Passed stop [] := ⟨closed_nil, hides_nil⟩

theorem Passed.append (hs : Passed stop s) (ht : Passed stop t) : Passed stop (s ++ t) :=
  ⟨hs.closed.append ht.closed, hs.closed.hides_append.2 ⟨hs.hides, ht.hides⟩⟩

theorem passed_of_plain (h : ∀ c ∈ s, isQuote c = false ∧ stop c = false) : Passed stop s :=
  ⟨closed_of_plain fun c hc => (h c hc).1, hides_of_forall fun c hc => (h c hc).2⟩

theorem passed_quoted (hx : isQuote x = true) (hstop : stop x = false) (ht : x ∉ t) :
    Passed stop (x :: t ++ [x]) :=
  ⟨closed_quoted hx ht, hides_quoted hx hstop ht⟩

theorem passed_flatMap {α : Type} {f : α → Text} {l : List α}
    (h : ∀ a ∈ l, Passed stop (f a)) : Passed stop (l.flatMap f) := by
  induction l with
  | nil => exact passed_nil
  | cons a l ih =>
    rw [List.forall_mem_cons] at h
    exact h.1.append (ih h.2)

/-! ## The cut at the first stop -/

/-- A text that hides the stops is passed as a whole. -/
theorem spanUntil_append_of_hides (h : Hides stop q s) (t : Text) :
    spanUntil stop q (s ++ t) =
      (s ++ (spanUntil stop (openAfter q s) t).1, (spanUntil stop (openAfter q s) t).2) := by
  induction s generalizing q with
  | nil => rfl
  | cons c s ih =>
    obtain ⟨hc, hs⟩ := hides_cons.1 h
    have hgoes : ¬ (q.isNone && stop c) = true := by
      cases q with
      | none => simp [hc rfl]
      | some x => simp
    rw [List.cons_append, spanUntil, if_neg hgoes, ih hs]
    rfl

/-- What a cut takes hides the stops. -/
theorem hides_spanUntil (stop : Char → Bool) (q : Quotation) (s : Text) :
    Hides stop q (spanUntil stop q s).1 := by
  induction s generalizing q with
  | nil => exact hides_nil
  | cons c s ih =>
    rw [spanUntil]
    split
    · exact hides_nil
    · next hgoes =>
      refine hides_cons.2 ⟨?_, ih _⟩
      rintro rfl
      simpa using hgoes

/-- And a cut that stops does so outside quotes. -/
theorem openAfter_of_spanUntil (h : spanUntil stop q s = (before, c :: rest)) :
    openAfter q before = none := by
  induction s generalizing q before with
  | nil => cases h
  | cons d s ih =>
    rw [spanUntil] at h
    split at h
    · next hstops =>
      rw [Bool.and_eq_true, Option.isNone_iff_eq_none] at hstops
      cases h
      exact hstops.1
    · obtain ⟨rfl, hrest⟩ := Prod.mk.inj h
      exact ih (q := next q d) (Prod.ext rfl hrest)

/-- **Where a cut stops**: at the stop behind a beginning that closes its
quotes and hides the stops. -/
theorem spanUntil_eq_cons_iff :
    spanUntil stop q s = (before, c :: rest) ↔
      s = before ++ c :: rest ∧ Hides stop q before ∧ openAfter q before = none ∧
        stop c = true := by
  constructor
  · intro h
    have happend := spanUntil_append stop q s
    have hhides := hides_spanUntil stop q s
    rw [h] at happend hhides
    exact ⟨happend.symm, hhides, openAfter_of_spanUntil h, stop_of_spanUntil h⟩
  · rintro ⟨rfl, hhides, hopen, hstop⟩
    rw [spanUntil_append_of_hides hhides, hopen, spanUntil, if_pos (by simpa using hstop)]
    simp

/-- It does not stop in a text that hides the stops, and in no other. -/
theorem spanUntil_eq_nil_iff :
    spanUntil stop q s = (before, []) ↔ before = s ∧ Hides stop q s := by
  constructor
  · intro h
    have happend := spanUntil_append stop q s
    have hhides := hides_spanUntil stop q s
    rw [h, List.append_nil] at happend
    rw [h] at hhides
    exact ⟨happend, happend ▸ hhides⟩
  · rintro ⟨rfl, hhides⟩
    have hspan := spanUntil_append_of_hides hhides []
    rw [List.append_nil] at hspan
    simpa [spanUntil] using hspan

end Quotation

end FormTemplate
