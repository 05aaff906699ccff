import Mathlib.Data.List.Basic

/-!
# Properly nested brackets

Directives of a template, blocks of the generated code and the forms it
begins and ends are all brackets: each opens something of some kind and
closes it again. `Nested` is the grammar of properly nested sequences, and
`opened` the stack that a left-to-right reading keeps. A nested sequence
leaves the stack alone (`opened_of_nested`) and closes at every place what
is innermost there (`opened_of_nested_split`).
-/

namespace FormTemplate

/-- A bracket of some kind. -/
inductive Bracket (α : Type) where
  /-- Opens something. -/
  | opening (kind : α)
  /-- Closes something. -/
  | closing (kind : α)
deriving Repr, DecidableEq

namespace Bracket

variable {α : Type} {v w : List (Bracket α)} {a : α} {st : List α}

/-- **Properly nested sequences of brackets.** -/
inductive Nested : List (Bracket α) → Prop
  /-- Nothing. -/
  | nil : Nested []
  /-- One sequence after the other. -/
  | append {v w : List (Bracket α)} : Nested v → Nested w → Nested (v ++ w)
  /-- A sequence inside a pair of brackets. -/
  | pair (a : α) {w : List (Bracket α)} : Nested w → Nested (opening a :: w ++ [closing a])

/-- What is open after a sequence of brackets, the innermost first, when
`st` is open before it. A closing bracket closes the innermost. -/
def opened : List (Bracket α) → List α → List α
  | [], st => st
  | opening a :: w, st => opened w (a :: st)
  | closing _ :: w, st => opened w st.tail

@[simp] theorem opened_opening : opened (opening a :: w) st = opened w (a :: st) := rfl

@[simp] theorem opened_closing : opened (closing a :: w) st = opened w st.tail := rfl

@[simp] theorem opened_append : opened (v ++ w) st = opened w (opened v st) := by
  induction v generalizing st with
  | nil => rfl
  | cons b v ih => cases b <;> exact ih

/-- **A nested sequence leaves open what was open.** -/
theorem opened_of_nested (h : Nested w) : opened w st = st := by
  induction h generalizing st with
  | nil => rfl
  | append _ _ ihv ihw => rw [opened_append, ihv, ihw]
  | pair a _ ih =>
    rw [List.cons_append, opened_opening, opened_append, ih]
    rfl

/-- The same bracket of the kind that stands for its own, if there is one. -/
def map? {β : Type} (f : α → Option β) : Bracket α → Option (Bracket β)
  | opening a => (f a).map opening
  | closing a => (f a).map closing

/-- **A nested sequence stays nested** when all brackets of some kinds are
left out. -/
theorem Nested.filterMap {β : Type} (f : α → Option β) (h : Nested w) :
    Nested (w.filterMap (map? f)) := by
  induction h with
  | nil => exact .nil
  | append _ _ ihv ihw =>
    rw [List.filterMap_append]
    exact ihv.append ihw
  | pair a _ ih =>
    cases ha : f a with
    | none => simpa [map?, ha] using ih
    | some b => simpa [map?, ha] using ih.pair b

/-- Where a sequence is cut at an element of one of its two parts. -/
theorem append_eq_append_cons {p q v w : List (Bracket α)} {b : Bracket α}
    (h : p ++ q = v ++ b :: w) :
    (∃ t, v = p ++ t ∧ q = t ++ b :: w) ∨ ∃ t, p = v ++ b :: t ∧ w = t ++ q := by
  rcases List.append_eq_append_iff.1 h with ⟨t, rfl, ht⟩ | ⟨t, rfl, ht⟩
  · exact .inl ⟨t, rfl, ht⟩
  · cases t with
    | nil => exact .inl ⟨[], by simp, by simpa using ht.symm⟩
    | cons c t =>
      obtain ⟨rfl, rfl⟩ := List.cons.inj ht
      exact .inr ⟨t, rfl, rfl⟩

/-- **A nested sequence closes what is innermost.** -/
theorem opened_of_nested_split (h : Nested (v ++ closing a :: w)) :
    ∃ rest, opened v st = a :: rest := by
  generalize hu : v ++ closing a :: w = u at h
  induction h generalizing v w st with
  | nil => simp at hu
  | @append p q hp _ ihp ihq =>
    rcases append_eq_append_cons hu.symm with ⟨t, rfl, ht⟩ | ⟨t, ht, -⟩
    · -- the closing bracket is in the second part
      rw [opened_append, opened_of_nested hp]
      exact ihq ht.symm
    · exact ihp ht.symm
  | @pair b u h ih =>
    cases v with
    | nil => cases hu
    | cons c v =>
      simp only [List.cons_append, List.cons.injEq] at hu
      obtain ⟨rfl, hu⟩ := hu
      rw [opened_opening]
      rcases append_eq_append_cons hu.symm with ⟨t, rfl, ht⟩ | ⟨t, ht, -⟩
      · -- the closing bracket is the last of all
        obtain ⟨rfl, rfl⟩ : t = [] ∧ b = a := by
          cases t with
          | nil => exact ⟨rfl, by simpa using (List.cons.inj ht).1⟩
          | cons d t => simp at ht
        exact ⟨st, by rw [List.append_nil, opened_of_nested h]⟩
      · exact ih ht.symm

/-- What a nested sequence opens first it also closes. -/
theorem Nested.exists_of_opening (h : Nested (opening a :: w)) :
    ∃ inside after, w = inside ++ closing a :: after ∧ Nested inside ∧ Nested after := by
  generalize hu : opening a :: w = u at h
  induction h generalizing w with
  | nil => cases hu
  | @append p q _ hq ihp ihq =>
    cases p with
    | nil => exact ihq hu
    | cons b p =>
      obtain ⟨rfl, rfl⟩ := List.cons.inj hu
      obtain ⟨inside, after, rfl, hinside, hafter⟩ := ihp rfl
      exact ⟨inside, after ++ q, by simp, hinside, hafter.append hq⟩
  | @pair b u h _ =>
    obtain ⟨hb, rfl⟩ := List.cons.inj hu
    cases hb
    exact ⟨u, [], rfl, h, .nil⟩

/-- **What follows a nested sequence is nested** if both together are. -/
theorem Nested.of_append (hv : Nested v) (h : Nested (v ++ w)) : Nested w := by
  induction hv generalizing w with
  | nil => exact h
  | append _ _ ihp ihq =>
    rw [List.append_assoc] at h
    exact ihq (ihp h)
  | @pair a u hu _ =>
    rw [List.cons_append, List.cons_append, List.append_assoc, List.singleton_append] at h
    obtain ⟨inside, after, heq, hinside, hafter⟩ := h.exists_of_opening
    -- Neither of the two bodies goes on behind the closing bracket of the other.
    have hno : ∀ {s t : List (Bracket α)}, Nested s → ¬ Nested (s ++ closing a :: t) := by
      intro s t hs hnested
      obtain ⟨rest, hrest⟩ : ∃ rest, opened s [] = a :: rest := opened_of_nested_split hnested
      rw [opened_of_nested hs] at hrest
      cases hrest
    rcases append_eq_append_cons heq with ⟨t, rfl, ht⟩ | ⟨t, rfl, -⟩
    · cases t with
      | nil => exact (List.cons.inj ht).2 ▸ hafter
      | cons c t =>
        obtain ⟨rfl, -⟩ := List.cons.inj ht
        exact absurd hinside (hno hu)
    · exact absurd hu (hno hinside)

end Bracket

end FormTemplate
