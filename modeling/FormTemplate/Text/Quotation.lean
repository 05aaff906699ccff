import FormTemplate.Text.Basic

/-!
# Quotation

Whether a character stands inside quotes depends on the quotes before it.
The state is the quote that is open, if any: either kind of quote opens,
only the same kind closes, and what stands between is plain. Every reader
of this library that honours quotes walks the text with `Quotation.next`.
-/

namespace FormTemplate

/-- The quote that is open, if any. -/
abbrev Quotation := Option Char

namespace Quotation

/-- The two characters that open a quotation. -/
def isQuote (c : Char) : Bool := c == '"' || c == '\''

/-- The state after one more character. -/
def next : Quotation → Char → Quotation
  | some q, c => if c = q then none else some q
  | none, c => if isQuote c then some c else none

/-- **The text before the first stop outside quotes, and the rest from
that stop on.** Without such a stop the rest is empty. -/
def spanUntil (stop : Char → Bool) : Quotation → Text → Text × Text
  | _, [] => ([], [])
  | q, c :: s =>
    if q.isNone && stop c then ([], c :: s)
    else
      let r := spanUntil stop (next q c) s
      (c :: r.1, r.2)

/-- Nothing is lost by the cut. -/
theorem spanUntil_append (stop : Char → Bool) (q : Quotation) (s : Text) :
    (spanUntil stop q s).1 ++ (spanUntil stop q s).2 = s := by
  induction s generalizing q with
  | nil => rfl
  | cons c s ih =>
    rw [spanUntil]
    split
    · rfl
    · simp [ih]

end Quotation

end FormTemplate
