import FormTemplate.Text.Basic

/-!
# Entities

The five characters that mean something in markup are written as entities
wherever a text or an attribute value is printed. Most texts hold none of
them, and these are not rewritten at all; `escape_eq` says that rewriting
them would not change them.
-/

namespace FormTemplate

namespace Markup

/-- The characters that mean something in markup. -/
def specials : Text := "&<>\"'".toList

/-- How one character of a text is written in markup. -/
def escapeChar (c : Char) : Text :=
  if c = '&' then "&amp;".toList
  else if c = '<' then "&lt;".toList
  else if c = '>' then "&gt;".toList
  else if c = '"' then "&quot;".toList
  else if c = '\'' then "&#39;".toList
  else [c]

/-- The text rewritten for markup, unless it can stand there as it is. -/
def rewritten? (s : Text) : Option Text :=
  if s.any specials.contains then some (s.flatMap escapeChar) else none

/-- **A text as it is written in markup.** -/
def escape (s : Text) : Text := (rewritten? s).getD s

/-- A character that means nothing is written as it is. -/
theorem escapeChar_of_not_mem {c : Char} (h : c ∉ specials) : escapeChar c = [c] := by
  simp_all [specials, escapeChar]

/-- **Every text is written character by character**, those included that
are left as they are. -/
theorem escape_eq (s : Text) : escape s = s.flatMap escapeChar := by
  rw [escape, rewritten?]
  split
  · rfl
  · next h =>
    have hall : ∀ c ∈ s, escapeChar c = [c] := fun c hc =>
      escapeChar_of_not_mem fun hmem =>
        h (List.any_eq_true.2 ⟨c, hc, List.contains_iff_mem.2 hmem⟩)
    calc
      s = s.flatMap fun c => [c] := (List.flatMap_singleton' s).symm
      _ = s.flatMap escapeChar := by
        rw [List.flatMap_def, List.flatMap_def, List.map_congr_left hall]

/-- Escaping goes piece by piece. -/
@[simp] theorem escape_append (s t : Text) : escape (s ++ t) = escape s ++ escape t := by
  simp [escape_eq]

end Markup

end FormTemplate
