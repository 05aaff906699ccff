import FormTemplate.Text.Basic
import FormTemplate.Text.Printable
import FormTemplate.Text.GraphemeExtend

/-!
# String literals

How a text is written as a string literal of the generated code. Between
two double quotes stand the characters of the text, each by itself or by
an escape: the usual letters after a backslash, and `\u`, the code point
in braces, for a character that would not show as itself.
-/

namespace FormTemplate

namespace Literal

/-- An escape by code point: `\u` and the hexadecimal digits in braces. -/
def codePointEscape (c : Char) : Text :=
  "\\u\x7b".toList ++ Text.hexadecimal c.toNat ++ ['\x7d']

/-- **How one character is written inside a literal.** ASCII that prints
stands for itself, the quote and the backslash apart; beyond ASCII a
character does when it prints and does not combine with the one before. -/
def escape (c : Char) : Text :=
  if c = '\x00' then "\\0".toList
  else if c = '\t' then "\\t".toList
  else if c = '\r' then "\\r".toList
  else if c = '\n' then "\\n".toList
  else if c = '\\' then "\\\\".toList
  else if c = '"' then "\\\"".toList
  else if ' ' ≤ c && c ≤ '~' then [c]
  else if Text.isCombining c || !Text.isPrintable c then codePointEscape c
  else [c]

/-- The literal of a text. -/
def quote (s : Text) : Text := '"' :: s.flatMap escape ++ ['"']

end Literal

end FormTemplate
