import FormTemplate.Text.Basic

/-!
# Quoted strings

The four ways to write a string in a document: in quotation marks or
apostrophes, on one line or over several. Between quotation marks a
backslash begins an escape; between apostrophes every character stands for
itself. Each reader here begins after the opening delimiter and gives the
text after the closing one.
-/

namespace FormTemplate

namespace Toml

/-- A reader takes a thing from the start of a text and gives the rest. -/
abbrev Reader (α : Type) := Text → Option (α × Text)

/-- Whether a character may stand for itself: no control character but the
tab does. -/
def isPlain (c : Char) : Bool := c == '\t' || (0x20 ≤ c.toNat && c.toNat != 0x7F)

/-- Whether a character is white space within a line. -/
def isSpace (c : Char) : Bool := c == ' ' || c == '\t'

/-- The text without the white space it starts with, within its line. -/
def skipSpaces (s : Text) : Text := s.dropWhile isSpace

/-- Puts a character in front of what is read. -/
def before (c : Char) : Option (Text × Text) → Option (Text × Text)
  | some (r, rest) => some (c :: r, rest)
  | none => none

/-! ## Escapes -/

/-- The character that one letter after a backslash stands for. -/
def escaped? (c : Char) : Option Char :=
  [('b', '\x08'), ('t', '\t'), ('n', '\n'), ('f', '\x0c'), ('r', '\r'), ('e', '\x1b'),
    ('"', '"'), ('\\', '\\')].lookup c

/-- The character of a hexadecimal numeral, if there is one: surrogates and
numbers beyond U+10FFFF are none. -/
def scalar? (numeral : Text) : Option Char :=
  if numeral.all fun c => (Text.digit? 16 c).isSome then
    let n := Text.numeral 16 numeral
    if n.isValidChar then some (Char.ofNat n) else none
  else none

/-- The number of hexadecimal digits that an escape of this letter has. -/
def numeralLength? (c : Char) : Option Nat :=
  [('x', 2), ('u', 4), ('U', 8)].lookup c

/-- The character of an escape, after its backslash, and the number of
characters of the escape. -/
def escape? : Text → Option (Char × Nat)
  | [] => none
  | c :: s =>
    match numeralLength? c with
    | none => (escaped? c).map fun d => (d, 1)
    | some n =>
      let numeral := s.take n
      if numeral.length == n then (scalar? numeral).map fun d => (d, n + 1) else none

/-! ## On one line -/

/-- A string up to its closing quotation mark; the first `skipped`
characters belong to an escape already read. -/
def quotedFrom : (skipped : Nat) → Reader Text
  | _, [] => none
  | k + 1, _ :: s => quotedFrom k s
  | 0, c :: s =>
    if c == '"' then some ([], s)
    else if c == '\\' then
      match escape? s with
      | some (d, n) => before d (quotedFrom n s)
      | none => none
    else if isPlain c then before c (quotedFrom 0 s)
    else none

/-- **A string in quotation marks.** -/
def quoted : Reader Text := quotedFrom 0

/-- **A string in apostrophes.** -/
def literal : Reader Text
  | [] => none
  | c :: s =>
    if c == '\'' then some ([], s)
    else if isPlain c then before c (literal s)
    else none

/-! ## Over several lines -/

/-- The text without the line break it starts with, if it does. -/
def lineBreak? : Text → Option Text
  | '\n' :: s => some s
  | '\r' :: '\n' :: s => some s
  | _ => none

/-- The closing delimiter of a string over several lines, three marks. One
or two more in front of it belong to the string. -/
def closing? (mark : Char) (s : Text) : Option (Text × Text) :=
  let count := min 5 (s.takeWhile (· == mark)).length
  if 3 ≤ count then some (List.replicate (count - 3) mark, s.drop count) else none

/-- Whether a character may stand for itself in a string over several
lines; a carriage return only does in front of a line feed. -/
def isPlainOverLines (c : Char) (s : Text) : Bool :=
  isPlain c || c == '\n' || (c == '\r' && s.head? == some '\n')

/-- What is passed over in a string. -/
inductive Passing where
  /-- So many characters, which belong to an escape already read. -/
  | characters (count : Nat)
  /-- White space and line breaks, for a line ended in a backslash. -/
  | blanks

/-- A string over several lines up to its closing delimiter. -/
def quotedLinesFrom : Passing → Reader Text
  | _, [] => none
  | .characters (k + 1), _ :: s => quotedLinesFrom (.characters k) s
  | passing, c :: s =>
    match closing? '"' (c :: s) with
    | some closed => some closed
    | none =>
      if c == '\\' then
        match escape? s with
        | some (d, n) => before d (quotedLinesFrom (.characters n) s)
        | none =>
          if (lineBreak? (skipSpaces s)).isSome then quotedLinesFrom .blanks s else none
      else if isPlainOverLines c s then
        match passing with
        | .characters _ => before c (quotedLinesFrom (.characters 0) s)
        | .blanks =>
          if isSpace c || c == '\n' || c == '\r' then quotedLinesFrom .blanks s
          else before c (quotedLinesFrom (.characters 0) s)
      else none

/-- **A string over several lines in quotation marks.** A line break right
after the opening delimiter is not part of it. -/
def quotedLines (s : Text) : Option (Text × Text) :=
  quotedLinesFrom (.characters 0) ((lineBreak? s).getD s)

/-- A string over several lines up to its closing delimiter. -/
def literalLinesFrom : Reader Text
  | [] => none
  | c :: s =>
    match closing? '\'' (c :: s) with
    | some closed => some closed
    | none => if isPlainOverLines c s then before c (literalLinesFrom s) else none

/-- **A string over several lines in apostrophes.** A line break right
after the opening delimiter is not part of it. -/
def literalLines (s : Text) : Option (Text × Text) :=
  literalLinesFrom ((lineBreak? s).getD s)

end Toml

end FormTemplate
