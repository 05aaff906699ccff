import FormTemplate.Template.Arguments
import FormTemplate.Template.AttributeList
import FormTemplate.Template.Error

/-!
# Patterns of generated code

The code of a directive is written as a pattern: plain code with
placeholders for what the template supplies.

* `%runtime` is the path of the rendering library;
* `%node.word` is the next word of the directive's arguments;
* `%node.array` is all their remaining words, as an attribute list;
* `%N.word`, `%N.raw` and `%N.var` are the argument at position `N`, as a
  word, verbatim, or as a value.

A percent sign that starts none of these is plain code. `Pattern.ofText`
cuts a pattern into its parts, `Pattern.expand` puts in what they stand
for. What is put in is never read for placeholders again.
-/

namespace FormTemplate

namespace Template

/-- How an argument of a pattern is written. -/
inductive ArgumentForm where
  /-- As a word: a quoted literal or a bare expression. -/
  | word
  /-- As it is. -/
  | raw
  /-- As a value: quoted whatever it holds. -/
  | var
deriving Repr, DecidableEq

/-- A part of a pattern. -/
inductive PatternPart where
  /-- Code that stands for itself. -/
  | plain (code : Text)
  /-- The path of the rendering library. -/
  | runtime
  /-- The next word of the arguments. -/
  | nextWord
  /-- The remaining words of the arguments, as attributes. -/
  | remainingWords
  /-- An argument of the pattern. -/
  | argument (index : Nat) (form : ArgumentForm)
deriving Repr, DecidableEq

/-- A pattern of generated code. -/
abbrev Pattern := List PatternPart

/-- An argument of a pattern. -/
inductive PatternArgument where
  /-- A text. -/
  | text (text : Text)
  /-- Attributes. -/
  | attributes (list : AttributeList)
deriving Repr, DecidableEq

namespace Pattern

/-- Positions are machine words; a numeral from here on names none. -/
def indexBound : Nat := Nat.pow 2 64

/-- The form that a text starts with, and the length of its name. -/
def form? (s : Text) : Option (ArgumentForm × Nat) :=
  if "word".toList.isPrefixOf s then some (.word, 4)
  else if "raw".toList.isPrefixOf s then some (.raw, 3)
  else if "var".toList.isPrefixOf s then some (.var, 3)
  else none

/-- The positional placeholder that a text starts with, the percent sign
not counted, and its length. -/
def positional? (s : Text) : Option (PatternPart × Nat) :=
  let digits := s.takeWhile Char.isDigit
  let index := Text.numeral 10 digits
  if digits.isEmpty || indexBound ≤ index then none
  else
    match s.drop digits.length with
    | '.' :: after =>
      (form? after).map fun f => (.argument index f.1, digits.length + 1 + f.2)
    | _ => none

/-- The placeholder that a text starts with, the percent sign not counted,
and its length. -/
def placeholder? (s : Text) : Option (PatternPart × Nat) :=
  if "runtime".toList.isPrefixOf s then some (.runtime, 7)
  else if "node.word".toList.isPrefixOf s then some (.nextWord, 9)
  else if "node.array".toList.isPrefixOf s then some (.remainingWords, 10)
  else positional? s

/-- Puts a character of plain code in front of a pattern. -/
def consPlain (c : Char) : Pattern → Pattern
  | .plain code :: parts => .plain (c :: code) :: parts
  | parts => .plain [c] :: parts

/-- **The parts of a pattern's text.** -/
def ofText (s : Text) : Pattern :=
  go 0 s
where
  /-- The parts after the first `skip` characters. -/
  go : Nat → Text → Pattern
    | _, [] => []
    | skip + 1, _ :: s => go skip s
    | 0, c :: s =>
      match if c = '%' then placeholder? s else none with
      | some (part, length) => part :: go length s
      | none => consPlain c (go 0 s)

/-- An argument in a form. -/
def argumentCode : PatternArgument → ArgumentForm → Except CompileError Text
  | .text s, .word => .ok (Word.ofText s).code
  | .text s, .raw => .ok s
  | .text s, .var => .ok (Literal.quote s)
  | .attributes _, .word => .error (.internal .attributesAsWord)
  | .attributes l, _ => .ok l.code

/-- What one part stands for, and the directive's arguments past the words
it takes. -/
def expandPart (runtimePath : Text) (given : List PatternArgument) (a : Arguments) :
    PatternPart → Except CompileError Text × Arguments
  | .plain code => (.ok code, a)
  | .runtime => (.ok runtimePath, a)
  | .nextWord =>
    match a.next with
    | (some word, a) => (.ok (Word.ofText word).code, a)
    | (none, a) => (.error (.internal .noWordLeft), a)
  | .remainingWords => (.ok (AttributeList.ofWords a.all.1).code, a.all.2)
  | .argument index form =>
    match given[index]? with
    | some argument => (argumentCode argument form, a)
    | none => (.error (.internal (.noArgument index)), a)

/-- **The code of a pattern**: its parts in order, each replaced by what it
stands for. Words taken before a failure stay taken. -/
def expand (runtimePath : Text) (given : List PatternArgument) :
    Pattern → Arguments → Except CompileError Text × Arguments
  | [], a => (.ok [], a)
  | part :: parts, a =>
    match expandPart runtimePath given a part with
    | (.error e, a) => (.error e, a)
    | (.ok code, a) =>
      match expand runtimePath given parts a with
      | (.error e, a) => (.error e, a)
      | (.ok rest, a) => (.ok (code ++ rest), a)

end Pattern

end Template

end FormTemplate
