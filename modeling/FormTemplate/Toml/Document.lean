import FormTemplate.Toml.Quoted
import FormTemplate.Toml.Scalar
import FormTemplate.Toml.Table

/-!
# Documents

`Entries.ofSource?` reads a TOML document. A document is a sequence of
statements, each on a line of its own: pairs of keys and values, and
headers, below which the pairs of a table stand. Reading has two stages.
The first gives the statements, the second builds the tables they describe;
either may refuse the document.
-/

namespace FormTemplate

namespace Toml

/-! ## Between statements and values -/

/-- The text after a comment and its line break. -/
def afterComment? : Text → Option Text
  | [] => some []
  | '\n' :: s => some s
  | '\r' :: '\n' :: s => some s
  | c :: s => if isPlain c then afterComment? s else none

/-- The text after a statement's line: white space and a comment may
follow. -/
def afterLine? (s : Text) : Option Text :=
  match skipSpaces s with
  | [] => some []
  | '#' :: s => afterComment? s
  | s => lineBreak? s

/-- The text after white space, line breaks and comments. -/
def skipBlanks? : (inComment : Bool) → Text → Option Text
  | _, [] => some []
  | _, '\n' :: s => skipBlanks? false s
  | _, '\r' :: '\n' :: s => skipBlanks? false s
  | true, c :: s => if isPlain c then skipBlanks? true s else none
  | false, c :: s =>
    if isSpace c then skipBlanks? false s
    else if c == '#' then skipBlanks? true s
    else some (c :: s)

/-! ## Keys -/

/-- How deep a document goes: the number of keys in a row, and how often
arrays and tables in braces stand in each other. -/
def maxDepth : Nat := 80

/-- Whether a character may stand in a key without quotes. -/
def isKeyChar (c : Char) : Bool := c.isAlphanum || c == '_' || c == '-'

/-- A single key. -/
def key : Reader Text
  | '"' :: s => quoted s
  | '\'' :: s => literal s
  | s =>
    let (name, rest) := s.span isKeyChar
    if name.isEmpty then none else some (name, rest)

/-- Keys between dots, however many. -/
def dottedKeys (s : Text) : Option (KeyPath × Text) :=
  match key s with
  | none => none
  | some (first, rest) =>
    match skipSpaces rest with
    | '.' :: t =>
      if (skipSpaces t).length < s.length then
        (dottedKeys (skipSpaces t)).map fun (path, u) => (⟨first, path.first :: path.others⟩, u)
      else none
    | _ => some (⟨first, []⟩, rest)
termination_by s.length

/-- **Keys between dots.** -/
def keyPath (s : Text) : Option (KeyPath × Text) :=
  (dottedKeys s).filter fun p => p.1.others.length < maxDepth

/-! ## Values -/

/-- Whether a character may stand in a bare word. -/
def isWordChar (c : Char) : Bool :=
  !([' ', '\t', '\r', '\n', ',', '#', '=', '[', ']', '\x7b', '\x7d'].contains c)

/-- What a bare word stands for. The one word with a space in it is a date
with a time. -/
def bareValue (s : Text) : Option (Value × Text) :=
  let (word, rest) := s.span isWordChar
  match rest with
  | ' ' :: t =>
    let (time, rest') := t.span isWordChar
    if isDate word && !time.isEmpty then
      (Value.ofWord? (word ++ ' ' :: time)).map fun v => (v, rest')
    else (Value.ofWord? word).map fun v => (v, rest)
  | _ => (Value.ofWord? word).map fun v => (v, rest)

/-- Items up to a closing mark, with a comma after each but perhaps the
last. Blanks and comments may stand between them. -/
def items {α : Type} (item : Reader α) (mark : Char) (s : Text) : Option (List α × Text) :=
  match skipBlanks? false s with
  | none => none
  | some t =>
    if t.head? == some mark then some ([], t.tail)
    else
      match item t with
      | none => none
      | some (a, u) =>
        match skipBlanks? false u with
        | some (c :: v) =>
          if c == mark then some ([a], v)
          else if c == ',' && v.length < s.length then
            (items item mark v).map fun (as, w) => (a :: as, w)
          else none
        | _ => none
termination_by s.length
decreasing_by simp_all

/-- A pair of keys and a value; `skip` passes over what may stand around
the equals sign. -/
def pair (skip : Text → Option Text) (value : Reader Value) (s : Text) :
    Option ((KeyPath × Value) × Text) := do
  let (path, s) ← keyPath s
  match ← skip s with
  | '=' :: s =>
    let (v, s) ← value (← skip s)
    return ((path, v), s)
  | _ => none

/-- **A value**, in which arrays and tables in braces stand in each other
down to a depth. -/
def value : (depth : Nat) → Reader Value
  | _, '"' :: '"' :: '"' :: s => (quotedLines s).map fun (r, s) => (.string r, s)
  | _, '\'' :: '\'' :: '\'' :: s => (literalLines s).map fun (r, s) => (.string r, s)
  | _, '"' :: s => (quoted s).map fun (r, s) => (.string r, s)
  | _, '\'' :: s => (literal s).map fun (r, s) => (.string r, s)
  | depth + 1, '[' :: s => (items (value depth) ']' s).map fun (vs, s) => (.array vs, s)
  | depth + 1, '\x7b' :: s => do
    let (pairs, s) ← items (pair (skipBlanks? false) (value depth)) '\x7d' s
    return (.table .braced (← Entries.assignAll pairs []), s)
  | _, s => bareValue s

/-! ## Statements -/

/-- A statement of a document. -/
inductive Statement where
  /-- An entry of the table that the last header began. -/
  | pair (path : KeyPath) (value : Value)
  /-- A header. -/
  | header (what : Entries.Beginning) (path : KeyPath)

/-- Keys in the brackets of a header, and the text after them. -/
def headerPath (close : Text) (s : Text) : Option (KeyPath × Text) := do
  let (path, s) ← keyPath (skipSpaces s)
  return (path, ← close.isPrefixOf? (skipSpaces s))

/-- A statement. -/
def statement : Reader Statement
  | '[' :: '[' :: s => (headerPath [']', ']'] s).map fun (path, s) => (.header .element path, s)
  | '[' :: s => (headerPath [']'] s).map fun (path, s) => (.header .table path, s)
  | s => (pair (some ∘ skipSpaces) (value maxDepth) s).map fun ((path, v), s) => (.pair path v, s)

/-- The statements of a document, each on a line of its own. -/
def statements (s : Text) : Option (List Statement) :=
  match skipBlanks? false s with
  | none => none
  | some [] => some []
  | some t =>
    match statement t with
    | none => none
    | some (st, u) =>
      match afterLine? u with
      | none => none
      | some v => if v.length < s.length then (statements v).map (st :: ·) else none
termination_by s.length

/-! ## Tables -/

/-- The pairs that the statements begin with, and the statements from the
first header on. -/
def leadingPairs : List Statement → List (KeyPath × Value) × List Statement
  | .pair path v :: sts => let (pairs, rest) := leadingPairs sts; ((path, v) :: pairs, rest)
  | sts => ([], sts)

/-- Taking pairs away does not add statements. -/
theorem length_leadingPairs_le (sts : List Statement) :
    (leadingPairs sts).2.length ≤ sts.length := by
  fun_induction leadingPairs sts with
  | case1 path v sts pairs rest h ih => simp_all; omega
  | case2 sts => exact Nat.le_refl _

namespace Entries

/-- Builds the tables that statements from a header on describe. -/
def addSections (es : Entries) : List Statement → Option Entries
  | .header what path :: sts =>
    match start what (assignAll (leadingPairs sts).1) path.first path.others es with
    | some es => addSections es (leadingPairs sts).2
    | none => none
  | _ => some es
termination_by sts => sts.length
decreasing_by have := length_leadingPairs_le sts; simp; omega

/-- The table that statements describe. -/
def ofStatements? (sts : List Statement) : Option Entries := do
  addSections (← assignAll (leadingPairs sts).1 []) (leadingPairs sts).2

/-- **The table that a document describes**, if it is one. A byte order
mark may stand in front. -/
def ofSource? (source : Text) : Option Entries := do
  ofStatements? (← statements (if source.head? == some '\ufeff' then source.tail else source))

end Entries

end Toml

end FormTemplate
