import FormTemplate.Text.Quotation
import FormTemplate.Template.Directive

/-!
# Tags in a template

Three kinds of tag matter to the compiler: the opening and the closing tag
of a directive, in braces, and the start tag of an element that carries a
directive as an attribute. All else is text. `Tag.read?` recognises a tag
at the start of a text, and `Piece.ofText` cuts a whole template into tags
and the text between them.
-/

namespace FormTemplate

namespace Template

/-- An attribute of a scanned element. -/
structure RawAttribute where
  /-- The name as written. -/
  name : Text
  /-- The value without quotes, if one is written. -/
  value : Option Text
  /-- The source, with the white space before it. -/
  source : Text
deriving Repr, DecidableEq

/-- A tag of a template. -/
inductive Tag where
  /-- The opening tag of a directive; a self-closing one is also its
  closing tag. -/
  | opening (directive : Directive) (arguments : Text) (selfClosing : Bool)
  /-- The closing tag of a directive. -/
  | closing (directive : Directive)
  /-- The start tag of an element that carries a directive, with its other
  attributes and its source after the last attribute. -/
  | element (name : Text) (directive : Directive) (arguments : Text)
      (attributes : List RawAttribute) (tail : Text)
deriving Repr, DecidableEq

namespace RawAttribute

/-- An attribute value at the start of a text, and its source. In quotes
it runs to the same quote, otherwise to white space or the tag's end. -/
def value? : Text → Option (Text × Text)
  | [] => none
  | c :: s =>
    if Quotation.isQuote c then
      (Text.cut? c s).map fun p => (p.1, c :: p.1 ++ [c])
    else
      let value := (c :: s).takeWhile fun d => !(Text.isBlank d || d == '>')
      some (value, value)

/-- The attribute that a text starts with, white space in front of it. An
attribute that runs to the end of the text is none. -/
def read? (s : Text) : Option RawAttribute :=
  let blanks := s.takeWhile Text.isBlank
  let body := s.dropWhile Text.isBlank
  let name := body.takeWhile fun c => !(Text.isBlank c || c == '=' || c == '>')
  if blanks.isEmpty || name.isEmpty then none
  else
    match body.drop name.length with
    | [] => none
    | '=' :: after =>
      (value? after).map fun v =>
        { name, value := some v.1, source := blanks ++ name ++ '=' :: v.2 }
    | _ => some { name, value := none, source := blanks ++ name }

end RawAttribute

namespace Tag

/-! ## Tags in braces -/

/-- **The tag whose source between the braces is `content`.** A slash at
the end closes the tag only when white space stands before it; at the end
of a value it is data. -/
def ofContent? (content : Text) : Option Tag :=
  match content with
  | '/' :: name => do
    let directive ← Directive.ofName? (Text.trimEnd name)
    if directive.isPaired then some (.closing directive) else none
  | _ => do
    let name := content.takeWhile fun c => !(Text.isBlank c || c == '/')
    let directive ← Directive.ofName? name
    let arguments := Text.trim (content.drop name.length)
    let before := arguments.dropLast
    if arguments.getLast? == some '/' && (before.getLast?.map Text.isBlank).getD true then
      some (.opening directive (Text.trimEnd before) true)
    else
      some (.opening directive arguments false)

/-- The tag that a text in braces starts with, the opening brace left out,
and its length with both braces. It ends at the first closing brace
outside quotes. -/
def brace? (s : Text) : Option (Tag × Nat) :=
  match Quotation.spanUntil (· == '\x7d') none s with
  | (_, []) => none
  | (content, _ :: _) => (ofContent? content).map fun tag => (tag, content.length + 2)

/-! ## Start tags of elements -/

/-- The characters of an element's name. -/
def isNameChar (c : Char) : Bool := c.isAlphanum || c == '-' || c == ':'

/-- The end of a start tag at the start of a text: optional white space,
an optional slash, and the closing angle bracket. -/
def tail? (s : Text) : Option Text :=
  let blanks := s.takeWhile Text.isBlank
  match s.dropWhile Text.isBlank with
  | '>' :: _ => some (blanks ++ ['>'])
  | '/' :: '>' :: _ => some (blanks ++ ['/', '>'])
  | _ => none

/-- The attributes up to the end of a start tag, and that end. -/
def attributes? (s : Text) : Option (List RawAttribute × Text) :=
  go 0 s
where
  /-- The attributes after the first `skip` characters. -/
  go : Nat → Text → Option (List RawAttribute × Text)
    | _, [] => none
    | skip + 1, _ :: s => go skip s
    | 0, c :: s =>
      match tail? (c :: s) with
      | some tail => some ([], tail)
      | none => do
        let a ← RawAttribute.read? (c :: s)
        let r ← go (a.source.length - 1) s
        some (a :: r.1, r.2)

/-- The directive that an attribute's name stands for. -/
def carriedDirective? (attributePrefix name : Text) : Option Directive := do
  let directive ← Directive.ofName? (← attributePrefix.isPrefixOf? name)
  if directive.hasAttributeForm then some directive else none

/-- **The first attribute that stands for a directive**, its value, and
the other attributes in order. -/
def carried? (attributePrefix : Text) :
    List RawAttribute → Option (Directive × Text × List RawAttribute)
  | [] => none
  | a :: as =>
    match carriedDirective? attributePrefix a.name with
    | some directive => some (directive, a.value.getD [], as)
    | none => (carried? attributePrefix as).map fun r => (r.1, r.2.1, a :: r.2.2)

/-- The start tag of a carrying element that a text starts with, the angle
bracket left out, and its length with the bracket. -/
def element? (attributePrefix : Text) (s : Text) : Option (Tag × Nat) := do
  let name := s.takeWhile isNameChar
  if (name.head?.map Char.isAlpha).getD false then
    let (attributes, tail) ← attributes? (s.drop name.length)
    let (directive, arguments, others) ← carried? attributePrefix attributes
    let length := 1 + name.length + (attributes.flatMap (·.source)).length + tail.length
    some (.element name directive arguments others tail, length)
  else none

/-- The tag that a text starts with, and its length. -/
def read? (attributePrefix : Text) : Text → Option (Tag × Nat)
  | '\x7b' :: s => brace? s
  | '<' :: s => element? attributePrefix s
  | _ => none

end Tag

/-! ## Whole templates -/

/-- A piece of a template: a tag or the text between two tags. -/
inductive Piece where
  /-- Text to be printed as it stands. -/
  | text (source : Text)
  /-- A tag and its source. -/
  | tag (tag : Tag) (source : Text)
deriving Repr, DecidableEq

namespace Piece

/-- What the piece looks like in the template. -/
def source : Piece → Text
  | text s => s
  | tag _ s => s

/-- Puts a character of text in front of pieces. -/
def consText (c : Char) : List Piece → List Piece
  | text s :: ps => text (c :: s) :: ps
  | ps => text [c] :: ps

/-- **The pieces of a template, in order.** -/
def ofText (attributePrefix : Text) (s : Text) : List Piece :=
  go 0 s
where
  /-- The pieces after the first `skip` characters. -/
  go : Nat → Text → List Piece
    | _, [] => []
    | skip + 1, _ :: s => go skip s
    | 0, c :: s =>
      match Tag.read? attributePrefix (c :: s) with
      | some (t, length) => tag t ((c :: s).take length) :: go (length - 1) s
      | none => consText c (go 0 s)

end Piece

end Template

end FormTemplate
