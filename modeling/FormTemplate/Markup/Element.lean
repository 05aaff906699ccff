import FormTemplate.Markup.Attributes

/-!
# Elements

An element has a name, attributes and contents. The contents of an element
are texts, markup that is printed as it stands, and elements. Two kinds of
element print differently: a void element has neither contents nor an end
tag, and an element without a name is a wrapper of which only the contents
show.
-/

namespace FormTemplate

namespace Markup

/-- What an element holds. -/
inductive Content where
  /-- A text, escaped when it is printed. -/
  | text (text : Text)
  /-- Markup, printed as it stands. -/
  | raw (source : Text)
  /-- An element. -/
  | element (name : Text) (attributes : Attributes) (contents : List Content)
deriving Repr, BEq

/-- An element. -/
structure Element where
  /-- The tag name, or nothing for a wrapper. -/
  name : Text
  /-- The attributes. -/
  attributes : Attributes := []
  /-- What it holds, in order. -/
  contents : List Content := []
deriving Repr, BEq

/-- The names of the elements that have neither contents nor an end tag. -/
def voidNames : List Text :=
  ["area", "base", "br", "col", "embed", "hr", "img", "input", "link", "meta", "param", "source",
    "track", "wbr"].map String.toList

/-- Whether an element of this name is void; letter case does not matter. -/
def isVoidName (name : Text) : Bool := voidNames.any (Text.sameIgnoringCase name)

/-- The start tag of an element. -/
def startTag (name : Text) (as : Attributes) : Text :=
  if name.isEmpty then [] else '<' :: name ++ as.source ++ ['>']

/-- The end tag of an element. -/
def endTag (name : Text) : Text :=
  if name.isEmpty || isVoidName name then [] else "</".toList ++ name ++ ['>']

namespace Content

mutual

/-- **A content in the page.** -/
def source : Content → Text
  | text s => escape s
  | raw s => s
  | element name as cs =>
    startTag name as ++ (if isVoidName name then [] else sources cs) ++ endTag name

/-- Contents in the page, one after the other. -/
def sources : List Content → Text
  | [] => []
  | c :: cs => source c ++ sources cs

end

end Content

namespace Element

/-- The element as a content of another. -/
def toContent (e : Element) : Content := .element e.name e.attributes e.contents

/-- The element in the page. -/
def source (e : Element) : Text := e.toContent.source

/-- The element's start tag. -/
def startTag (e : Element) : Text := Markup.startTag e.name e.attributes

/-- The element's end tag. -/
def endTag (e : Element) : Text := Markup.endTag e.name

/-- Whether the element is void. -/
def isVoid (e : Element) : Bool := isVoidName e.name

/-- The value of an attribute. -/
def get? (name : Text) (e : Element) : Option AttributeValue := e.attributes.get? name

/-- The value of an attribute that is a text. -/
def getText? (name : Text) (e : Element) : Option Text :=
  (e.get? name).bind AttributeValue.text?

/-- Sets an attribute. -/
def set (name : Text) (value : AttributeValue) (e : Element) : Element :=
  { e with attributes := e.attributes.set name value }

/-- Sets an attribute to a text. -/
def setText (name : String) (value : Text) (e : Element) : Element :=
  e.set name.toList (.text value)

/-- Sets an attribute to a flag. -/
def setFlag (name : String) (on : Bool) (e : Element) : Element := e.set name.toList (.flag on)

/-- Takes an attribute away. -/
def erase (name : Text) (e : Element) : Element :=
  { e with attributes := e.attributes.erase name }

/-- Merges attributes. -/
def merge (m : Merge) (e : Element) : Element := { e with attributes := e.attributes.merge m }

/-- Adds a content at the end. -/
def push (c : Content) (e : Element) : Element := { e with contents := e.contents ++ [c] }

/-- Inserts a content at a position, or at the end when there are fewer. -/
def insert (i : Nat) (c : Content) (e : Element) : Element :=
  { e with contents := e.contents.insertIdx (min i e.contents.length) c }

end Element

end Markup

end FormTemplate
