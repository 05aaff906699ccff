import FormTemplate.Text.Utf8

/-!
# Queries of addresses

The query of a URL stands between its first question mark and its
fragment. `Query.of?` takes it out, `Query.strip` leaves it out, and
`Query.parse` reads it as names and values.
-/

namespace FormTemplate

namespace Query

/-- The query of a URL, if it has one. -/
def of? (url : Text) : Option Text :=
  let beforeFragment := ((Text.cut? '#' url).map (·.1)).getD url
  (Text.cut? '?' beforeFragment).map (·.2)

/-- The URL without what stands from its first question mark up to the
next number sign. -/
def strip (url : Text) : Text :=
  match Text.cut? '?' url with
  | some (before, after) => before ++ after.dropWhile (· ≠ '#')
  | none => url

/-- The octets of a percent-encoded text. A percent sign that no two
hexadecimal digits follow stands for itself. -/
def octets : Text → List UInt8
  | [] => []
  | '%' :: a :: b :: s =>
    match Text.digit? 16 a, Text.digit? 16 b with
    | some m, some n => UInt8.ofNat (m * 16 + n) :: octets s
    | _, _ => String.utf8EncodeChar '%' ++ octets (a :: b :: s)
  | c :: s => String.utf8EncodeChar c ++ octets s

/-- A name or value as it is meant: a plus sign is a space, and
percent-encoded octets are UTF-8. -/
def decode (s : Text) : Text :=
  Utf8.decodeLossy (octets (s.map fun c => if c = '+' then ' ' else c))

/-- A name and its value; without an equals sign the value is empty. -/
def parsePair (piece : Text) : Text × Text :=
  let p := (Text.cut? '=' piece).getD (piece, [])
  (decode p.1, decode p.2)

/-- **The names and values of a query, in order.** Pairs stand between
ampersands and semicolons; empty pieces are none. -/
def parse (query : Text) : List (Text × Text) :=
  ((Text.pieces (fun c => c == '&' || c == ';') query).filter (!·.isEmpty)).map parsePair

end Query

end FormTemplate
