import FormTemplate.Toml.Value

/-!
# Numbers, dates and truth values

What a bare word of a document may stand for. `Value.ofWord?` takes the
whole word; how far a word reaches is for the document to say. An integer
is known by its first digits and its underscores, and has a value when all
of it is digits of its base.
-/

namespace FormTemplate

namespace Toml

/-! ## Numbers -/

/-- The digits of a numeral, in which single underscores may stand between
digits. -/
def digits? (base : Nat) (word : Text) : Option Text :=
  let groups := Text.pieces (· == '_') word
  if groups.all fun g => !g.isEmpty && g.all fun c => (Text.digit? base c).isSome then
    some groups.flatten
  else none

/-- The digits of a decimal numeral without a needless zero in front. -/
def wholeDigits? (word : Text) : Option Text :=
  (digits? 10 word).filter fun ds => ds.length == 1 || ds.head? != some '0'

/-- A word without the sign in front, and whether that is a minus. -/
def cutSign : Text → Bool × Text
  | '-' :: word => (true, word)
  | '+' :: word => (false, word)
  | word => (false, word)

/-- A signed number. -/
def withSign (negative : Bool) (n : Nat) : Int := if negative then -(n : Int) else n

/-- An integer in another base than ten, after the mark of its base. The
mark alone is an integer without a value. -/
def integerInBase? (base : Nat) (word : Text) : Option (Option Int) :=
  if word.isEmpty then some none
  else (digits? base word).map fun ds => some (Text.numeral base ds : Int)

/-- Whether a character is a hexadecimal digit. -/
def isHexadecimal (c : Char) : Bool := (Text.digit? 16 c).isSome

/-- Whether a word is groups between single underscores, each of which
begins with a hexadecimal digit and, when another follows, ends with one. -/
def isGrouped (word : Text) : Bool :=
  let groups := Text.pieces (· == '_') word
  (groups.all fun g => g.head?.any isHexadecimal) &&
    groups.dropLast.all fun g => g.getLast?.any isHexadecimal

/-- The digits of an integer in base ten, which need not all be digits of
that base: decimal digits without a needless zero in front, and perhaps
groups after an underscore. -/
def integerDigits? (word : Text) : Option Text :=
  let (first, rest) := word.span Char.isDigit
  match rest with
  | [] => wholeDigits? first
  | '_' :: groups =>
    if !first.isEmpty && first.head? != some '0' && isGrouped groups then
      some (first ++ groups.filter (· != '_'))
    else none
  | _ => none

/-- **An integer**, in base ten or, without a sign, in another base. What
has a point or an exponent is none. -/
def integer? (word : Text) : Option (Option Int) :=
  match word with
  | '0' :: 'x' :: ds => integerInBase? 16 ds
  | '0' :: 'o' :: ds => integerInBase? 8 ds
  | '0' :: 'b' :: ds => integerInBase? 2 ds
  | _ =>
    let (negative, digits) := cutSign word
    if digits.any ['.', 'e', 'E'].contains then none
    else
      (integerDigits? digits).map fun ds =>
        if ds.all Char.isDigit then some (withSign negative (Text.numeral 10 ds)) else none

/-- The exponent of a float. -/
def exponent? (word : Text) : Option Int :=
  let (negative, word) := cutSign word
  (digits? 10 word).map fun ds => withSign negative (Text.numeral 10 ds)

/-- The magnitude of a float without its sign; it has a fraction, an
exponent, or both. -/
def decimal? (word : Text) : Option Decimal := do
  let (mantissa, rest) := word.span fun c => c != 'e' && c != 'E'
  let fraction? := Text.cut? '.' mantissa
  let (whole, fraction) := fraction?.getD (mantissa, ['0'])
  let whole ← wholeDigits? whole
  let fraction ← digits? 10 fraction
  let exponent ← match rest with
    | _ :: exponent => exponent? exponent
    | [] => if fraction?.isSome then some 0 else none
  return {
    digits := Text.numeral 10 (whole ++ fraction)
    exponent := exponent - fraction.length }

/-- A float by its magnitude; infinity and not-a-number have none. -/
def float? (word : Text) : Option (Option Decimal) :=
  let (_, digits) := cutSign word
  if digits == "inf".toList || digits == "nan".toList then some none
  else (decimal? digits).map some

/-! ## Dates and times -/

/-- A numeral of a fixed number of digits. -/
def fixed? (count : Nat) (word : Text) : Option Nat :=
  if word.length == count && word.all Char.isDigit then some (Text.numeral 10 word) else none

/-- Whether a word is a two-digit numeral up to a bound. -/
def isUpTo (bound : Nat) (word : Text) : Bool :=
  match fixed? 2 word with
  | some n => n ≤ bound
  | none => false

/-- The number of days of a month. -/
def daysIn (year month : Nat) : Nat :=
  if month == 2 then
    if year % 4 == 0 && (year % 100 != 0 || year % 400 == 0) then 29 else 28
  else if month == 4 || month == 6 || month == 9 || month == 11 then 30
  else 31

/-- Whether a word is a date of the calendar. -/
def isDate (word : Text) : Bool :=
  match Text.pieces (· == '-') word with
  | [year, month, day] =>
    match fixed? 4 year, fixed? 2 month, fixed? 2 day with
    | some year, some month, some day =>
      1 ≤ month && month ≤ 12 && 1 ≤ day && day ≤ daysIn year month
    | _, _, _ => false
  | _ => false

/-- Whether a word is a number of seconds within a minute; a leap second is
one of them. -/
def isSecond (word : Text) : Bool :=
  match Text.cut? '.' word with
  | some (second, fraction) => isUpTo 60 second && !fraction.isEmpty && fraction.all Char.isDigit
  | none => isUpTo 60 word

/-- Whether a word is a time of day. -/
def isTime (word : Text) : Bool :=
  match Text.pieces (· == ':') word with
  | [hour, minute] => isUpTo 23 hour && isUpTo 59 minute
  | [hour, minute, second] => isUpTo 23 hour && isUpTo 59 minute && isSecond second
  | _ => false

/-- Whether a word is an offset from universal time. -/
def isOffset : Text → Bool
  | [c] => c == 'Z' || c == 'z'
  | c :: word =>
    (c == '+' || c == '-') &&
      match Text.pieces (· == ':') word with
      | [hour, minute] => isUpTo 23 hour && isUpTo 59 minute
      | _ => false
  | [] => false

/-- Whether a word is a time of day, perhaps with an offset. -/
def isZonedTime (word : Text) : Bool :=
  let (time, offset) := word.span fun c => !(['Z', 'z', '+', '-'].contains c)
  isTime time && (offset.isEmpty || isOffset offset)

/-- Whether a word is a date, a time of day, or a date with a time. -/
def isDateTime (word : Text) : Bool :=
  isDate word || isTime word ||
    match word.drop 10 with
    | c :: time => ['T', 't', ' '].contains c && isDate (word.take 10) && isZonedTime time
    | [] => false

/-- **The value a bare word stands for.** -/
def Value.ofWord? (word : Text) : Option Value :=
  if word == "true".toList then some (.boolean true)
  else if word == "false".toList then some (.boolean false)
  else if isDateTime word then some .dateTime
  else ((integer? word).map .integer).or ((float? word).map .float)

end Toml

end FormTemplate
