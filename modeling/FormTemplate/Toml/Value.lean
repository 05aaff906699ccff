import FormTemplate.Text.Basic

/-!
# TOML values

What a TOML document is made of. A table remembers how it came to be, for
that decides what may still be added to it; an array of tables keeps its
last table apart, for that one still grows. A document may hold an integer
that has no value; only what reads it finds that out.
`Value.isRepresentable` says that every number in a value can be given to a
program: an integer that has a value of at most 128 bits, a float that does
not round to infinity.
-/

namespace FormTemplate

namespace Toml

/-- How a table came to be. -/
inductive TableOrigin where
  /-- By a header of its own. -/
  | header
  /-- By the header of a table inside it. -/
  | implied
  /-- By dotted keys. -/
  | dotted
  /-- Between braces. -/
  | braced
deriving Repr, DecidableEq

/-- The number `digits * 10 ^ exponent`. -/
structure Decimal where
  /-- The digits. -/
  digits : Nat
  /-- The power of ten they are multiplied by. -/
  exponent : Int
deriving Repr, DecidableEq

/-- A value of a document. -/
inductive Value where
  /-- A string. -/
  | string (text : Text)
  /-- An integer, which has no value when its digits do not make one. -/
  | integer (value : Option Int)
  /-- A float by its magnitude; infinity and not-a-number have none. -/
  | float (magnitude : Option Decimal)
  /-- A truth value. -/
  | boolean (value : Bool)
  /-- A date, a time, or both. -/
  | dateTime
  /-- An array. -/
  | array (items : List Value)
  /-- An array of tables: the earlier ones, and what the last one holds. -/
  | tables (earlier : List Value) (last : List (Text × Value))
  /-- A table. -/
  | table (origin : TableOrigin) (entries : List (Text × Value))
deriving Repr

/-- What a table holds, in the order in which the keys arrived. -/
abbrev Entries := List (Text × Value)

/-! ## Numbers a program can be given -/

namespace Decimal

/-- The least magnitude that is rounded to infinity in double precision:
half a step above the greatest finite number. -/
def overflow : Nat := Nat.pow 2 1024 - Nat.pow 2 970

/-- Whether the number is finite in double precision. Numbers that their
count of digits decides are not computed. -/
def isFinite (d : Decimal) : Bool :=
  let order := (Text.decimal d.digits).length + d.exponent
  if d.digits == 0 || order < 309 then true
  else if 309 < order then false
  else
    match d.exponent with
    | .ofNat e => d.digits * Nat.pow 10 e < overflow
    | .negSucc e => d.digits < overflow * Nat.pow 10 (e + 1)

end Decimal

namespace Value

/-- Whether an integer fits in 128 bits, with a sign or without. -/
def isSmall : Int → Bool
  | .ofNat n => n < Nat.pow 2 128
  | .negSucc n => n < Nat.pow 2 127

/-- The text of a string. -/
def string? : Value → Option Text
  | string s => some s
  | _ => none

mutual

/-- Whether every number in the value can be given to a program. -/
def isRepresentable : Value → Bool
  | integer n => n.any isSmall
  | float (some d) => d.isFinite
  | array items => areRepresentable items
  | tables earlier last => areRepresentable earlier && entriesAreRepresentable last
  | table _ entries => entriesAreRepresentable entries
  | _ => true

/-- Whether every number in the values can be given to a program. -/
def areRepresentable : List Value → Bool
  | [] => true
  | v :: vs => isRepresentable v && areRepresentable vs

/-- Whether every number in a table can be given to a program. -/
def entriesAreRepresentable : List (Text × Value) → Bool
  | [] => true
  | (_, v) :: es => isRepresentable v && entriesAreRepresentable es

end

end Value

end Toml

end FormTemplate
