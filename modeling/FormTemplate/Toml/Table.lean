import FormTemplate.Toml.Value

/-!
# Building tables

A document adds to its tables line by line. A key is given a value once;
dotted keys lead through tables that have no header, and headers through
every table that is not between braces. A table has one header at most: a
header may still come for a table that only the headers of tables inside it
have mentioned, but not once dotted keys have led through it.
-/

namespace FormTemplate

namespace Toml

/-- Keys that lead from a table to an entry, at least one. -/
structure KeyPath where
  /-- The first key. -/
  first : Text
  /-- The keys after it. -/
  others : List Text
deriving Repr, DecidableEq

namespace Entries

/-- Gives the entry of a key a value, which may depend on the one it
had. -/
def alter (key : Text) (f : Option Value → Option Value) : Entries → Option Entries
  | [] => (f none).map fun v => [(key, v)]
  | (k, v) :: es =>
    if k = key then (f (some v)).map fun v => (k, v) :: es
    else (alter key f es).map ((k, v) :: ·)

/-- **Gives the entry at dotted keys its value.** The tables on the way
count as made by dotted keys from then on. The last table of an array of
tables has a header: keys may lead through it to a table inside it, but not
add an entry of its own. -/
def assign (value : Value) (first : Text) : List Text → Entries → Option Entries
  | [] => alter first fun
    | none => some value
    | some _ => none
  | next :: others => alter first fun
    | none => (assign value next others []).map (.table .dotted)
    | some (.table .dotted es) => (assign value next others es).map (.table .dotted)
    | some (.table .implied es) => (assign value next others es).map (.table .dotted)
    | some (.tables earlier es) =>
      if others.isEmpty then none else (assign value next others es).map (.tables earlier)
    | _ => none

/-- Gives entries their values, one after the other. -/
def assignAll (pairs : List (KeyPath × Value)) (es : Entries) : Option Entries :=
  pairs.foldlM (fun es p => assign p.2 p.1.first p.1.others es) es

/-- What a header begins. -/
inductive Beginning where
  /-- A table. -/
  | table
  /-- Another table of an array of tables. -/
  | element
deriving Repr, DecidableEq

/-- **Begins the table at a path** and fills it. -/
def start (what : Beginning) (fill : Entries → Option Entries) (first : Text) :
    List Text → Entries → Option Entries
  | [] => alter first fun old =>
    match what, old with
    | .table, none => (fill []).map (.table .header)
    | .table, some (.table .implied es) => (fill es).map (.table .header)
    | .element, none => (fill []).map (.tables [])
    | .element, some (.tables earlier es) =>
      (fill []).map (.tables (earlier ++ [.table .header es]))
    | _, _ => none
  | next :: others => alter first fun
    | none => (start what fill next others []).map (.table .implied)
    | some (.table .braced _) => none
    | some (.table origin es) => (start what fill next others es).map (.table origin)
    | some (.tables earlier es) => (start what fill next others es).map (.tables earlier)
    | some _ => none

end Entries

end Toml

end FormTemplate
