/-!
# Toml — values and tables

A document is a table.  Headers and dotted keys open tables on the way, and a table that was only
opened on the way can still be given a header of its own, once.
-/

namespace SolidityLint.Toml

/-- A value.  Numbers with a fraction and points in time are known only as such. -/
inductive Value where
  | str (s : String)
  | int (n : Int)
  | float
  | bool (b : Bool)
  | time
  | array (items : List Value)
  /-- A table; `opened` when it was only opened on the way to another key. -/
  | table (opened : Bool) (entries : List (String × Value))
  /-- The tables that repeated headers gave, last first. -/
  | tables (items : List (List (String × Value)))
deriving Inhabited, Repr

/-- The entries of a table. -/
abbrev Entries := List (String × Value)

namespace Entries

/-- Puts a value at a key, in place of the one there. -/
def set (key : String) (v : Value) : Entries → Entries
  | [] => [(key, v)]
  | (k, w) :: rest => if k == key then (key, v) :: rest else (k, w) :: set key v rest

/-- Gives a key its value.  A list is replaced, a table that was opened on the way stays and counts
as given, and anything else is in the way. -/
def give (es : Entries) (key : String) (v : Value) : Option Entries :=
  match es.lookup key with
  | none => some (es.set key v)
  | some (.array _) => some (es.set key v)
  | some (.table true inner) => match v with
    | .table false _ => none
    | _ => some (es.set key (.table false inner))
  | some _ => none

/-- Changes the table at the end of a path below these entries.  Missing tables are opened; with
`dotted`, those that were opened before count as given. -/
def below (dotted : Bool) (f : Entries → Option Entries) : List String → Entries → Option Entries
  | [], es => f es
  | key :: path, es =>
    match es.lookup key with
    | none => (below dotted f path []).map fun inner => es.set key (.table true inner)
    | some (.table opened inner) =>
      (below dotted f path inner).map fun inner => es.set key (.table (opened && !dotted) inner)
    | some (.tables (last :: others)) =>
      (below dotted f path last).map fun last => es.set key (.tables (last :: others))
    | some (.array _) =>
      if dotted then (below dotted f path []).map fun inner => es.set key (.table false inner) else none
    | some _ => none

/-- Gives the value of a dotted key. -/
def givePath (path : List String) (v : Value) (es : Entries) : Option Entries :=
  below true (fun inner => inner.give (path.getLast?.getD "") v) path.dropLast es

/-- Opens the table of a header. -/
def openTable (path : List String) (es : Entries) : Option Entries :=
  below false (fun inner =>
    let key := path.getLast?.getD ""
    match inner.lookup key with
    | none => some (inner.set key (.table false []))
    | some (.array _) => some (inner.set key (.table false []))
    | some (.table true es) => some (inner.set key (.table false es))
    | some _ => none) path.dropLast es

/-- Opens one more table of a repeated header. -/
def openItem (path : List String) (es : Entries) : Option Entries :=
  below false (fun inner =>
    let key := path.getLast?.getD ""
    match inner.lookup key with
    | none => some (inner.set key (.tables [[]]))
    | some (.tables items) => some (inner.set key (.tables ([] :: items)))
    | some _ => none) path.dropLast es

end Entries

end SolidityLint.Toml
