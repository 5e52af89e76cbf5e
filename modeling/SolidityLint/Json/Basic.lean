/-!
# Json — values

A JSON value as it was written: the members of an object stay in source order, repeated keys
included, and a number keeps its text.  Readers see an object as a map in which the last member
of a key counts (`Json.get?`, `Json.sorted`).
-/

namespace SolidityLint

/-- A JSON value. -/
inductive Json where
  | null
  | bool (b : Bool)
  /-- A number, by its text. -/
  | num (text : String)
  | str (s : String)
  | arr (items : List Json)
  | obj (members : List (String × Json))
deriving Inhabited, Repr, BEq

/-- Keeps the last of the pairs of each key. -/
def lastOfKey {α : Type} : List (String × α) → List (String × α)
  | [] => []
  | (k, v) :: rest => if rest.any (·.1 == k) then lastOfKey rest else (k, v) :: lastOfKey rest

/-- The pairs in the order of their keys. -/
def sortByKey {α : Type} (pairs : List (String × α)) : List (String × α) :=
  pairs.mergeSort (fun a b => decide (a.1 ≤ b.1))

/-- Keeps the last of each run of equal keys. -/
def lastOfRun {α : Type} : List (String × α) → List (String × α)
  | [] => []
  | [p] => [p]
  | p :: q :: rest => if p.1 == q.1 then lastOfRun (q :: rest) else p :: lastOfRun (q :: rest)

namespace Json

/-- The members of an object by key: sorted, each key once, with the value given last. -/
def sorted (members : List (String × Json)) : List (String × Json) :=
  lastOfRun (sortByKey members)

/-- The value of a key of an object: that of the last member with the key. -/
def get? (key : String) : Json → Option Json
  | .obj members => (members.reverse.find? (·.1 == key)).map (·.2)
  | _ => none

/-- Is the value null? -/
def isNull : Json → Bool
  | .null => true
  | _ => false

/-- The text of a string value. -/
def str? : Json → Option String
  | .str s => some s
  | _ => none

/-- The items of an array. -/
def arr? : Json → Option (List Json)
  | .arr items => some items
  | _ => none

/-- An integer as a number. -/
def int (n : Int) : Json :=
  .num (if n < 0 then "-" ++ Nat.repr n.natAbs else Nat.repr n.natAbs)

/-- A count as a number. -/
def nat (n : Nat) : Json := .num (Nat.repr n)

/-- An object without the members that are absent. -/
def ofOptional (members : List (String × Option Json)) : Json :=
  .obj (members.filterMap fun (k, v) => v.map (k, ·))

mutual

/-- The number of arrays and objects around the innermost value. -/
def depth : Json → Nat
  | .arr items => itemsDepth items + 1
  | .obj members => membersDepth members + 1
  | _ => 0

/-- The depth of the deepest item. -/
def itemsDepth : List Json → Nat
  | [] => 0
  | v :: vs => max (depth v) (itemsDepth vs)

/-- The depth of the deepest member. -/
def membersDepth : List (String × Json) → Nat
  | [] => 0
  | (_, v) :: ms => max (depth v) (membersDepth ms)

end

end Json

end SolidityLint
