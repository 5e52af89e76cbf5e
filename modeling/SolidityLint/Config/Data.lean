import SolidityLint.Json.Parser
import SolidityLint.Json.Printer
import SolidityLint.Number.Shortest
import SolidityLint.Text.Integer

/-!
# Config — rule options

The options of a rule are free data, read from JSON or YAML.  YAML knows more than JSON does:
dates, values that are no numbers, maps whose keys are no strings.  Rules look at options through
their JSON form (`Data.toJson?`), so what JSON cannot hold fits no option.
-/

namespace SolidityLint

/-- The options of a rule. -/
inductive Data where
  | null
  | bool (b : Bool)
  | int (n : Int)
  | float (x : Binary64)
  | str (s : String)
  /-- A point in time, by its text. -/
  | time (text : String)
  | list (items : List Data)
  | map (entries : List (String × Data))
  /-- A map with a key that is no string. -/
  | anyMap (entries : List (Data × Data))
deriving Inhabited

namespace Data

/-- Are there no options? -/
def isNull : Data → Bool
  | .null => true
  | _ => false

/-- The text of a key in JSON. -/
def keyText? : Data → Option String
  | .str s => some s
  | .time t => some t
  | .int n => some (toString n)
  | .float x => x.render? Binary64.jsonNotation
  | _ => none

mutual

/-- The JSON form, with the keys of maps in order; `none` when there is none. -/
def toJson? : Data → Option Json
  | .null => some .null
  | .bool b => some (.bool b)
  | .int n => some (.int n)
  | .float x => (x.render? Binary64.jsonNotation).map .num
  | .str s => some (.str s)
  | .time t => some (.str t)
  | .list items => (toJsonItems? items).map .arr
  | .map entries => (toJsonEntries? entries).map fun ms => .obj (Json.sorted ms)
  | .anyMap entries => (toJsonPairs? entries).map fun ms => .obj (Json.sorted ms)

/-- Item by item. -/
def toJsonItems? : List Data → Option (List Json)
  | [] => some []
  | d :: ds => do return (← toJson? d) :: (← toJsonItems? ds)

/-- Entry by entry. -/
def toJsonEntries? : List (String × Data) → Option (List (String × Json))
  | [] => some []
  | (k, d) :: ds => do return (k, ← toJson? d) :: (← toJsonEntries? ds)

/-- Entry by entry; a key has to be a string, a number or a point in time. -/
def toJsonPairs? : List (Data × Data) → Option (List (String × Json))
  | [] => some []
  | (k, d) :: ds => do return (← keyText? k, ← toJson? d) :: (← toJsonPairs? ds)

end

mutual

/-- The options that a JSON value gives: every number is a double.  `none` when one is too large
for a double. -/
def ofJson? : Json → Option Data
  | .null => some .null
  | .bool b => some (.bool b)
  | .num text => (Binary64.ofNumeral? text).map .float
  | .str s => some (.str s)
  | .arr items => (ofJsonItems? items).map .list
  | .obj members => (ofJsonMembers? members).map fun ms => .map (lastOfRun (sortByKey ms))

/-- Item by item. -/
def ofJsonItems? : List Json → Option (List Data)
  | [] => some []
  | v :: vs => do return (← ofJson? v) :: (← ofJsonItems? vs)

/-- Member by member. -/
def ofJsonMembers? : List (String × Json) → Option (List (String × Data))
  | [] => some []
  | (k, v) :: ms => do return (k, ← ofJson? v) :: (← ofJsonMembers? ms)

end

/-! ### Showing options -/

/-- A double in a message. -/
def displayFloat (x : Binary64) : String :=
  match x with
  | .nan => "NaN"
  | .infinity negative => if negative then "-Inf" else "+Inf"
  | x => (x.render? Binary64.yamlNotation).getD ""

mutual

/-- The options in a message: lists in brackets, maps by key. -/
def display : Data → String
  | .null => "<nil>"
  | .bool b => if b then "true" else "false"
  | .int n => toString n
  | .float x => displayFloat x
  | .str s => s
  | .time t => t
  | .list items => "[" ++ String.intercalate " " (displayItems items) ++ "]"
  | .map entries => "map[" ++ String.intercalate " " (displayEntries entries) ++ "]"
  | .anyMap entries => "map[" ++ String.intercalate " " (displayPairs entries) ++ "]"

/-- Item by item. -/
def displayItems : List Data → List String
  | [] => []
  | d :: ds => display d :: displayItems ds

/-- Entry by entry. -/
def displayEntries : List (String × Data) → List String
  | [] => []
  | (k, d) :: ds => (k ++ ":" ++ display d) :: displayEntries ds

/-- Entry by entry. -/
def displayPairs : List (Data × Data) → List String
  | [] => []
  | (k, d) :: ds => (display k ++ ":" ++ display d) :: displayPairs ds

end

/-! ### What options can be read as -/

/-- An integer of 64 bits. -/
def int? (d : Data) : Option Int64 :=
  match d.toJson? with
  | some (.num text) => (Integer.read text).toOption
  | _ => none

/-- A string. -/
def str? (d : Data) : Option String := d.toJson?.bind Json.str?

/-- A list of strings, where null stands for the empty one. -/
def strs? (d : Data) : Option (List String) :=
  match d.toJson? with
  | some (.arr items) => items.mapM fun
    | .str s => some s
    | .null => some ""
    | _ => none
  | _ => none

/-- A map with string keys. -/
def obj? (d : Data) : Option (List (String × Json)) :=
  match d.toJson? with
  | some (.obj members) => some members
  | _ => none

end Data

end SolidityLint
