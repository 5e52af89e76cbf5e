import SolidityLint.Library.Yaml.Scalar

/-!
# Yaml — documents as trees

A document is a tree of scalars, lists and maps, in which aliases have been replaced by what they
stand for.  `Node.toData?` gives it a meaning.
-/

namespace SolidityLint

namespace Yaml

/-- A node of a document. -/
inductive Node where
  /-- A text with its tag, which is empty when none was written; one without quotes is plain. -/
  | scalar (tag : String) (plain : Bool) (text : String)
  | seq (items : List Node)
  | map (entries : List (Node × Node))
deriving Inhabited

namespace Node

/-- What stands where nothing is written. -/
def empty : Node := .scalar "" true ""

/-- The meaning of a scalar; `none` when its tag does not fit. -/
def scalarData? (tag : String) (plain : Bool) (text : String) : Option Data :=
  if tag == "!!str" || (tag == "" && !plain) then some (.str text)
  else
    let d := Scalar.resolve text
    match tag, d with
    | "", d => some d
    | "!!null", .null | "!!bool", .bool _ | "!!int", .int _ | "!!float", .float _
    | "!!timestamp", .time _ => some d
    | "!!float", .int n => some (.float (Binary64.ofInt n))
    | _, _ => none

/-- Is the node null? -/
def isNull : Node → Bool
  | .scalar tag plain text => match scalarData? tag plain text with
    | some .null => true
    | _ => false
  | _ => false

/-- Is the node the key under which a map takes in others? -/
def isMerge : Node → Bool
  | .scalar tag plain text => text == "<<" && ((plain && tag == "") || tag == "!!merge")
  | _ => false

/-- The text of a scalar. -/
def text : Node → String
  | .scalar _ _ t => t
  | _ => ""

/-- The entries of a map. -/
def entries? : Node → Option (List (Node × Node))
  | .map entries => some entries
  | _ => none

/-- Are two keys the same as far as repetition goes: both scalars of one text, both lists or both
maps? -/
def sameKey : Node → Node → Bool
  | .scalar _ _ a, .scalar _ _ b => a == b
  | .seq _, .seq _ | .map _, .map _ => true
  | _, _ => false

/-- Does a key occur twice? -/
def hasRepeats : List (Node × Node) → Bool
  | [] => false
  | (k, _) :: rest => rest.any (sameKey k ·.1) || hasRepeats rest

/-- The map of entries: of strings when all keys are, and otherwise of anything. -/
def mapData (entries : List (Data × Data)) : Data :=
  let texts := entries.mapM fun
    | (.str k, d) => some (k, d)
    | _ => none
  match texts with
  | some ms => .map ms
  | none => .anyMap entries

/-- Can the value be a key? -/
def isKey : Data → Bool
  | .list _ | .map _ | .anyMap _ => false
  | _ => true

/-- The entries of a map. -/
def dataEntries : Data → Option (List (Data × Data))
  | .map ms => some (ms.map fun (k, d) => (.str k, d))
  | .anyMap ms => some ms
  | _ => none

/-- The entries that a merge takes in: those of a map, or of each map of a list. -/
def mergedEntries : Data → Option (List (Data × Data))
  | .list items => (items.mapM dataEntries).map List.flatten
  | d => dataEntries d

/-- Are two keys equal? -/
def keyEq : Data → Data → Bool
  | .null, .null => true
  | .bool a, .bool b => a == b
  | .int a, .int b => a == b
  | .str a, .str b | .time a, .time b => a == b
  | _, _ => false

/-- Adds the entries whose keys are new. -/
def addNew (entries more : List (Data × Data)) : List (Data × Data) :=
  more.foldl (fun acc e => if acc.any (keyEq e.1 ·.1) then acc else acc ++ [e]) entries

mutual

/-- The meaning of a node; `none` when tags, keys or merges are malformed. -/
def toData? : Node → Option Data
  | .scalar tag plain text => scalarData? tag plain text
  | .seq items => (itemsData? items).map .list
  | .map entries =>
    if hasRepeats entries then none
    else do
      let (own, merged) ← entriesData? entries
      some (mapData (addNew own merged))

/-- Item by item. -/
def itemsData? : List Node → Option (List Data)
  | [] => some []
  | n :: ns => do return (← toData? n) :: (← itemsData? ns)

/-- Entry by entry: those of the map itself, and those it takes in. -/
def entriesData? : List (Node × Node) → Option (List (Data × Data) × List (Data × Data))
  | [] => some ([], [])
  | (k, v) :: rest => do
    let value ← toData? v
    let (own, merged) ← entriesData? rest
    if k.isMerge then some (own, (← mergedEntries value) ++ merged)
    else
      let key ← toData? k
      if isKey key then some ((key, value) :: own, merged) else none

end

end Node

end Yaml

end SolidityLint
