import SolidityLint.Ast.Node
import SolidityLint.Json.Parser
import SolidityLint.Json.Printer

/-!
# Ast — trees from JSON

An object with a textual `nodeType` is a node.  A member of a node that is a node, or an array of
nodes and nulls with at least one node, is a field; every other member is an attribute, and nodes
hidden inside an attribute become children under a dotted key, so that a walk still meets them.
A member's own key takes the place of dotted entries of the same name.

Children are put in document order: by offset, nodes that the compiler made up last, then by
length, and otherwise as they were found.
-/

namespace SolidityLint

/-- Why a JSON text is no tree. -/
inductive DecodeError where
  /-- The text is no JSON. -/
  | unreadable
  | rootIsNoNode
  | noSource (kind : NodeKind) (id : Int64)
  | badSource (kind : NodeKind) (id : Int64) (error : SpanError)
deriving DecidableEq, Repr

/-- The message of a refused tree; the JSON reader's own words are not kept. -/
def DecodeError.message? : DecodeError → Option String
  | .unreadable => none
  | .rootIsNoNode => some "malformed AST: root is not an AST node"
  | .noSource kind id =>
    some ("malformed AST: " ++ kind ++ " node " ++ Integer.render id ++ " has no src")
  | .badSource kind id error =>
    some ("malformed AST: " ++ kind ++ " node " ++ Integer.render id ++ ": " ++ error.message)

namespace Node

/-- The value of a key among members that have each key once. -/
def member? (key : String) (members : List (String × Json)) : Option Json :=
  (members.find? (·.1 == key)).map (·.2)

/-- The kind of node that an object's members declare. -/
def kindOf? (members : List (String × Json)) : Option NodeKind :=
  (member? "nodeType" members).bind Json.str?

/-- Does the value declare a node? -/
def isNodeValue : Json → Bool
  | .obj members => (kindOf? members).isSome
  | _ => false

/-- Is the array a list of nodes, where nulls stand for entries left out? -/
def isNodeList (items : List Json) : Bool :=
  items.all (fun v => v.isNull || isNodeValue v) && items.any isNodeValue

/-- What one member of a node contributes. -/
inductive Part where
  | attr (key : String) (value : Json)
  /-- The nodes of a field. -/
  | field (key : String) (nodes : List (Option Node))
  /-- A node inside an attribute, under its dotted key. -/
  | hidden (key : String) (node : Node)

/-! ### Document order -/

/-- The offset that orders a node; nodes that the compiler made up go past any source of its. -/
def sortOffset (n : Node) : Int64 := if n.src.offset < 0 then 2147483647 else n.src.offset

/-- Does `a` stand before `b`?  The differences are those of words. -/
def sortsBefore (a b : Node) : Bool :=
  let d := a.sortOffset - b.sortOffset
  if d != 0 then d < 0 else a.src.length - b.src.length < 0

/-- Inserts behind all that it does not stand before; the list is kept last first. -/
def insertInOrder (x : Nat × Node) : List (Nat × Node) → List (Nat × Node)
  | [] => [x]
  | y :: ys => if x.2.sortsBefore y.2 then y :: insertInOrder x ys else x :: y :: ys

/-- Document order, with the number under which each node was found. -/
def inOrder (nodes : List (Nat × Node)) : List (Nat × Node) :=
  (nodes.foldl (fun acc x => insertInOrder x acc) []).reverse

/-! ### Assembly -/

/-- The fields that the parts give, with nodes by the number under which they were found, and
those nodes. -/
structure Gathered where
  attrs : List (String × Json) := []
  fields : List (String × List (Option Nat)) := []
  /-- The nodes found, last first. -/
  nodes : List Node := []

/-- Replaces the entry of a key, or adds one. -/
def setKey {α : Type} (key : String) (value : α) (entries : List (String × α)) : List (String × α) :=
  if entries.any (·.1 == key) then entries.map fun e => if e.1 == key then (key, value) else e
  else entries ++ [(key, value)]

/-- Numbers the nodes of a field in order. -/
def numberNodes (first : Nat) : List (Option Node) → List (Option Nat)
  | [] => []
  | none :: ns => none :: numberNodes first ns
  | some _ :: ns => some first :: numberNodes (first + 1) ns

/-- Takes one part up. -/
def Gathered.add (g : Gathered) : Part → Gathered
  | .attr key value => { g with attrs := setKey key value g.attrs }
  | .field key nodes =>
    { g with
      fields := setKey key (numberNodes g.nodes.length nodes) g.fields
      nodes := (nodes.filterMap fun n => n).reverse ++ g.nodes }
  | .hidden key node =>
    let before := ((g.fields.find? (·.1 == key)).map (·.2)).getD []
    { g with
      fields := setKey key (before ++ [some g.nodes.length]) g.fields
      nodes := node :: g.nodes }

/-- The node made of its parts. -/
def assemble (id : Int64) (kind : NodeKind) (src : Span) (parts : List Part) : Node :=
  let g := parts.foldl Gathered.add {}
  let sorted := inOrder ((g.nodes.reverse.zipIdx).map fun (n, i) => (i, n))
  let place (i : Nat) : Nat := (sorted.findIdx? (·.1 == i)).getD 0
  let fields := g.fields.map fun (key, entries) => (key, entries.map (·.map place))
  .mk { id, kind, src, attrs := g.attrs, fields } (sorted.map (·.2))

/-- The kind, number and span of an object that declares a node. -/
def header (members : List (String × Json)) : Except DecodeError (NodeKind × Int64 × Span) :=
  let kind := (kindOf? members).getD ""
  let id := match member? "id" members with
    | some (.num text) => Integer.value text
    | _ => 0
  match member? "src" members with
  | some (.str src) =>
    match Span.parse src with
    | .ok span => .ok (kind, id, span)
    | .error e => .error (.badSource kind id e)
  | _ => .error (.noSource kind id)

/-- Is the key one of those that make the node itself? -/
def isOwnKey (key : String) : Bool := key == "nodeType" || key == "id" || key == "src"

mutual

/-- The node that an object declares.  Objects have each key once, in order. -/
def build : Json → Except DecodeError Node
  | .obj members => do
    let (kind, id, src) ← header members
    let parts ← memberParts members
    return assemble id kind src parts
  | _ => .error .rootIsNoNode

/-- What the members of a node contribute, in order. -/
def memberParts : List (String × Json) → Except DecodeError (List Part)
  | [] => .ok []
  | (key, value) :: rest => do
    if isOwnKey key then memberParts rest
    else
      let parts ←
        if isNodeValue value then do
          let n ← build value
          pure [Part.field key [some n]]
        else match value with
          | .arr items =>
            if isNodeList items then do
              let nodes ← buildItems items
              pure [Part.field key nodes]
            else do
              let hidden ← hiddenItems key items
              pure (.attr key value :: hidden)
          | .obj members => do
            let hidden ← hiddenMembers key members
            pure (.attr key value :: hidden)
          | _ => pure [.attr key value]
      return parts ++ (← memberParts rest)

/-- The nodes of a list of nodes and nulls. -/
def buildItems : List Json → Except DecodeError (List (Option Node))
  | [] => .ok []
  | value :: rest => do
    let n ← match value with
      | .null => pure none
      | value => some <$> build value
    return n :: (← buildItems rest)

/-- The nodes inside a value that is no node itself, under the key `path`. -/
def hiddenIn (path : String) : Json → Except DecodeError (List Part)
  | .obj members => hiddenMembers path members
  | .arr items => hiddenItems path items
  | _ => .ok []

/-- The nodes among the members of an object. -/
def hiddenMembers (path : String) : List (String × Json) → Except DecodeError (List Part)
  | [] => .ok []
  | (key, value) :: rest => do
    let here ←
      if isNodeValue value then do
        let n ← build value
        pure [Part.hidden (path ++ "." ++ key) n]
      else hiddenIn (path ++ "." ++ key) value
    return here ++ (← hiddenMembers path rest)

/-- The nodes inside the items of an array, under the key of the array. -/
def hiddenItems (path : String) : List Json → Except DecodeError (List Part)
  | [] => .ok []
  | value :: rest => do
    let here ← hiddenIn path value
    return here ++ (← hiddenItems path rest)

end

/-- The tree that a JSON value declares. -/
def ofJson (value : Json) : Except DecodeError Node :=
  let value := value.canonical
  if isNodeValue value then build value else .error .rootIsNoNode

/-- The tree that the first value of a text declares. -/
def decode (text : String) : Except DecodeError Node :=
  match Json.parseFirst? text with
  | none => .error .unreadable
  | some value => ofJson value

end Node

end SolidityLint
