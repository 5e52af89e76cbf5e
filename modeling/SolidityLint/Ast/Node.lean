import SolidityLint.Json.Basic
import SolidityLint.Position.Span

/-!
# Ast — nodes

The compiler's tree is kept generic: every object that carries a node kind is a node, whatever
the kind.  A node has its children in document order; the keys under which they were stored are
kept as `fields`, lists of places among the children, and what is not a node is an attribute.

A `Cursor` is a node together with the way down to it, so that parents, ancestors and the place
among the siblings are at hand.
-/

namespace SolidityLint

/-- The compiler's name for a kind of node; kinds that no rule knows are kept too. -/
abbrev NodeKind := String

/-- What a node holds besides its children. -/
structure NodeInfo where
  id : Int64
  kind : NodeKind
  src : Span
  /-- Values that are not nodes, by key. -/
  attrs : List (String × Json)
  /-- The nodes stored under a key, as places among the children; `none` where the compiler left
  an entry out. -/
  fields : List (String × List (Option Nat))
deriving Inhabited

/-- A node with its children in document order. -/
inductive Node where
  | mk (info : NodeInfo) (children : List Node)
deriving Inhabited

namespace Node

def info : Node → NodeInfo
  | mk info _ => info

def children : Node → List Node
  | mk _ children => children

def id (n : Node) : Int64 := n.info.id
def kind (n : Node) : NodeKind := n.info.kind
def src (n : Node) : Span := n.info.src

/-- Has the node one of the kinds? -/
def isA (n : Node) (kinds : List NodeKind) : Bool := kinds.contains n.kind

/-- The name of a node in listings. -/
def label (n : Node) : String := n.kind ++ "#" ++ Integer.render n.id

/-! ### Attributes -/

/-- The attribute of a key. -/
def attr? (n : Node) (key : String) : Option Json := (n.info.attrs.find? (·.1 == key)).map (·.2)

/-- A text attribute, empty when there is none. -/
def text (n : Node) (key : String) : String :=
  match n.attr? key with
  | some (.str s) => s
  | _ => ""

/-- A Boolean attribute, false when there is none. -/
def flag (n : Node) (key : String) : Bool :=
  match n.attr? key with
  | some (.bool b) => b
  | _ => false

/-- An integer attribute, and whether it is one: a number out of range gives the nearest. -/
def int (n : Node) (key : String) : Int64 × Bool :=
  match n.attr? key with
  | some (.num t) =>
    match Integer.read t with
    | .ok v => (v, true)
    | .error _ => (Integer.value t, false)
  | _ => (0, false)

/-- The strings of a list attribute; other items are passed over. -/
def texts (n : Node) (key : String) : List String :=
  match n.attr? key with
  | some (.arr items) => items.filterMap Json.str?
  | _ => []

def name (n : Node) : String := n.text "name"

/-- The span under a key that holds one, or that of the node. -/
def spanAt (n : Node) (key : String) : Span :=
  match Span.parse (n.text key) with
  | .ok s => if s.isValid then s else n.src
  | .error _ => n.src

/-- Where the name stands: the place that the compiler noted, or the whole node. -/
def nameSpan (n : Node) : Span := n.spanAt "nameLocation"

/-! ### Fields -/

/-- The places stored under a key. -/
def places? (n : Node) (key : String) : Option (List (Option Nat)) :=
  (n.info.fields.find? (·.1 == key)).map (·.2)

/-- The nodes stored under a key, with `none` for entries left out. -/
def list? (n : Node) (key : String) : Option (List (Option Node)) :=
  (n.places? key).map (·.map fun place => place.bind (n.children[·]?))

/-- The nodes stored under a key. -/
def list (n : Node) (key : String) : List Node := ((n.list? key).getD []).filterMap fun x => x

/-- The first node stored under a key. -/
def field? (n : Node) (key : String) : Option Node := (n.list key).head?

/-- The names of the nodes stored under a key. -/
def names (n : Node) (key : String) : List String := (n.list key).map name

/-- The parameters of a list of parameters stored under a key. -/
def parameters (n : Node) (key : String) : List Node :=
  ((n.field? key).map (·.list "parameters")).getD []

end Node

/-- A node and the way down to it. -/
structure Cursor where
  node : Node
  /-- The ancestors from the parent up, each with the place taken among its children. -/
  trail : List (Nat × Node)
deriving Inhabited

namespace Cursor

/-- The cursor at the top of a tree. -/
def root (n : Node) : Cursor := ⟨n, []⟩

def parent? (c : Cursor) : Option Node := c.trail.head?.map (·.2)

/-- Is the parent of one of the kinds? -/
def parentIsA (c : Cursor) (kinds : List NodeKind) : Bool := c.parent?.any (·.isA kinds)

/-- The nearest ancestor of one of the kinds. -/
def ancestor? (c : Cursor) (kinds : List NodeKind) : Option Node :=
  (c.trail.find? (·.2.isA kinds)).map (·.2)

/-- Is this the first node that the parent stores under a key? -/
def isFieldOfParent (c : Cursor) (key : String) : Bool :=
  match c.trail with
  | [] => false
  | (place, parent) :: _ =>
    match ((parent.places? key).getD []).find? (·.isSome) with
    | some first => first == some place
    | none => false

/-- The cursor at a child. -/
def child? (c : Cursor) (place : Nat) : Option Cursor :=
  (c.node.children[place]?).map fun n => ⟨n, (place, c.node) :: c.trail⟩

/-- The cursors at the nodes stored under a key. -/
def list (c : Cursor) (key : String) : List Cursor :=
  ((c.node.places? key).getD []).filterMap fun place => place.bind c.child?

/-- The cursor at the first node stored under a key. -/
def field? (c : Cursor) (key : String) : Option Cursor := (c.list key).head?

/-- The cursors at the parameters of a list of parameters stored under a key. -/
def parameters (c : Cursor) (key : String) : List Cursor :=
  ((c.field? key).map (·.list "parameters")).getD []

end Cursor

end SolidityLint
