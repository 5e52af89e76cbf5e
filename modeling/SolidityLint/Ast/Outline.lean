import SolidityLint.Ast.Views
import SolidityLint.Text.Integer

/-!
# Ast — outlines

A listing of a tree as JSON: `Cursor.describe` lists what a single node holds, and `outline` the
declarations and expressions of each kind that rules look at.
-/

namespace SolidityLint

namespace Outline

/-- The label of a node, empty for none. -/
def label (n : Option Node) : Json := .str ((n.map Node.label).getD "")

def texts (xs : List String) : Json := .arr (xs.map .str)

def int64 (n : Int64) : Json := .int n.toInt

def span (s : Span) : Json := .str s.render

/-- The kinds of nodes. -/
def kinds (ns : List Node) : Json := texts (ns.map (·.kind))

/-- The names of the parameters under a key. -/
def parameters (n : Node) (key : String) : Json := texts ((n.parameters key).map (·.name))

/-- A value, with numbers by their text and collections by their size. -/
def shownValue : Json → Json
  | .num t => .obj [("number", .str t)]
  | .arr xs => .obj [("list", .nat xs.length)]
  | .obj ms => .obj [("object", .nat ms.length)]
  | v => v

/-- What a node holds under a key; `none` when it holds nothing there. -/
def key? (n : Node) (key : String) : Option (String × Json) :=
  let value : List (String × Json) := match n.attr? key with
    | none => []
    | some v =>
      let (i, ok) := n.int key
      [("value", shownValue v), ("string", .str (n.text key)), ("bool", .bool (n.flag key)),
        ("int", .arr [.str (Integer.render i), .bool ok]), ("strings", texts (n.texts key))]
  let nodes : List (String × Json) := match n.list? key with
    | none => []
    | some ns =>
      let ids := ns.map fun
        | some m => int64 m.id
        | none => .null
      [("nodes", .arr ids), ("field", label (n.field? key))]
  if value.isEmpty && nodes.isEmpty then none else some (key, .obj (value ++ nodes))

/-- What is listed of a variable. -/
def variableMembers (c : Cursor) : List (String × Json) :=
  let n := c.node
  [("name", .str n.name), ("type", label (n.field? "typeName")), ("value", label (n.field? "value")),
    ("state", .bool (n.flag "stateVariable")), ("constant", .bool n.isConstant),
    ("immutable", .bool n.isImmutable), ("mutability", .str (n.text "mutability")),
    ("visibility", .str (n.text "visibility")), ("storage", .str (n.text "storageLocation")),
    ("indexed", .bool (n.flag "indexed")), ("file_level", .bool c.isFileLevel)]

/-- What is listed of a contract. -/
def contractMembers (c : Cursor) : List (String × Json) :=
  let n := c.node
  [("name", .str n.name), ("kind", .str (n.text "contractKind")), ("abstract", .bool (n.flag "abstract")),
    ("members", kinds (n.list "nodes")), ("bases", texts n.baseNames),
    ("statements", kinds ((c.retrieve .statements).map (·.node)))]

/-- What is listed of a function. -/
def functionMembers (n : Node) : List (String × Json) :=
  [("name", .str n.name), ("kind", .str (n.text "kind")), ("visibility", .str (n.text "visibility")),
    ("mutability", .str (n.text "stateMutability")), ("virtual", .bool (n.flag "virtual")),
    ("params", parameters n "parameters"), ("returns", parameters n "returnParameters"),
    ("modifiers", .nat (n.list "modifiers").length), ("body", label (n.field? "body"))]

end Outline

/-- What a node holds, with the values under some keys. -/
def Cursor.describe (c : Cursor) (keys : List String) : Json :=
  let n := c.node
  let held := keys.eraseDups.filterMap (Outline.key? n)
  .obj ([("depth", .nat c.trail.length), ("type", .str n.kind), ("id", Outline.int64 n.id),
    ("src", Outline.span n.src), ("name", .str n.name), ("name_span", Outline.span n.nameSpan),
    ("parent", Outline.label c.parent?), ("children", .arr (n.children.map fun m => Outline.int64 m.id))]
    ++ if held.isEmpty then [] else [("keys", .obj held)])

open Outline in
/-- The declarations and expressions among nodes, by kind. -/
def outline (nodes : List Cursor) : Json :=
  let select (name : String) (r : Retriever) (members : Cursor → List (String × Json)) :
      String × Json :=
    (name, .arr ((nodes.filter r.selects).map fun c => .obj (members c)))
  let each (name kind : String) (members : Node → List (String × Json)) : String × Json :=
    select name (.ofKinds [kind]) fun c => members c.node
  let named (name kind : String) (members : Node → List (String × Json)) : String × Json :=
    each name kind fun n => ("name", .str n.name) :: members n
  .obj [
    select "contracts" (.ofKinds ["ContractDefinition"]) contractMembers,
    each "functions" "FunctionDefinition" functionMembers,
    named "modifiers" "ModifierDefinition" fun n =>
      [("params", parameters n "parameters"), ("body", label (n.field? "body"))],
    named "structs" "StructDefinition" fun n => [("members", texts (n.names "members"))],
    named "enums" "EnumDefinition" fun n => [("values", texts (n.names "members"))],
    named "errors" "ErrorDefinition" fun n => [("params", parameters n "parameters")],
    named "events" "EventDefinition" fun n =>
      [("params", parameters n "parameters"), ("anonymous", .bool (n.flag "anonymous"))],
    each "usings" "UsingForDirective" fun n =>
      [("library", .str (n.nameOfField "libraryName")), ("global", .bool (n.flag "global"))],
    each "imports" "ImportDirective" fun n =>
      [("path", .str (n.text "file")), ("unit", .str (n.text "unitAlias")),
        ("aliases", .arr (n.symbolAliases.map fun (f, l) => texts [f, l]))],
    named "types" "UserDefinedValueTypeDefinition" fun n =>
      [("underlying", .str (n.nameOfField "underlyingType"))],
    select "declarations" .declarations variableMembers,
    select "definitions" .definitions variableMembers,
    each "calls" "FunctionCall" fun n =>
      [("callee", label (n.field? "expression")), ("name", .str n.calleeName),
        ("args", .nat (n.list "arguments").length), ("names", texts (n.texts "names")),
        ("kind", .str (n.text "kind"))],
    each "members" "MemberAccess" fun n =>
      [("expression", label (n.field? "expression")), ("member", .str (n.text "memberName")),
        ("span", span n.memberSpan)],
    select "blocks" (.ofKinds ["Block", "UncheckedBlock"]) fun c =>
      [("statements", kinds (c.node.list "statements")),
        ("unchecked", .bool (c.node.kind == "UncheckedBlock"))]]

end SolidityLint
