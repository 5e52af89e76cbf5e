import SolidityLint.Ast.Walk

/-!
# Ast — views

Names for the questions that rules and listings ask about particular kinds of nodes.
-/

namespace SolidityLint

namespace Node

/-! ### Declarations -/

/-- Is a variable constant, as a flag of its own or by its mutability? -/
def isConstant (n : Node) : Bool := n.flag "constant" || n.text "mutability" == "constant"

/-- Is a variable immutable? -/
def isImmutable (n : Node) : Bool := n.text "mutability" == "immutable"

/-- The names of the contracts that a contract inherits from. -/
def baseNames (n : Node) : List String :=
  (n.list "baseContracts").filterMap fun spec => (spec.field? "baseName").map name

/-- The name of the first node stored under a key, empty when there is none. -/
def nameOfField (n : Node) (key : String) : String := ((n.field? key).map name).getD ""

/-- The symbols that an import names, each with its local name. -/
def symbolAliases (n : Node) : List (String × String) :=
  match n.attr? "symbolAliases" with
  | some (.arr items) => items.filterMap fun item =>
    match item with
    | .obj _ =>
      let foreign := (((item.get? "foreign").bind (·.get? "name")).bind Json.str?).getD ""
      some (foreign, ((item.get? "local").bind Json.str?).getD "")
    | _ => none
  | _ => []

/-! ### Expressions -/

/-- The name of a callee that is a plain identifier. -/
def calleeName (n : Node) : String :=
  match n.field? "expression" with
  | some callee => if callee.kind == "Identifier" then callee.name else ""
  | none => ""

/-- Where the name after the dot stands. -/
def memberSpan (n : Node) : Span := n.spanAt "memberLocation"

end Node

namespace Cursor

/-- Does the declaration stand in no contract? -/
def isFileLevel (c : Cursor) : Bool := c.parentIsA ["SourceUnit"]

/-- Is the variable a state variable or a constant of the file? -/
def isDefinition (c : Cursor) : Bool := c.node.flag "stateVariable" || c.isFileLevel

/-- The kinds that are statements wherever they stand. -/
def statementKinds : List NodeKind :=
  ["ExpressionStatement", "VariableDeclarationStatement", "IfStatement", "ForStatement",
    "WhileStatement", "DoWhileStatement", "Return", "EmitStatement", "RevertStatement", "Break",
    "Continue", "PlaceholderStatement", "InlineAssembly", "TryStatement", "UncheckedBlock", "Throw"]

/-- Is the node a statement?  A block is one unless it is the body of a function, a modifier or a
catch clause. -/
def isStatement (c : Cursor) : Bool :=
  c.node.isA statementKinds
    || (c.node.kind == "Block"
      && !c.parentIsA ["FunctionDefinition", "ModifierDefinition", "TryCatchClause"])

end Cursor

/-! ### Retrievers -/

/-- What is retrieved from a tree. -/
inductive Retriever where
  /-- The nodes of some kinds. -/
  | ofKinds (kinds : List NodeKind)
  /-- Variables that are neither state variables nor constants of the file. -/
  | declarations
  /-- State variables and constants of the file. -/
  | definitions
  | statements

/-- Is the node one of those that are retrieved? -/
def Retriever.selects : Retriever → Cursor → Bool
  | ofKinds kinds, c => c.node.isA kinds
  | declarations, c => c.node.kind == "VariableDeclaration" && !c.isDefinition
  | definitions, c => c.node.kind == "VariableDeclaration" && c.isDefinition
  | statements, c => c.isStatement

/-- The nodes from a cursor down that are retrieved. -/
def Cursor.retrieve (c : Cursor) (r : Retriever) : List Cursor := c.collect r.selects

end SolidityLint
