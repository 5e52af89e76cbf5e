import SolidityLint.Rules.BestPractices

/-!
# Rules — order

Where things stand in a file, in a contract and in the header of a function.
-/

namespace SolidityLint

namespace Rules

/-- The category of this module's rules. -/
def order : String := "order"

/-- The items of a file as listed, with `none` for those left out. -/
def fileItems (f : SourceFile) : List (Option Node) :=
  ((f.root.bind (·.list? "nodes"))).getD []

/-! ### Imports on top -/

def importOnTopInfo : Info where
  id := "import-on-top"
  category := order
  description := "Import statements must be on top."
  page := "order"

/-- Imports that anything but a pragma or an import stands before. -/
def importOnTop (f : SourceFile) : List Finding :=
  go (fileItems f) true
where
  go : List (Option Node) → Bool → List Finding
    | [], _ => []
    | item :: items, top =>
      let kind := (item.map (·.kind)).getD ""
      if kind == "PragmaDirective" then go items top
      else if kind == "ImportDirective" then
        match item with
        | some n =>
          if top then go items top
          else f.findingAt n "Import statements must be on top" :: go items top
        | none => go items top
      else go items false

/-! ### Layout -/

def orderingInfo : Info where
  id := "ordering"
  category := order
  description := "Check order of elements in file and inside each contract, " ++
    "according to the style guide."
  page := "order"
  good := [⟨"Layout of a contract",
    "contract A \x7b\n    struct S \x7b uint256 a; \x7d\n    uint256 private _x;\n" ++
      "    event E();\n    modifier m() \x7b _; \x7d\n    constructor() \x7b\x7d\n" ++
      "    function f() external \x7b\x7d\n    function g() internal \x7b\x7d\n\x7d"⟩]
  bad := [⟨"State variable after a function",
    "contract A \x7b\n    function f() external \x7b\x7d\n    uint256 private _x;\n\x7d"⟩]

/-- The place of an item in the layout of a file; `none` for what may stand anywhere. -/
def fileRank? (n : Node) : Option Nat :=
  match n.kind with
  | "PragmaDirective" => some 0
  | "ImportDirective" => some 1
  | "EnumDefinition" => some 2
  | "StructDefinition" => some 3
  | "ContractDefinition" =>
    match n.text "contractKind" with
    | "interface" => some 4
    | "library" => some 5
    | _ => some 6
  | _ => none

/-- The place of a function in the layout of a contract. -/
def functionRank? (n : Node) : Option Nat :=
  match n.text "kind" with
  | "constructor" => some 6
  | "receive" => some 7
  | "fallback" => some 8
  | _ =>
    match n.text "visibility" with
    | "external" => some 9
    | "public" => some 10
    | "internal" => some 11
    | "private" => some 12
    | _ => none

/-- The place of a member in the layout of a contract; `none` for what may stand anywhere. -/
def memberRank? (n : Node) : Option Nat :=
  match n.kind with
  | "UserDefinedValueTypeDefinition" => some 0
  | "StructDefinition" => some 1
  | "EnumDefinition" => some 2
  | "VariableDeclaration" => some 3
  | "EventDefinition" => some 4
  | "ModifierDefinition" => some 5
  | "FunctionDefinition" => functionRank? n
  | _ => none

/-- Does a rank fall below the highest one so far? -/
def isMisplaced (rank highest : Option Nat) : Bool :=
  match rank, highest with
  | some r, some h => r < h
  | _, _ => false

/-- The highest rank after one more item; an item that is misplaced leaves it. -/
def raise (rank highest : Option Nat) : Option Nat :=
  match rank with
  | none => highest
  | some _ => if isMisplaced rank highest then highest else rank

/-- The findings among the members of a contract. -/
def misplacedMembers (f : SourceFile) : List Node → Option Nat → List Finding
  | [], _ => []
  | n :: ns, highest =>
    let rest := misplacedMembers f ns (raise (memberRank? n) highest)
    if isMisplaced (memberRank? n) highest then
      f.findingAt n "Invalid ordering of items in the file" :: rest
    else rest

/-- The findings among the items of a file, each contract with its members. -/
def misplacedItems (f : SourceFile) : List Node → Option Nat → List Finding
  | [], _ => []
  | n :: ns, highest =>
    (if isMisplaced (fileRank? n) highest then
      [f.findingAt n "Invalid ordering of items in the file"] else [])
    ++ (if n.kind == "ContractDefinition" then misplacedMembers f (n.list "nodes") none else [])
    ++ misplacedItems f ns (raise (fileRank? n) highest)

/-- The layout of a file.  The rule has no place for an item that was left out, and breaks. -/
def ordering (f : SourceFile) : Option (List Finding) :=
  ((fileItems f).mapM fun item => item).map fun items => misplacedItems f items none

/-! ### Visibility first -/

def visibilityModifierOrderInfo : Info where
  id := "visibility-modifier-order"
  category := order
  description := "Visibility modifier must be first in list of modifiers."
  page := "order"
  good := [⟨"Visibility first", "function foo() public onlyOwner \x7b\x7d"⟩]
  bad := [⟨"Visibility after a modifier", "function foo() onlyOwner public \x7b\x7d"⟩]

/-- The smaller of an offset and the least one so far, where a negative one stands for none. -/
def earlier (first offset : Int64) : Int64 := if first < 0 || offset < first then offset else first

/-- Visibility keywords behind the least offset of a modifier or a mutability keyword so far. -/
def lateVisibilities (f : SourceFile) : List Word → Int64 → List Finding
  | [], _ => []
  | w :: ws, first =>
    if ["pure", "view", "payable"].contains w.text then
      lateVisibilities f ws (earlier first w.span.offset)
    else if isVisibility w.text && 0 ≤ first && w.span.offset > first then
      ⟨f.range w.span, "Visibility modifier must be first in list of modifiers"⟩
        :: lateVisibilities f ws first
    else lateVisibilities f ws first

/-- Visibility keywords that a modifier or a mutability keyword stands before. -/
def visibilityModifierOrder (f : SourceFile) : List Finding :=
  (functions f).flatMap fun c =>
    let modifiers := (c.node.list "modifiers").filter (·.src.isValid)
    lateVisibilities f (f.headerWords c.node)
      (modifiers.foldl (fun first m => earlier first m.src.offset) (-1))

/-- `visibilityModifierOrder` as a reading. -/
def visibilityModifierOrder? (f : SourceFile) : Option (List Finding) :=
  (functions f).flatMapM fun c => do
    let modifiers := (c.node.list "modifiers").filter (·.src.isValid)
    return lateVisibilities f (← f.headerWords? c.node)
      (modifiers.foldl (fun first m => earlier first m.src.offset) (-1))

/-- The rules of this category. -/
def orderSpecs : List RuleSpec := [
  importOnTopInfo.spec importOnTop,
  orderingInfo.reading ordering,
  visibilityModifierOrderInfo.reading visibilityModifierOrder?]

end Rules

end SolidityLint
