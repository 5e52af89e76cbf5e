import SolidityLint.Rules.Naming

/-!
# Rules — security
-/

namespace SolidityLint

namespace Rules

/-- The category of this module's rules. -/
def security : String := "security"

/-- Is the node the access `object.member`? -/
def isMember (n : Node) (object member : String) : Bool :=
  n.kind == "MemberAccess" && n.text "memberName" == member
    && (n.field? "expression").any fun e => e.kind == "Identifier" && e.name == object

/-! ### Origin of a transaction -/

def avoidTxOriginInfo : Info where
  id := "avoid-tx-origin"
  category := security
  description := "Avoid to use tx.origin."
  page := "security"
  bad := [⟨"Authorization through tx.origin", "require(tx.origin == owner);"⟩]

/-- Uses of `tx.origin`. -/
def avoidTxOrigin (f : SourceFile) : List Finding :=
  ((f.ofKinds ["MemberAccess"]).filter fun c => isMember c.node "tx" "origin").map fun c =>
    f.findingAt c.node "Avoid to use tx.origin"

/-! ### Visibility of functions -/

def funcVisibilityInfo : Info where
  id := "func-visibility"
  category := security
  data := .map [("ignoreConstructors", .bool true)]
  description := "Explicitly mark visibility in function."
  page := "security"
  options := [⟨"A JSON object with a single property \"ignoreConstructors\" specifying if the " ++
      "rule should ignore constructors. (Note: This is required to be true for Solidity >=0.7.0 " ++
      "and false for <0.7.0)",
    "\x7b\"ignoreConstructors\":true\x7d"⟩]
  good := [⟨"Functions explicitly marked with visibility",
    "function b() internal \x7b \x7d\nfunction b() external \x7b \x7d\n" ++
      "function b() private \x7b \x7d\nfunction b() public \x7b \x7d\n" ++
      "constructor() public \x7b \x7d"⟩]
  bad := [⟨"Functions without explicitly marked visibility", "function b() \x7b \x7d"⟩]

/-- The range of a keyword at the start of a node, or of the node when the source spells it
otherwise. -/
def keywordRange (f : SourceFile) (n : Node) (keyword : String) : Range :=
  let bytes := Utf8.encode keyword
  if bytes.toList.isPrefixOf (f.slice n.src).toList then
    f.range { n.src with length := Int64.ofNat bytes.size }
  else f.nodeRange n

/-- Need the function no visibility? -/
def needsNoVisibility (ignoreConstructors : Bool) (n : Node) : Bool :=
  n.text "kind" == "freeFunction" || (n.text "kind" == "constructor" && ignoreConstructors)

/-- The finding about a function with the visibility that its header gives: plain functions are
reported as a whole, the others at their keyword. -/
def unmarkedFunction? (f : SourceFile) (n : Node) (visibility : String) : Option Finding :=
  let kind := n.text "kind"
  let message := "Explicitly mark visibility in function (public, private, internal, external)"
  if visibility != "" then none
  else if kind == "function" then some (f.findingAt n message)
  else some ⟨keywordRange f n kind, message⟩

/-- Functions of contracts that are written without a visibility. -/
def funcVisibility (ignoreConstructors : Bool) (f : SourceFile) : List Finding :=
  (functions f).filterMap fun c =>
    if needsNoVisibility ignoreConstructors c.node then none
    else unmarkedFunction? f c.node (f.explicitVisibility c.node)

/-- `funcVisibility` as a reading. -/
def funcVisibility? (ignoreConstructors : Bool) (f : SourceFile) : Option (List Finding) :=
  (functions f).filterMapM fun c => do
    if needsNoVisibility ignoreConstructors c.node then return none
    else return unmarkedFunction? f c.node (← f.explicitVisibility? c.node)

/-! ### Assembly -/

def noInlineAssemblyInfo : Info where
  id := "no-inline-assembly"
  category := security
  description := "Avoid to use inline assembly. It is acceptable only in rare cases."
  page := "security"

/-- Assembly blocks. -/
def noInlineAssembly (f : SourceFile) : List Finding :=
  (f.ofKinds ["InlineAssembly"]).map fun c =>
    f.findingAt c.node "Avoid to use inline assembly. It is acceptable only in rare cases"

/-! ### Time -/

def notRelyOnTimeInfo : Info where
  id := "not-rely-on-time"
  category := security
  description := "Avoid making time-based decisions in your business logic."
  page := "security"
  bad := [⟨"Deadline on block time", "require(block.timestamp > deadline);"⟩]

/-- Is the node the time of the block, by its old or its new name? -/
def isBlockTime (n : Node) : Bool :=
  (n.kind == "Identifier" && n.name == "now") || isMember n "block" "timestamp"

/-- Uses of the time of the block; what stands below one is not looked at. -/
def notRelyOnTime (f : SourceFile) : List Finding :=
  match f.root with
  | none => []
  | some root =>
    let found := ((Cursor.root root).walk fun c => !isBlockTime c.node).filter (isBlockTime ·.node)
    found.map fun c => f.findingAt c.node "Avoid making time-based decisions in your business logic"

/-! ### Visibility of state -/

def stateVisibilityInfo : Info where
  id := "state-visibility"
  category := security
  description := "Explicitly mark visibility of state."
  page := "security"
  good := [⟨"State explicitly marked with visibility", "uint public data;"⟩]
  bad := [⟨"State without explicitly marked visibility", "uint data;"⟩]

/-- The finding about a state variable with the visibility that its header gives. -/
def unmarkedState? (f : SourceFile) (n : Node) (visibility : String) : Option Finding :=
  if visibility == "" then some (f.findingAtName n "Explicitly mark visibility of state") else none

/-- State variables that are written without a visibility. -/
def stateVisibility (f : SourceFile) : List Finding :=
  (definitions f).filterMap fun c =>
    if c.node.flag "stateVariable" then unmarkedState? f c.node (f.explicitVisibility c.node)
    else none

/-- `stateVisibility` as a reading. -/
def stateVisibility? (f : SourceFile) : Option (List Finding) :=
  (definitions f).filterMapM fun c => do
    if c.node.flag "stateVariable" then
      return unmarkedState? f c.node (← f.explicitVisibility? c.node)
    else return none

/-- The rules of this category. -/
def securitySpecs : List RuleSpec := [
  avoidTxOriginInfo.spec avoidTxOrigin,
  funcVisibilityInfo.readingOf (flagOption "ignoreConstructors" true) funcVisibility?,
  noInlineAssemblyInfo.spec noInlineAssembly,
  notRelyOnTimeInfo.spec notRelyOnTime,
  stateVisibilityInfo.reading stateVisibility?]

end Rules

end SolidityLint
