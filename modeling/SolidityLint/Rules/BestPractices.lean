import SolidityLint.Rules.Info

/-!
# Rules — best practices
-/

namespace SolidityLint

namespace Rules

/-- The category of this module's rules. -/
def bestPractices : String := "best-practices"

/-- The call of a statement that is one, such as `require(ok);`. -/
def callOfStatement? (c : Cursor) : Option Node :=
  if c.isStatement && c.node.kind == "ExpressionStatement" then
    (c.node.field? "expression").filter (·.kind == "FunctionCall")
  else none

/-- The calls of a file that are statements. -/
def callStatements (f : SourceFile) : List Node := f.nodes.filterMap callOfStatement?

/-- The function definitions of a file. -/
def functions (f : SourceFile) : List Cursor := f.ofKinds ["FunctionDefinition"]

/-- The contracts, interfaces and libraries of a file. -/
def contracts (f : SourceFile) : List Cursor := f.ofKinds ["ContractDefinition"]

/-! ### Custom errors -/

def customErrorsInfo : Info where
  id := "custom-errors"
  category := bestPractices
  description := "Enforces the use of Custom Errors over Require and Revert statements"
  page := "best_practices"
  good := [⟨"Use Custom Errors", "revert CustomErrorFunction();"⟩,
    ⟨"Use of Custom Errors with arguments",
      "revert CustomErrorFunction(\x7b msg: \"Insufficient Balance\" \x7d);"⟩]
  bad := [⟨"Use of require statement",
      "require(userBalance >= availableAmount, \"Insufficient Balance\");"⟩,
    ⟨"Use of plain revert statement", "revert();"⟩,
    ⟨"Use of revert statement with message", "revert(\"Insufficient Balance\");"⟩]

/-- Calls of `require`, `assert` and `revert` as statements. -/
def customErrors (f : SourceFile) : List Finding :=
  (callStatements f).filterMap fun call =>
    let name := call.calleeName
    if ["require", "assert", "revert"].contains name then
      some (f.findingAt call ("Use Custom Errors instead of " ++ name ++ " statements"))
    else none

/-! ### Explicit types -/

def explicitTypesInfo : Info where
  id := "explicit-types"
  category := bestPractices
  data := .str "explicit"
  description := "Forbid or enforce explicit types (like uint256) that have an alias (like uint)."
  page := "best_practices"
  options := [⟨"Options need to be one of \"explicit\", \"implicit\"", "explicit"⟩]
  good := [⟨"If explicit is selected", "uint256 public variableName"⟩,
    ⟨"If implicit is selected", "uint public variableName"⟩]
  bad := [⟨"If explicit is selected", "uint public variableName"⟩,
    ⟨"If implicit is selected", "uint256 public variableName"⟩]

/-- The integer types that a mode forbids. -/
def forbiddenTypes (mode : String) : List String :=
  if mode == "implicit" then
    ["uint256", "int256", "uint8", "int8", "uint16", "int16", "uint32", "int32", "uint64", "int64",
      "uint128", "int128"]
  else ["uint", "int"]

/-- Type names that the mode forbids, with the variable that they declare. -/
def explicitTypes (mode : String) (f : SourceFile) : List Finding :=
  (f.ofKinds ["ElementaryTypeName"]).filterMap fun c =>
    if (forbiddenTypes mode).contains c.node.name then
      let declared := c.parentIsA ["VariableDeclaration"] && c.isFieldOfParent "typeName"
      let name := if declared then (c.parent?.map (·.name)).getD "" else ""
      some (f.findingAt c.node ("Rule is set with " ++ mode ++ " type [var/s: " ++ name ++ "]"))
    else none

/-! ### Length of functions -/

def functionMaxLinesInfo : Info where
  id := "function-max-lines"
  category := bestPractices
  data := .int 50
  description := "Function body contains \"count\" lines but allowed no more than maxlines."
  page := "best_practices"
  options := [⟨"Maximum lines", "50"⟩]

/-- The finding about a body whose braces are more than `max` lines apart. -/
def longBody? (max : Int64) (f : SourceFile) (n body : Node) : Option Finding :=
  let r := f.nodeRange body
  let lines := r.stop.line - r.start.line
  if lines ≤ max then none
  else
    some ⟨⟨(f.nameRange n).start, r.stop⟩,
      "Function body contains " ++ Integer.render lines ++ " lines but allowed no more than "
        ++ Integer.render max ++ " lines"⟩

/-- Function bodies whose braces are more than `max` lines apart. -/
def functionMaxLines (max : Int64) (f : SourceFile) : List Finding :=
  (functions f).filterMap fun c => (c.node.field? "body").bind (longBody? max f c.node)

/-- `functionMaxLines` as a reading: a function may have no body. -/
def functionMaxLines? (max : Int64) (f : SourceFile) : Option (List Finding) :=
  (functions f).filterMapM fun c => do
    let body := c.node.field? "body"
    if body.isNone then return none
    else return longBody? max f c.node (← body)

/-! ### Length of lines -/

def maxLineLengthInfo : Info where
  id := "max-line-length"
  category := bestPractices
  severity := .error
  data := .int 120
  description := "Line length must be no more than maxlen."
  page := "best_practices"
  options := [⟨"Maximum allowed line length in bytes", "120"⟩]

/-- The length of a line without the carriage returns that end it: the index drops one, and one
more is not counted. -/
def lineLength (f : SourceFile) (line : Nat) : Nat :=
  let bytes := f.lines.lineBytes (Int64.ofNat line)
  if 0 < bytes.size ∧ bytes.get! (bytes.size - 1) = carriageReturn then bytes.size - 1
  else bytes.size

/-- Lines of more than `max` bytes. -/
def maxLineLength (max : Int64) (f : SourceFile) : List Finding :=
  (List.range f.lines.lineCount).filterMap fun i =>
    let line := i + 1
    let size := lineLength f line
    if (size : Int) ≤ max.toInt then none
    else
      some ⟨⟨.ofNat line 1, .ofNat line (size + 1)⟩,
        "Line length must be no more than " ++ Integer.render max ++ " but current length is "
          ++ Nat.repr size⟩

/-! ### Number of state variables -/

def maxStatesCountInfo : Info where
  id := "max-states-count"
  category := bestPractices
  data := .int 15
  description :=
    "Contract has \"some count\" states declarations but allowed no more than maxstates."
  page := "best_practices"
  options := [⟨"Maximum number of state declarations per contract", "15"⟩]

/-- State variables of a contract past the first `max`; constants take no storage and are not
counted. -/
def maxStatesCount (max : Int64) (f : SourceFile) : List Finding :=
  (contracts f).flatMap fun c =>
    let states := (c.node.list "nodes").filter fun n =>
      n.kind == "VariableDeclaration" && !n.isConstant
    (states.zipIdx 1).filterMap fun (n, count) =>
      if (count : Int) ≤ max.toInt then none
      else
        some (f.findingAt n ("Contract has " ++ Nat.repr count
          ++ " states declarations but allowed no more than " ++ Integer.render max))

/-! ### Console -/

def noConsoleInfo : Info where
  id := "no-console"
  category := bestPractices
  description := "No console.log/logInt/logBytesX/logString/etc & No hardhat and forge-std " ++
    "console.sol import statements."
  page := "best_practices"
  bad := [⟨"No console.logX statements", "console.log(\"test\");"⟩,
    ⟨"No hardhat/console.sol import statements", "import \"hardhat/console.sol\";"⟩,
    ⟨"No forge-std console.sol & console2.sol import statements",
      "import \"forge-std/consoleN.sol\";"⟩]

/-- Is the callee `console.log` or one of its kin? -/
def isConsoleLog (callee : Node) : Bool :=
  callee.kind == "MemberAccess"
    && (callee.field? "expression").any (fun o => o.kind == "Identifier" && o.name == "console")
    && hasFront "log" (callee.text "memberName")

/-- The finding about an import of a console. -/
def consoleImport? (f : SourceFile) (n : Node) : Option Finding :=
  if ["hardhat/console.sol", "forge-std/console"].any (hasPart · (n.text "file")) then
    some (f.findingAt n "Unexpected import of console file")
  else none

/-- The finding about a call of `console.log`. -/
def consoleCall (f : SourceFile) (callee : Node) : Finding :=
  ⟨f.range callee.memberSpan, "Unexpected console statement"⟩

/-- Imports of a console and calls of its functions. -/
def noConsole (f : SourceFile) : List Finding :=
  f.nodes.filterMap fun c =>
    let n := c.node
    if n.kind == "ImportDirective" then consoleImport? f n
    else if n.kind == "FunctionCall" then
      match n.field? "expression" with
      | some callee => if isConsoleLog callee then some (consoleCall f callee) else none
      | none => none
    else none

/-- `noConsole` as a reading: a call may lack what is called. -/
def noConsole? (f : SourceFile) : Option (List Finding) :=
  f.nodes.filterMapM fun c => do
    let n := c.node
    if n.kind == "ImportDirective" then return consoleImport? f n
    else if n.kind == "FunctionCall" then
      let callee := n.field? "expression"
      if callee.any isConsoleLog then return some (consoleCall f (← callee)) else return none
    else return none

/-! ### Empty blocks -/

def noEmptyBlockInfo : Info where
  id := "no-empty-block"
  category := bestPractices
  description := "Code block has zero statements inside. Exceptions apply."
  page := "best_practices"
  good := [⟨"Empty fallback function", "fallback () external \x7b \x7d"⟩,
    ⟨"Empty constructor with member initialization list",
      "constructor(uint param) Foo(param) Bar(param*2) \x7b \x7d"⟩]
  bad := [⟨"Empty block on if statement", "if (condition) \x7b \x7d"⟩,
    ⟨"Empty contract", "contract Foo \x7b \x7d"⟩,
    ⟨"Empty block in constructor without parent initialization", "constructor () \x7b \x7d"⟩]

/-- Bodies that are empty on purpose: those of fallback and receive functions, and of constructors
that only call base constructors. -/
def mayBeEmpty (c : Cursor) : Bool :=
  c.parentIsA ["FunctionDefinition"] && c.isFieldOfParent "body"
    && c.parent?.any fun fn =>
      match fn.text "kind" with
      | "fallback" | "receive" => true
      | "constructor" => (fn.list "modifiers").any (·.text "kind" == "baseConstructorSpecifier")
      | _ => false

/-- Contracts without members and blocks without statements. -/
def noEmptyBlock (f : SourceFile) : List Finding :=
  f.nodes.filterMap fun c =>
    let n := c.node
    let empty :=
      if n.kind == "ContractDefinition" then (n.list "nodes").isEmpty
      else n.isA ["Block", "UncheckedBlock"] && (n.list "statements").isEmpty && !mayBeEmpty c
    if empty then some (f.findingAt n "Code contains empty blocks") else none

/-! ### Imports -/

def noGlobalImportInfo : Info where
  id := "no-global-import"
  category := bestPractices
  description := "Import statement includes an entire file instead of selected symbols."
  page := "best_practices"
  good := [⟨"import names explicitly", "import \x7bA\x7d from \"./A.sol\""⟩,
    ⟨"import entire file into a name", "import \"./A.sol\" as A"⟩,
    ⟨"import entire file into a name", "import * as A from \"./A.sol\""⟩]
  bad := [⟨"import all members from a file", "import * from \"foo.sol\";"⟩,
    ⟨"import an entire file", "import \"foo.sol\""⟩]

/-- Imports that name neither symbols nor a unit. -/
def noGlobalImport (f : SourceFile) : List Finding :=
  (f.ofKinds ["ImportDirective"]).filterMap fun c =>
    if c.node.text "unitAlias" == "" && c.node.symbolAliases.isEmpty then
      some (f.findingAt c.node
        ("Import should not be global. Specify names to import individually or bind all exports " ++
          "of the module into a name (import \"path\" as Name)"))
    else none

/-! ### Contracts in a file -/

def oneContractPerFileInfo : Info where
  id := "one-contract-per-file"
  category := bestPractices
  description := "A file should declare a single contract, interface or library."
  page := "best_practices"

/-- Every contract after the first. -/
def oneContractPerFile (f : SourceFile) : List Finding :=
  ((contracts f).drop 1).map fun c => f.findingAtName c.node "Found more than one contract per file"

/-- `oneContractPerFile` as a reading: there may be no first contract. -/
def oneContractPerFile? (f : SourceFile) : Option (List Finding) := do
  if (contracts f).length < 2 then return []
  else
    let others ← (contracts f).tail?
    return others.map fun c => f.findingAtName c.node "Found more than one contract per file"

/-! ### Fallback functions -/

def payableFallbackInfo : Info where
  id := "payable-fallback"
  category := bestPractices
  description := "When fallback is not payable you will not be able to receive ethers."
  page := "best_practices"
  good := [⟨"Payable fallback", "fallback() external payable \x7b\x7d"⟩]
  bad := [⟨"Fallback without payable", "fallback() external \x7b\x7d"⟩]

/-- The range from one word to another. -/
def wordsRange (f : SourceFile) (first last : Word) : Range :=
  ⟨(f.range first.span).start, (f.range last.span).stop⟩

/-- The range of the header words of a function, or of the function when it has none. -/
def headerRange (f : SourceFile) (n : Node) : Range :=
  match f.headerWords n with
  | [] => f.nodeRange n
  | first :: rest => wordsRange f first (rest.getLastD first)

/-- `headerRange` as a reading: there may be no words. -/
def headerRange? (f : SourceFile) (n : Node) : Option Range := do
  let words ← f.headerWords? n
  if words.isEmpty then return f.nodeRange n
  else return wordsRange f (← words.head?) (← words.getLast?)

/-- Is the function a fallback function that is not payable? -/
def refusesEther (n : Node) : Bool :=
  n.text "kind" == "fallback" && n.text "stateMutability" != "payable"

/-- The finding about such a function. -/
def unpayable (r : Range) : Finding :=
  ⟨r, "When fallback is not payable you will not be able to receive ether"⟩

/-- Fallback functions that are not payable. -/
def payableFallback (f : SourceFile) : List Finding :=
  (functions f).filterMap fun c =>
    if refusesEther c.node then some (unpayable (headerRange f c.node)) else none

/-- `payableFallback` as a reading. -/
def payableFallback? (f : SourceFile) : Option (List Finding) :=
  (functions f).filterMapM fun c => do
    if refusesEther c.node then return some (unpayable (← headerRange? f c.node)) else return none

/-! ### Reasons -/

def reasonStringInfo : Info where
  id := "reason-string"
  category := bestPractices
  data := .int 32
  description := "Require, assert and revert statements should carry a short reason string."
  page := "best_practices"
  options := [⟨"Maximum reason length, as a number or \x7b\"maxLength\": n\x7d", "32"⟩]
  good := [⟨"Require with reason string",
    "require(!has(role, account), \"Roles: account already has role\");"⟩]
  bad := [⟨"Require without reason string", "require(!has(role, account));"⟩,
    ⟨"Require with too long reason string",
      "require(!has(role, account), \"Roles: account already has role, " ++
        "this reason string is too long\");"⟩]

/-- The longest reason: a positive number, or one under `maxLength`. -/
def reasonOption (data : Data) : Int64 × Bool :=
  let positive (n : Option Int64) : Option Int64 := n.filter (0 < ·)
  if data.isNull then (32, true)
  else
    let nested := data.toJson?.bind
      (Json.readRecord? [("maxLength", Json.intField fun _ n => n)] (0 : Int64))
    match (positive data.int?).or (positive nested) with
    | some n => (n, true)
    | none => (32, false)

/-- Is the node a string literal? -/
def isStringLiteral (n : Node) : Bool := n.kind == "Literal" && n.text "kind" == "string"

/-- The finding about a call without a reason, or with one of more than `max` bytes. -/
def judgeReason? (max : Int64) (f : SourceFile) (call : Node) : Option Node → Option Finding
  | none => (call.field? "expression").map (f.findingAt · "Provide an error message for revert")
  | some r =>
    if ((r.text "value").utf8ByteSize : Int) ≤ max.toInt then none
    else
      some (f.findingAt r ("Error message for revert is too long. Should be less than "
        ++ Integer.render max ++ " characters"))

/-- Calls of `require`, `assert` and `revert` as statements without a reason, or with one of more
than `max` bytes. -/
def reasonString (max : Int64) (f : SourceFile) : List Finding :=
  (callStatements f).filterMap fun call =>
    let args := call.list "arguments"
    match call.calleeName with
    | "revert" => judgeReason? max f call (args.head?.filter isStringLiteral)
    | "require" | "assert" =>
      if (call.texts "names").isEmpty then judgeReason? max f call (args.find? isStringLiteral)
      else none
    | _ => none

/-- `reasonString` as a reading: a call may have no first argument. -/
def reasonString? (max : Int64) (f : SourceFile) : Option (List Finding) :=
  (callStatements f).filterMapM fun call => do
    let args := call.list "arguments"
    match call.calleeName with
    | "revert" =>
      if args.isEmpty then return judgeReason? max f call none
      else
        let first ← args.head?
        return judgeReason? max f call (if isStringLiteral first then some first else none)
    | "require" | "assert" =>
      if (call.texts "names").isEmpty then
        return judgeReason? max f call (args.find? isStringLiteral)
      else return none
    | _ => return none

/-- The rules of this category. -/
def bestPracticesSpecs : List RuleSpec := [
  customErrorsInfo.spec customErrors,
  explicitTypesInfo.specOf (textOption "explicit" ["explicit", "implicit"]) explicitTypes,
  functionMaxLinesInfo.readingOf (intOption 50) functionMaxLines?,
  maxLineLengthInfo.specOf (intOption 120) maxLineLength,
  maxStatesCountInfo.specOf (intOption 15) maxStatesCount,
  noConsoleInfo.reading noConsole?,
  noEmptyBlockInfo.spec noEmptyBlock,
  noGlobalImportInfo.spec noGlobalImport,
  oneContractPerFileInfo.reading oneContractPerFile?,
  payableFallbackInfo.reading payableFallback?,
  reasonStringInfo.readingOf reasonOption reasonString?]

end Rules

end SolidityLint
