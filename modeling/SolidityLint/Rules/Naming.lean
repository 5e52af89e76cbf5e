import SolidityLint.Rules.BestPractices

/-!
# Rules — naming

Names are Solidity identifiers, so only ASCII letters have a case here.
-/

namespace SolidityLint

namespace Rules

/-- The category of this module's rules. -/
def naming : String := "naming"

/-! ### Cases -/

private def isSeparator (c : Char) : Bool := c == '_' || c == '-'

/-- An upper case letter first, and no separators: `ERC20Token`. -/
def isCamelCase (name : String) : Bool :=
  name.toList.head?.any Char.isUpper && !name.toList.any isSeparator

/-- A lower case letter first, behind at most one underscore, and no separators: `transferFrom`. -/
def isMixedCase (name : String) : Bool :=
  let cs := match name.toList with
    | '_' :: cs => cs
    | cs => cs
  cs.head?.any Char.isLower && !cs.any isSeparator

/-- Upper case letters, digits and underscores, and no digit first: `MAX_SUPPLY_2`. -/
def isSnakeCase (name : String) : Bool :=
  let cs := name.toList
  !cs.isEmpty && !cs.head?.any Char.isDigit && cs.all fun c => c == '_' || c.isUpper || c.isDigit

/-- An underscore anywhere but in the first place. -/
def hasInnerUnderscore (name : String) : Bool := (name.toList.drop 1).contains '_'

/-! ### Declarations -/

/-- The state variables and the constants of the file. -/
def definitions (f : SourceFile) : List Cursor :=
  (f.ofKinds ["VariableDeclaration"]).filter (·.isDefinition)

/-- Functions with a name that someone chose. -/
def namedFunctions (f : SourceFile) : List Cursor :=
  (functions f).filter fun c =>
    c.node.name != "" && ["function", "freeFunction"].contains (c.node.text "kind")

/-- A finding about the name of each node that fails the test. -/
def namesThat (f : SourceFile) (bad : Node → Bool) (message : String) (cs : List Cursor) :
    List Finding :=
  (cs.filter (bad ·.node)).map fun c => f.findingAtName c.node message

/-! ### The rules -/

def constNameSnakecaseInfo : Info where
  id := "const-name-snakecase"
  category := naming
  description := "Constant name must be in capitalized SNAKE_CASE. (Does not check IMMUTABLES)"
  page := "naming"
  good := [⟨"Constant in SNAKE_CASE", "uint256 constant MAX_SUPPLY = 1000;"⟩]
  bad := [⟨"Constant in mixedCase", "uint256 constant maxSupply = 1000;"⟩]

/-- Constants whose name is not in upper case. -/
def constNameSnakecase (f : SourceFile) : List Finding :=
  namesThat f (fun n => n.isConstant && !isSnakeCase n.name)
    "Constant name must be in capitalized SNAKE_CASE" (definitions f)

def contractNameCamelcaseInfo : Info where
  id := "contract-name-camelcase"
  category := naming
  description := "Contract name must be in CamelCase."
  page := "naming"

/-- Contracts, interfaces and libraries whose name is not in camel case. -/
def contractNameCamelcase (f : SourceFile) : List Finding :=
  namesThat f (fun n => !isCamelCase n.name) "Contract name must be in CamelCase" (contracts f)

def eventNameCamelcaseInfo : Info where
  id := "event-name-camelcase"
  category := naming
  description := "Event name must be in CamelCase."
  page := "naming"

/-- Events whose name is not in camel case. -/
def eventNameCamelcase (f : SourceFile) : List Finding :=
  namesThat f (fun n => !isCamelCase n.name) "Event name must be in CamelCase"
    (f.ofKinds ["EventDefinition"])

def foundryTestFunctionsInfo : Info where
  id := "foundry-test-functions"
  category := naming
  data := .list [.str "setUp"]
  description := "Enforce naming convention on functions for Foundry test cases"
  page := "naming"
  options := [⟨"Array of function to be skipped", "[\"setUp\"]"⟩]
  good := [⟨"Foundry test case with correct Function declaration",
      "function test_NumberIs42() public \x7b\x7d"⟩,
    ⟨"Foundry test case with correct Function declaration",
      "function testFail_Subtract43() public \x7b\x7d"⟩,
    ⟨"Foundry test case with correct Function declaration",
      "function testFuzz_FuzzyTest() public \x7b\x7d"⟩]
  bad := [⟨"Foundry test case with incorrect Function declaration",
    "function numberIs42() public \x7b\x7d"⟩]

/-- `test` and at least one more character, all letters, digits and underscores.  What the
convention lets follow `test` (`Fork`, `Fuzz`, `Fail`, `RevertIf_`, …) may all be left out. -/
def isFoundryTestName (name : String) : Bool :=
  match name.toList with
  | 't' :: 'e' :: 's' :: 't' :: rest => !rest.isEmpty && rest.all isWordChar
  | _ => false

/-- The finding about a function with the visibility that its header gives. -/
def misnamedTest? (skip : List String) (f : SourceFile) (n : Node) (visibility : String) :
    Option Finding :=
  if ["public", "external"].contains visibility && !isFoundryTestName n.name
      && !skip.contains n.name then
    some (f.findingAtName n
      ("Function " ++ n.name ++ "() must match Foundry test naming convention"))
  else none

/-- Functions of a test file that are written as public or external, are not skipped, and do not
have the name of a test. -/
def foundryTestFunctions (skip : List String) (f : SourceFile) : List Finding :=
  if hasBack ".t.sol" f.path then
    (namedFunctions f).filterMap fun c =>
      misnamedTest? skip f c.node (f.explicitVisibility c.node)
  else []

/-- `foundryTestFunctions` as a reading. -/
def foundryTestFunctions? (skip : List String) (f : SourceFile) : Option (List Finding) :=
  if hasBack ".t.sol" f.path then
    (namedFunctions f).filterMapM fun c => do
      return misnamedTest? skip f c.node (← f.explicitVisibility? c.node)
  else some []

def funcNameMixedcaseInfo : Info where
  id := "func-name-mixedcase"
  category := naming
  description := "Function name must be in mixedCase."
  page := "naming"

/-- Functions whose name is not in mixed case. -/
def funcNameMixedcase (f : SourceFile) : List Finding :=
  namesThat f (fun n => !isMixedCase n.name) "Function name must be in mixedCase" (namedFunctions f)

def funcParamNameMixedcaseInfo : Info where
  id := "func-param-name-mixedcase"
  category := naming
  description := "Function param name must be in mixedCase."
  page := "naming"

/-- Parameters of functions that have a name, and not one in mixed case. -/
def funcParamNameMixedcase (f : SourceFile) : List Finding :=
  (functions f).flatMap fun c =>
    ((c.node.parameters "parameters").filter fun n => n.name != "" && !isMixedCase n.name).map
      (f.findingAtName · "Function param name must be in mixedCase")

def modifierNameMixedcaseInfo : Info where
  id := "modifier-name-mixedcase"
  category := naming
  description := "Modifier name must be in mixedCase."
  page := "naming"

/-- Modifiers whose name is not in mixed case. -/
def modifierNameMixedcase (f : SourceFile) : List Finding :=
  namesThat f (fun n => !isMixedCase n.name) "Modifier name must be in mixedCase"
    (f.ofKinds ["ModifierDefinition"])

def namedParametersMappingInfo : Info where
  id := "named-parameters-mapping"
  category := naming
  description := "Solidity v0.8.18 introduced named parameters on the mappings definition."
  page := "naming"
  good := [⟨"To enter \"users\" mapping the key called \"name\" is needed to get the \"balance\"",
      "mapping(string name => uint256 balance) public users;"⟩,
    ⟨"To enter owner token balance, the main key \"owner\" enters another mapping which its key " ++
        "is \"token\" to get its \"balance\"",
      "mapping(address owner => mapping(address token => uint256 balance)) " ++
        "public tokenBalances;"⟩,
    ⟨"Main key of mapping is enforced. On nested mappings other naming are not necessary",
      "mapping(address owner => mapping(address => uint256)) public tokenBalances;"⟩]
  bad := [⟨"No naming at all in regular mapping",
      "mapping(address => uint256) public tokenBalances;"⟩,
    ⟨"Missing any variable name in regular mapping uint256",
      "mapping(address token => uint256) public tokenBalances;"⟩,
    ⟨"No MAIN KEY naming in nested mapping. Other naming are not enforced",
      "mapping(address => mapping(address token => uint256 balance)) public tokenBalances;"⟩]

/-- Keys and values without a name of mappings that do not stand directly in another one; a value
that is a mapping needs no name. -/
def namedParametersMapping (f : SourceFile) : List Finding :=
  ((f.ofKinds ["Mapping"]).filter fun c => !c.parentIsA ["Mapping"]).flatMap fun c =>
    let part (key name : String) (skip : Node → Bool) : List Finding :=
      match c.node.field? key with
      | some n =>
        if c.node.text name == "" && !skip n then
          [f.findingAt n (f.sliceText n.src ++ " parameter is not named")]
        else []
      | none => []
    part "keyType" "keyName" (fun _ => false) ++ part "valueType" "valueName" (·.kind == "Mapping")

/-- The finding about a part of a mapping that needs a name, if the part is there. -/
def unnamedPart? (f : SourceFile) (part : Option Node) (name : String) (skip : Node → Bool) :
    Option (List Finding) := do
  if name == "" && part.isSome && !part.any skip then
    let n ← part
    return [f.findingAt n (f.sliceText n.src ++ " parameter is not named")]
  else return []

/-- `namedParametersMapping` as a reading: a mapping may lack its key or its value. -/
def namedParametersMapping? (f : SourceFile) : Option (List Finding) :=
  ((f.ofKinds ["Mapping"]).filter fun c => !c.parentIsA ["Mapping"]).flatMapM fun c => do
    let n := c.node
    let key ← unnamedPart? f (n.field? "keyType") (n.text "keyName") fun _ => false
    let value ← unnamedPart? f (n.field? "valueType") (n.text "valueName") (·.kind == "Mapping")
    return key ++ value

def privateVarsLeadingUnderscoreInfo : Info where
  id := "private-vars-leading-underscore"
  category := naming
  data := .map [("strict", .bool false)]
  description := "Non-external functions and state variables should start with a single " ++
    "underscore. Others, shouldn't"
  page := "naming"
  options := [⟨"A JSON object with a single property \"strict\" specifying if the rule should " ++
      "apply to ALL non state variables. Default: \x7b strict: false \x7d.",
    "\x7b\"strict\":false\x7d"⟩]
  good := [⟨"Internal function with correct naming",
      "function _thisIsInternal() internal \x7b\x7d"⟩,
    ⟨"Private function with correct naming", "function _thisIsPrivate() private \x7b\x7d"⟩,
    ⟨"Internal state variable with correct naming",
      "uint256 internal _thisIsInternalVariable;"⟩,
    ⟨"Internal state variable with correct naming (no visibility is considered internal)",
      "uint256 _thisIsInternalVariable;"⟩]
  bad := [⟨"Internal function with incorrect naming",
      "function thisIsInternal() internal \x7b\x7d"⟩,
    ⟨"Private function with incorrect naming", "function thisIsPrivate() private \x7b\x7d"⟩,
    ⟨"Internal state variable with incorrect naming",
      "uint256 internal thisIsInternalVariable;"⟩,
    ⟨"Internal state variable with incorrect naming (no visibility is considered internal)",
      "uint256 thisIsInternalVariable;"⟩]

/-- Is a declaration with the visibility private, internal or without one? -/
def isPrivate (visibility : String) : Bool := ["", "private", "internal"].contains visibility

/-- An underscore in front belongs to what is private, and to nothing else. -/
def underscoreFinding (f : SourceFile) (n : Node) (missing extra visibility : String) :
    List Finding :=
  match isPrivate visibility, hasFront "_" n.name with
  | true, false => [f.findingAtName n missing]
  | false, true => [f.findingAtName n extra]
  | _, _ => []

/-- What the rule says of a private variable without an underscore. -/
def bareVariable : String := "Private and internal variables must start with a single underscore"

/-- What it says of a function. -/
def bareFunction : String :=
  "Private and internal function names must start with a single underscore"

/-- What it says of another variable with an underscore. -/
def markedVariable : String :=
  "Only private and internal variables must start with a single underscore"

/-- Parameters and return values of a function without an underscore. -/
def bareValues (f : SourceFile) (n : Node) : List Finding :=
  ((n.parameters "parameters" ++ n.parameters "returnParameters").filter fun v =>
    v.name != "" && !hasFront "_" v.name).map (f.findingAtName · bareVariable)

/-- Is the node a function that the rule looks at? -/
def isPlainFunction (n : Node) : Bool := n.name != "" && n.text "kind" == "function"

/-- Is the node a variable that the rule looks at? -/
def isMutableState (n : Node) : Bool :=
  n.kind == "VariableDeclaration" && n.flag "stateVariable" && !n.isConstant

/-- Functions and state variables whose name does not fit their visibility; in strict mode also
parameters and return values without an underscore. -/
def privateVarsLeadingUnderscore (strict : Bool) (f : SourceFile) : List Finding :=
  f.nodes.flatMap fun c =>
    let n := c.node
    if n.kind == "FunctionDefinition" then
      (if strict then bareValues f n else [])
        ++ if isPlainFunction n then
            underscoreFinding f n bareFunction bareFunction (f.explicitVisibility n)
          else []
    else if isMutableState n then
      underscoreFinding f n bareVariable markedVariable (f.explicitVisibility n)
    else []

/-- `privateVarsLeadingUnderscore` as a reading. -/
def privateVarsLeadingUnderscore? (strict : Bool) (f : SourceFile) : Option (List Finding) :=
  f.nodes.flatMapM fun c => do
    let n := c.node
    if n.kind == "FunctionDefinition" then
      let values := if strict then bareValues f n else []
      if isPlainFunction n then
        return values ++ underscoreFinding f n bareFunction bareFunction (← f.explicitVisibility? n)
      else return values
    else if isMutableState n then
      return underscoreFinding f n bareVariable markedVariable (← f.explicitVisibility? n)
    else return []

def useForbiddenNameInfo : Info where
  id := "use-forbidden-name"
  category := naming
  description := "Avoid to use letters 'I', 'l', 'O' as identifiers."
  page := "naming"
  bad := [⟨"Single letter that reads as a digit", "uint256 l = 1;"⟩]

/-- Variables whose name is a letter that reads as a digit. -/
def useForbiddenName (f : SourceFile) : List Finding :=
  namesThat f (fun n => ["I", "l", "O"].contains n.name)
    "Avoid to use letters 'I', 'l', 'O' as identifiers" (f.ofKinds ["VariableDeclaration"])

def varNameMixedcaseInfo : Info where
  id := "var-name-mixedcase"
  category := naming
  description := "Variable name must be in mixedCase. (Does not check IMMUTABLES or constants)"
  page := "naming"

/-- Variables that can change, with an underscore inside their name. -/
def varNameMixedcase (f : SourceFile) : List Finding :=
  namesThat f (fun n => !n.isConstant && !n.isImmutable && hasInnerUnderscore n.name)
    "Variable should be in mixedCase" (f.ofKinds ["VariableDeclaration"])

/-- The rules of this category. -/
def namingSpecs : List RuleSpec := [
  constNameSnakecaseInfo.spec constNameSnakecase,
  contractNameCamelcaseInfo.spec contractNameCamelcase,
  eventNameCamelcaseInfo.spec eventNameCamelcase,
  foundryTestFunctionsInfo.readingOf (textsOption ["setUp"]) foundryTestFunctions?,
  funcNameMixedcaseInfo.spec funcNameMixedcase,
  funcParamNameMixedcaseInfo.spec funcParamNameMixedcase,
  modifierNameMixedcaseInfo.spec modifierNameMixedcase,
  namedParametersMappingInfo.reading namedParametersMapping?,
  privateVarsLeadingUnderscoreInfo.readingOf (flagOption "strict" false)
    privateVarsLeadingUnderscore?,
  useForbiddenNameInfo.spec useForbiddenName,
  varNameMixedcaseInfo.spec varNameMixedcase]

end Rules

end SolidityLint
