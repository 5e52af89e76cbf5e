import SolidityLint.Library.Yaml.Node

/-!
# Yaml — writing

Collections are written in block style, two columns for each level, and empty ones as `[]` and
`{}`.  A string of several lines is a literal block where it can be one; another string stands
without quotes if it reads back as that string, and otherwise in the plainest quotes that hold it.
Maps are written in an order in which numbers inside keys count as numbers.
-/

namespace SolidityLint

namespace Yaml

/-! ### Strings -/

/-- Can the character stand in a text without an escape? -/
def isShown (c : Char) : Bool :=
  let n := c.toNat
  n == 0x0A || (0x20 ≤ n && n ≤ 0x7E) || (0xA0 ≤ n && n ≤ 0xD7FF)
    || (0xE000 ≤ n && n ≤ 0xFFFD && n != 0xFEFF)

/-- A line break. -/
def isBreak (c : Char) : Bool :=
  c == '\n' || c == '\r' || c == '\u0085' || c == '\u2028' || c == '\u2029'

/-- Do two neighbours satisfy the test? -/
def hasPair (p : Char → Char → Bool) : List Char → Bool
  | a :: b :: cs => p a b || hasPair p (b :: cs)
  | _ => false

/-- Does the text hold something that means structure in block collections? -/
def hasIndicators (cs : List Char) : Bool :=
  let blankNext (rest : List Char) : Bool := rest.head?.all isBlankChar
  let start := match cs with
    | [] => false
    | c :: rest => "#,[]\x7b\x7d&*!|>'\"%@\x60".contains c
        || ((c == '?' || c == ':' || c == '-') && blankNext rest)
  start || (afterMarks cs) || colon cs || hasPair (fun a b => isBlankChar a && b == '#') cs
where
  isBlankChar (c : Char) : Bool := c == ' ' || c == '\t'
  afterMarks (cs : List Char) : Bool := ['-', '-', '-'].isPrefixOf cs || ['.', '.', '.'].isPrefixOf cs
  colon : List Char → Bool
    | [] => false
    | [c] => c == ':'
    | c :: d :: cs => (c == ':' && isBlankChar d) || colon (d :: cs)

/-- How a string is written. -/
inductive StringStyle where
  | bare | single | double | literal
deriving DecidableEq, Repr

/-- Words that older readers take for truth values. -/
def isOldBool (s : String) : Bool :=
  ["y", "Y", "yes", "Yes", "YES", "on", "On", "ON", "n", "N", "no", "No", "NO", "off", "Off",
    "OFF"].contains s

/-- Groups of digits behind colons, which older readers take for a number in base 60. -/
def isSixtyTail : List Char → Bool
  | ':' :: a :: b :: cs =>
    (a.isDigit && b.isDigit && a < '6' && isSixtyTail' cs) || (a.isDigit && isSixtyTail' (b :: cs))
  | [':', a] => a.isDigit
  | _ => false
where
  /-- What may follow a group. -/
  isSixtyTail' : List Char → Bool
    | [] => true
    | '.' :: cs => cs.all fun c => c.isDigit || c == '_'
    | ':' :: a :: b :: cs =>
      (a.isDigit && b.isDigit && a < '6' && isSixtyTail' cs) || (a.isDigit && isSixtyTail' (b :: cs))
    | [':', a] => a.isDigit
    | _ => false

/-- Would older readers take the text for a number in base 60? -/
def isSixty (s : String) : Bool :=
  match Scalar.unsigned s.toList with
  | c :: cs => c.isDigit && isSixtyTail (cs.dropWhile fun c => c.isDigit || c == '_')
  | [] => false

/-- The style of a string. -/
def styleOf (s : String) : StringStyle :=
  let cs := s.toList
  let edge (p : Char → Bool) : Bool := cs.head?.any p || cs.getLast?.any p
  let escaped := cs.any fun c => !isShown c && c != '\t'
  let spaceBreak := hasPair (fun a b => a == ' ' && isBreak b) cs
  let breakSpace := hasPair (fun a b => isBreak a && b == ' ') cs
  let quotable := !(spaceBreak || breakSpace || escaped || cs.contains '\t')
  if cs.contains '\n' then
    if cs.getLast? == some ' ' || spaceBreak || escaped then .double else .literal
  else if !(Scalar.isString s) || isOldBool s || isSixty s then .double
  else if quotable && !edge (fun c => c == ' ' || isBreak c) && !cs.any isBreak && !hasIndicators cs then
    .bare
  else if quotable then .single
  else .double

/-- The hexadecimal digits of a number. -/
def hexDigits (width n : Nat) : List Char :=
  let ds := (Nat.toDigits 16 n).map Char.toUpper
  List.replicate (width - ds.length) '0' ++ ds

/-- A character in double quotes. -/
def escapeChar (c : Char) : List Char :=
  if isShown c && !isBreak c && c != '"' && c != '\\' then [c]
  else '\\' :: match c with
    | '\x00' => ['0']
    | '\x07' => ['a']
    | '\x08' => ['b']
    | '\t' => ['t']
    | '\n' => ['n']
    | '\x0b' => ['v']
    | '\x0c' => ['f']
    | '\r' => ['r']
    | '\x1b' => ['e']
    | '"' => ['"']
    | '\\' => ['\\']
    | '\u0085' => ['N']
    | '\u00A0' => ['_']
    | '\u2028' => ['L']
    | '\u2029' => ['P']
    | c =>
      if c.toNat ≤ 0xFF then 'x' :: hexDigits 2 c.toNat
      else if c.toNat ≤ 0xFFFF then 'u' :: hexDigits 4 c.toNat
      else 'U' :: hexDigits 8 c.toNat

/-- A string in double quotes. -/
def doubleQuoted (s : String) : String :=
  "\"" ++ String.ofList (s.toList.flatMap escapeChar) ++ "\""

/-- A string in single quotes. -/
def singleQuoted (s : String) : String :=
  "'" ++ String.ofList (s.toList.flatMap fun c => if c == '\'' then ['\'', '\''] else [c]) ++ "'"

/-- The mark of a literal block: whether its indentation has to be told, and what becomes of line
breaks at its end. -/
def literalMark (cs : List Char) : String :=
  let indent := if cs.head?.any fun c => c == ' ' || isBreak c then "2" else ""
  let chomp := match cs.reverse with
    | a :: rest =>
      if !isBreak a then "-"
      else match rest with
        | [] => "+"
        | b :: _ => if isBreak b then "+" else ""
    | [] => "-"
  "|" ++ indent ++ chomp

/-- The lines of a string that is a literal block. -/
def literalLines (cs : List Char) : List String :=
  let ls := (splitAtChar '\n' cs).map String.ofList
  if cs.getLast? == some '\n' then ls.dropLast else ls

/-! ### Order of keys -/

/-- Is the character a letter? -/
def isLetter (c : Char) : Bool := c.isAlpha || 0xAA ≤ c.toNat

/-- The number that leading digits write on top of `n`, and how many digits there are. -/
def runNumber (n : Nat) (cs : List Char) : Nat × Nat :=
  let ds := cs.takeWhile Char.isDigit
  (ds.foldl (fun n c => n * 10 + (c.toNat - '0'.toNat)) n, ds.length)

/-- Does the first key come before the second?  Runs of digits are compared as numbers; `before` is
what the keys have in common so far, last first. -/
def keyBefore (before : List Char) : List Char → List Char → Bool
  | a :: as, b :: bs =>
    if a == b then keyBefore (a :: before) as bs
    else
      let digits := before.head?.any Char.isDigit
      if isLetter a && isLetter b then a < b
      else if isLetter a || isLetter b then if digits then isLetter a else isLetter b
      else
        let start := if (a == '0' || b == '0') && (before.takeWhile Char.isDigit).any (· != '0') then 1
          else 0
        let (m, i) := runNumber start (a :: as)
        let (n, j) := runNumber start (b :: bs)
        if m != n then m < n else if i != j then i < j else a < b
  | [], _ :: _ => true
  | _, [] => false

/-- The place of a kind of key among the others. -/
def keyRank : Data → Nat
  | .bool _ => 1
  | .int _ => 2
  | .float _ => 14
  | .null => 20
  | .str _ => 24
  | _ => 25

/-- Does the first key come before the second? -/
def dataBefore : Data → Data → Bool
  | .str a, .str b => keyBefore [] a.toList b.toList
  | .int a, .int b => a < b
  | .bool a, .bool b => !a && b
  | .bool a, .int b => (if a then 1 else 0) < b || ((if a then (1 : Int) else 0) == b)
  | .int a, .bool b => a < (if b then 1 else 0)
  | a, b => keyRank a < keyRank b

/-! ### From data to text -/

mutual

/-- The tree of data, with maps in order. -/
def Node.ofData : Data → Node
  | .null => .scalar "" true "null"
  | .bool b => .scalar "" true (if b then "true" else "false")
  | .int n => .scalar "" true (toString n)
  | .float .nan => .scalar "" true ".nan"
  | .float (.infinity negative) => .scalar "" true (if negative then "-.inf" else ".inf")
  | .float x => .scalar "" true ((x.render? Binary64.yamlNotation).getD "")
  | .str s => .scalar "" false s
  | .time t => .scalar "" true t
  | .list items => .seq (ofItems items)
  | .map entries =>
    .map (((ofEntries entries).mergeSort fun a b => !keyBefore [] b.1.toList a.1.toList).map
      fun (k, n) => (.scalar "" false k, n))
  | .anyMap entries =>
    .map (((ofPairs entries).mergeSort fun a b => !dataBefore b.1 a.1).map fun (_, k, n) => (k, n))

/-- Item by item. -/
def Node.ofItems : List Data → List Node
  | [] => []
  | d :: ds => Node.ofData d :: ofItems ds

/-- Entry by entry. -/
def Node.ofEntries : List (String × Data) → List (String × Node)
  | [] => []
  | (k, d) :: ds => (k, Node.ofData d) :: ofEntries ds

/-- Entry by entry, with the tree of each key. -/
def Node.ofPairs : List (Data × Data) → List (Data × Node × Node)
  | [] => []
  | (k, d) :: ds => (k, Node.ofData k, Node.ofData d) :: ofPairs ds

end

/-- Indents the lines that are not empty. -/
def indented (ls : List String) : List String := ls.map fun l => if l == "" then "" else "  " ++ l


/-- A scalar: its first line, and those of a literal block, which are to be indented. -/
def scalarLines (plain : Bool) (text : String) : List String :=
  if plain then [text]
  else match styleOf text with
    | .bare => [text]
    | .single => [singleQuoted text]
    | .double => [doubleQuoted text]
    | .literal => literalMark text.toList :: indented (literalLines text.toList)

/-- Does a node stand behind its key or mark on the same line? -/
def isInline : Node → Bool
  | .scalar .. | .seq [] | .map [] => true
  | _ => false

/-- Can the node be a key without a mark of its own? -/
def isSimpleKey : Node → Bool
  | .scalar _ _ text => text.utf8ByteSize ≤ 128 && !text.toList.any isBreak
  | _ => false

/-- The lines of a node behind a mark: those of a collection are indented, and a literal block is
already. -/
def behind (mark : String) (n : Node) : List String → List String
  | [] => [mark]
  | l :: ls => (mark ++ " " ++ l) :: match n with
    | .scalar .. => ls
    | _ => indented ls

mutual

/-- The lines of a node. -/
def nodeLines : Node → List String
  | .scalar _ plain text => scalarLines plain text
  | .seq [] => ["[]"]
  | .map [] => ["\x7b\x7d"]
  | .seq items => itemLines items
  | .map entries => entryLines entries

/-- Item by item. -/
def itemLines : List Node → List String
  | [] => []
  | n :: ns => behind "-" n (nodeLines n) ++ itemLines ns

/-- Entry by entry. -/
def entryLines : List (Node × Node) → List String
  | [] => []
  | (k, v) :: rest =>
    let value := nodeLines v
    (if isSimpleKey k then
      let key := (nodeLines k).headD ""
      if isInline v then match value with
        | l :: ls => (key ++ ": " ++ l) :: ls
        | [] => [key ++ ":"]
      else (key ++ ":") :: indented value
    else behind "?" k (nodeLines k) ++ behind ":" v value) ++ entryLines rest

end

/-- The text of a document. -/
def render (root : Node) : String := String.join ((nodeLines root).map (· ++ "\n"))

end Yaml

end SolidityLint
