import SolidityLint.Source.File

/-!
# Source — declaration headers

Between the parameters of a function and its body, and between the type of a variable and its
name, stand the words that the tree does not record faithfully: the compiler fills in a visibility
that the source may not have written.  `SourceFile.headerWords` reads the words of that stretch
outside parentheses, after comments and string literals have been blanked out.
-/

namespace SolidityLint

/-- A word of a header and where it stands. -/
structure Word where
  text : String
  span : Span
deriving Repr, DecidableEq

/-- The keywords that say from where a declaration can be used. -/
def visibilityKeywords : List String := ["public", "private", "internal", "external"]

/-- Is the word a visibility keyword? -/
def isVisibility (word : String) : Bool := visibilityKeywords.contains word

namespace Header

def slash : UInt8 := 0x2F
def star : UInt8 := 0x2A
def backslash : UInt8 := 0x5C
def space : UInt8 := 0x20

/-! ### Comments and strings -/

/-- The length of a block comment after its opening, up to and with its end. -/
def blockEnd? : List UInt8 → Option Nat
  | a :: b :: rest =>
    if a == star && b == slash then some 2 else (blockEnd? (b :: rest)).map (· + 1)
  | _ => none

/-- The length of the comment that starts here, if one does. -/
def commentLength? : List UInt8 → Option Nat
  | a :: b :: rest =>
    if a == slash && b == slash then some (2 + (rest.takeWhile (· != newline)).length)
    else if a == slash && b == star then (blockEnd? rest).map (· + 2)
    else none
  | _ => none

/-- The length of a string literal after its opening quote, up to and with the closing one.  A
backslash takes the character after it along, unless that ends the line. -/
def stringEnd? (quote : UInt8) : List UInt8 → Option Nat
  | [] => none
  | a :: rest =>
    if a == quote then some 1
    else if a == backslash then
      match rest with
      | b :: rest => if b == newline then none else (stringEnd? quote rest).map (· + 2)
      | [] => none
    else (stringEnd? quote rest).map (· + 1)

/-- The length of the string literal that starts here, if one does. -/
def stringLength? : List UInt8 → Option Nat
  | [] => none
  | a :: rest => if a == 0x22 || a == 0x27 then (stringEnd? a rest).map (· + 1) else none

/-- Overwrites with blanks every stretch that `length?` finds, from left to right. -/
def blankOut (length? : List UInt8 → Option Nat) (bytes : List UInt8) : List UInt8 :=
  go bytes 0
where
  /-- `hidden` counts the bytes at the front that belong to the last stretch found. -/
  go : List UInt8 → Nat → List UInt8
    | [], _ => []
    | _ :: rest, hidden + 1 => space :: go rest hidden
    | b :: rest, 0 =>
      match length? (b :: rest) with
      | some (n + 1) => space :: go rest n
      | _ => b :: go rest 0

/-! ### Words -/

/-- Can the byte start a word? -/
def startsWord (b : UInt8) : Bool :=
  (0x41 ≤ b && b ≤ 0x5A) || (0x61 ≤ b && b ≤ 0x7A) || b == 0x5F || b == 0x24

/-- Can the byte continue a word? -/
def continuesWord (b : UInt8) : Bool := startsWord b || (0x30 ≤ b && b ≤ 0x39)

/-- The words outside parentheses with their offsets.  `depth` counts the open parentheses,
`word` is the word being read, last byte first. -/
def words : List UInt8 → Nat → Nat → List UInt8 → List (Nat × List UInt8)
  | [], i, depth, word => close i depth word
  | b :: rest, i, depth, word =>
    if word.isEmpty then
      if startsWord b then words rest (i + 1) depth [b]
      else words rest (i + 1) (step b depth) []
    else if continuesWord b then words rest (i + 1) depth (b :: word)
    else close i depth word ++ words rest (i + 1) (step b depth) []
where
  /-- The word that ends before offset `i`. -/
  close (i depth : Nat) (word : List UInt8) : List (Nat × List UInt8) :=
    if depth = 0 ∧ !word.isEmpty then [(i - word.length, word.reverse)] else []
  /-- The depth after a byte that is in no word. -/
  step (b : UInt8) (depth : Nat) : Nat :=
    if b == 0x28 then depth + 1 else if b == 0x29 then depth - 1 else depth

end Header

namespace SourceFile

/-- A bound of a header, by the place of a part if the part is there. -/
def boundBy (part : Option Node) (place : Span → Int64) (bound : Int64) : Int64 :=
  (part.map fun m => place m.src).getD bound

/-- Where the header of a declaration starts and stops: between the parameters or the type and the
body or the name.  A negative start stands for none. -/
def headerBounds (n : Node) : Int64 × Int64 :=
  let stopOf (key : String) : Int64 :=
    boundBy (n.field? key) (fun s => if s.isValid then s.stop else -1) (-1)
  if n.isA ["FunctionDefinition", "ModifierDefinition"] then
    let stop := boundBy (n.field? "body")
      (fun s => if s.isValid then s.offset else n.src.stop) n.src.stop
    let stop := boundBy (n.field? "returnParameters")
      (fun s => if s.length > 0 then min stop s.offset else stop) stop
    (stopOf "parameters", stop)
  else if n.kind == "VariableDeclaration" then
    let start := stopOf "typeName"
    let stop := n.nameSpan.offset
    (start, if stop < start then n.src.stop else stop)
  else (-1, -1)

/-- The stretch between two offsets in the file of a node. -/
def stretchBetween (n : Node) (start stop : Int64) : Span :=
  if start < 0 || stop < start then .none
  else { offset := start, length := stop - start, file := n.src.file }

/-- The stretch between the parameters or the type of a declaration and its body or name. -/
def headerSpan (n : Node) : Span := stretchBetween n (headerBounds n).1 (headerBounds n).2

/-- The words of a stretch of the source outside parentheses, in source order. -/
def wordsIn (f : SourceFile) (span : Span) : List Word :=
  if span.isValid then
    let bytes := Header.blankOut Header.stringLength?
      (Header.blankOut Header.commentLength? (f.slice span).toList)
    (Header.words bytes 0 0 []).map fun (i, word) =>
      { text := String.ofList (Utf8.decode word)
        span := ⟨span.offset + Int64.ofNat i, Int64.ofNat word.length, span.file⟩ }
  else []

/-- The words of a declaration's header outside parentheses, in source order. -/
def headerWords (f : SourceFile) (n : Node) : List Word := f.wordsIn (headerSpan n)

/-- The first visibility keyword among words, empty when there is none. -/
def visibilityAmong (ws : List Word) : String :=
  ((ws.find? fun w => isVisibility w.text).map (·.text)).getD ""

/-- The visibility written in the header, empty when there is none. -/
def explicitVisibility (f : SourceFile) (n : Node) : String := visibilityAmong (f.headerWords n)

/-! ### Reading parts that may be missing

A declaration may lack its parameters, its type or its body.  What is written here as a reading asks
whether a part is there before it reads the part, and has no result if it reads one that is not. -/

/-- `boundBy` as a reading. -/
def boundBy? (part : Option Node) (place : Span → Int64) (bound : Int64) : Option Int64 := do
  if part.isSome then return place (← part).src else return bound

/-- `headerBounds` as a reading. -/
def headerBounds? (n : Node) : Option (Int64 × Int64) := do
  let stopOf (key : String) : Option Int64 :=
    boundBy? (n.field? key) (fun s => if s.isValid then s.stop else -1) (-1)
  if n.isA ["FunctionDefinition", "ModifierDefinition"] then
    let start ← stopOf "parameters"
    let stop ← boundBy? (n.field? "body")
      (fun s => if s.isValid then s.offset else n.src.stop) n.src.stop
    let stop ← boundBy? (n.field? "returnParameters")
      (fun s => if s.length > 0 then min stop s.offset else stop) stop
    return (start, stop)
  else if n.kind == "VariableDeclaration" then
    let start ← stopOf "typeName"
    let stop := n.nameSpan.offset
    return (start, if stop < start then n.src.stop else stop)
  else return (-1, -1)

/-- `headerSpan` as a reading. -/
def headerSpan? (n : Node) : Option Span := do
  let (start, stop) ← headerBounds? n
  return stretchBetween n start stop

/-- `headerWords` as a reading. -/
def headerWords? (f : SourceFile) (n : Node) : Option (List Word) := do
  return f.wordsIn (← headerSpan? n)

/-- `explicitVisibility` as a reading. -/
def explicitVisibility? (f : SourceFile) (n : Node) : Option String := do
  return visibilityAmong (← f.headerWords? n)

end SourceFile

end SolidityLint
