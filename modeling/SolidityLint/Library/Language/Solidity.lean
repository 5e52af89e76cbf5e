import SolidityLint.Text.Case
import SolidityLint.Text.Space
import SolidityLint.Text.Utf8

/-!
# Language — is a file Solidity?

The extension `.sol` belongs to Solidity and to a format for circuit boards.  A file with it counts
as Solidity when it is blank or holds something that only Solidity begins with: a pragma, a licence
mark, a declaration at the start of a line, or a comment in front.

Only Solidity is told apart by content.  Of the other languages there are those with an extension
for themselves (`byExtension`).  Left out are the languages that share an extension, those told by
the name of a file, its first line or a mark for editors, and the guesses by statistics: for such a
file `detect` gives no language.
-/

namespace SolidityLint

namespace Language

/-- White space of a line pattern: blank, tab, line feed, form feed, carriage return. -/
def isGap (c : Char) : Bool := c == ' ' || c == '\t' || c == '\n' || c == '\x0c' || c == '\r'

/-- The text from each start of a line on. -/
def fromLineStarts (cs : List Char) : List (List Char) :=
  cs :: go cs
where
  go : List Char → List (List Char)
    | [] => []
    | '\n' :: rest => rest :: go rest
    | _ :: rest => go rest

/-- What follows a word at the front of a text. -/
def afterWord? (word : String) (cs : List Char) : Option (List Char) :=
  if word.toList.isPrefixOf cs then some (cs.drop word.length) else none

/-- What follows at least one gap. -/
def afterGap? : List Char → Option (List Char)
  | c :: cs => if isGap c then some (cs.dropWhile isGap) else none
  | [] => none

/-- The pragmas of Solidity. -/
def pragmas : List String := ["solidity", "abicoder", "experimental"]

/-- Does the text begin with a pragma of Solidity? -/
def startsPragma (cs : List Char) : Bool :=
  match (afterWord? "pragma" (cs.dropWhile isGap)).bind afterGap? with
  | none => false
  | some rest => pragmas.any fun w =>
    match afterWord? w rest with
    | none => false
    | some rest => !(rest.head?.any isWordChar)

/-- The words that declarations begin with. -/
def declarationWords : List String :=
  ["contract", "interface", "library", "import", "function", "struct", "enum", "error", "event",
    "using", "type"]

/-- May the character stand at the front of what is declared? -/
def startsDeclared (c : Char) : Bool :=
  c.isAlpha || c == '_' || c == '\x7b' || c == '"' || c == '\'' || c == '*' || c == '$'

/-- Does the text begin with a declaration? -/
def startsDeclaration (cs : List Char) : Bool :=
  let cs := cs.dropWhile isGap
  let afterAbstract := ((afterWord? "abstract" cs).bind afterGap?).bind (afterWord? "contract")
  let ends := afterAbstract.toList ++ declarationWords.filterMap (afterWord? · cs)
  ends.any fun rest =>
    match afterGap? rest with
    | some (c :: _) => startsDeclared c
    | _ => false

/-- Does the text begin with a comment? -/
def startsComment (cs : List Char) : Bool :=
  match cs.dropWhile isGap with
  | '/' :: '/' :: _ | '/' :: '*' :: _ => true
  | _ => false

/-- Does the text hold something that only Solidity begins with? -/
def looksLikeSolidity (cs : List Char) : Bool :=
  hasInfix "SPDX-License-Identifier:".toList cs || startsComment cs
    || (fromLineStarts cs).any fun line => startsPragma line || startsDeclaration line

/-- Does the path have the extension of Solidity? -/
def hasSolidityExtension (path : String) : Bool := hasBack ".sol" (lowerCase path)

/-- Is a file with the path and the content Solidity? -/
def isSolidity (path : String) (content : ByteArray) : Bool :=
  hasSolidityExtension path &&
    let cs := (textOfBytes content).toList
    cs.all isSpace || looksLikeSolidity cs

/-- Languages that have an extension for themselves: some of them, not all. -/
def byExtension : List (String × String) :=
  [(".bat", "Batchfile"), (".c", "C"), (".clj", "Clojure"), (".coffee", "CoffeeScript"),
    (".cpp", "C++"), (".css", "CSS"), (".csv", "CSV"), (".dart", "Dart"), (".elm", "Elm"),
    (".erb", "HTML+ERB"), (".go", "Go"), (".groovy", "Groovy"), (".hs", "Haskell"),
    (".java", "Java"), (".jl", "Julia"), (".js", "JavaScript"), (".jsx", "JavaScript"),
    (".kt", "Kotlin"), (".less", "Less"), (".lua", "Lua"), (".mjs", "JavaScript"),
    (".proto", "Protocol Buffer"), (".py", "Python"), (".rb", "Ruby"), (".scala", "Scala"),
    (".scss", "SCSS"), (".sh", "Shell"), (".swift", "Swift"), (".toml", "TOML"),
    (".tsx", "TSX"), (".vue", "Vue"), (".vy", "Vyper"), (".zig", "Zig")]

/-- The texts from each dot of a path on. -/
def fromDots : List Char → List (List Char)
  | [] => []
  | '.' :: rest => ('.' :: rest) :: fromDots rest
  | _ :: rest => fromDots rest

/-- The language of a file; empty when it is not one of those known here. -/
def detect (path : String) (content : ByteArray) : String :=
  if hasSolidityExtension path && looksLikeSolidity (textOfBytes content).toList then "Solidity"
  else ((fromDots (lowerCase path).toList).findSome? fun ext =>
    byExtension.lookup (String.ofList ext)).getD ""

end Language

end SolidityLint
