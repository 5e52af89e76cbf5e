import SolidityLint.Library.Markdown.Line
import SolidityLint.Library.Text.Fold
import SolidityLint.Library.Text.Punctuation

/-!
# Markdown — the parts of links

A link has a destination and perhaps a title; both may be given elsewhere under a label.
-/

namespace SolidityLint

namespace Markdown

/-- Where a link leads, as it is written. -/
structure Target where
  destination : List Char
  title : Option (List Char) := none
deriving DecidableEq, Repr

/-- The text up to a closing character that no backslash stands before, and what is behind it; an
opening character in between is refused. -/
def upToClosing? (opening closing : Char) : List Char → Option (List Char × List Char)
  | [] => none
  | '\\' :: c :: cs =>
    if isAsciiPunctuation c then
      (upToClosing? opening closing cs).map fun (text, rest) => ('\\' :: c :: text, rest)
    else (upToClosing? opening closing (c :: cs)).map fun (text, rest) => ('\\' :: text, rest)
  | c :: cs =>
    if c == closing then some ([], cs)
    else if c == opening then none
    else (upToClosing? opening closing cs).map fun (text, rest) => (c :: text, rest)

/-- The destination between angle brackets, behind the first of them. -/
def bracketed? : List Char → Option (List Char × List Char)
  | [] => none
  | '\\' :: c :: cs =>
    if isAsciiPunctuation c then (bracketed? cs).map fun (text, rest) => ('\\' :: c :: text, rest)
    else (bracketed? (c :: cs)).map fun (text, rest) => ('\\' :: text, rest)
  | c :: cs =>
    if c == '>' then some ([], cs)
    else if c == '\n' then none
    else (bracketed? cs).map fun (text, rest) => (c :: text, rest)

/-- The destination up to white space or a parenthesis that closes more than was opened, and the
rest. -/
def plainDestination (depth : Nat) : List Char → List Char × List Char
  | [] => ([], [])
  | '\\' :: c :: cs =>
    if isAsciiPunctuation c then
      let (text, rest) := plainDestination depth cs
      ('\\' :: c :: text, rest)
    else
      let (text, rest) := plainDestination depth (c :: cs)
      ('\\' :: text, rest)
  | c :: cs =>
    let go (depth : Nat) : List Char × List Char :=
      let (text, rest) := plainDestination depth cs
      (c :: text, rest)
    if isBlankChar c then ([], c :: cs)
    else if c == '(' then go (depth + 1)
    else if c == ')' then if depth = 0 then ([], c :: cs) else go (depth - 1)
    else go depth

/-- The destination at the front, and the rest. -/
def destination? : List Char → Option (List Char × List Char)
  | '<' :: cs => bracketed? cs
  | cs => match plainDestination 0 cs with
    | ([], _) => none
    | out => some out

/-- The title at the front, and the rest. -/
def title? : List Char → Option (List Char × List Char)
  | '"' :: cs => upToClosing? '"' '"' cs
  | '\'' :: cs => upToClosing? '\'' '\'' cs
  | '(' :: cs => upToClosing? '(' ')' cs
  | _ => none

/-- The target between parentheses, behind the first of them, and the rest. -/
def target? (cs : List Char) : Option (Target × List Char) :=
  match cs.dropWhile isBlankChar with
  | ')' :: rest => some (⟨[], none⟩, rest)
  | cs => do
    let (destination, rest) ← destination? cs
    match rest.dropWhile isBlankChar with
    | ')' :: rest => some (⟨destination, none⟩, rest)
    | cs =>
      let (title, rest) ← title? cs
      match rest.dropWhile isBlankChar with
      | ')' :: rest => some (⟨destination, some title⟩, rest)
      | _ => none

/-! ### Labels and definitions -/

/-- Runs of white space made one blank. -/
def collapse : List Char → List Char
  | [] => []
  | c :: cs =>
    if isBlankChar c then
      match cs with
      | d :: _ => if isBlankChar d then collapse cs else ' ' :: collapse cs
      | [] => [' ']
    else c :: collapse cs

/-- What of a label counts. -/
def normalLabel (cs : List Char) : List Char := foldCase (collapse (trim cs))

/-- The targets by label, the last first; of two under one label the first counts. -/
abbrev Targets := List (List Char × Target)

/-- The longest label, in bytes. -/
def maxLabel : Nat := 999

/-- The target of a label. -/
def Targets.find? (ts : Targets) (label : List Char) : Option Target :=
  if maxLabel < (String.ofList label).utf8ByteSize then none else ts.lookup (normalLabel label)

/-- Adds the target of a label that has none. -/
def Targets.add (ts : Targets) (label : List Char) (t : Target) : Targets :=
  let label := normalLabel label
  if ts.any (·.1 == label) then ts else (label, t) :: ts

/-- The rest of the line is blank. -/
def atLineEnd (cs : List Char) : Bool := (cs.takeWhile (· != '\n')).all isBlankChar

/-- What is behind the end of the line. -/
def nextLine (cs : List Char) : List Char := (cs.dropWhile (· != '\n')).drop 1

/-- The definition of a label at the front, and the lines behind it. -/
def definition? (cs : List Char) : Option ((List Char × Target) × List Char) :=
  match cs.dropWhile isBlankChar with
  | '[' :: cs => do
    let (label, rest) ← upToClosing? '[' ']' cs
    match rest with
    | ':' :: rest =>
      if label.all isBlankChar then none
      else
        let (destination, rest) ← destination? (rest.dropWhile isBlankChar)
        let untitled := if atLineEnd rest then
            some ((label, ⟨destination, none⟩), nextLine rest) else none
        let start := rest.dropWhile isBlankChar
        match start with
        | c :: _ =>
          if c != '"' && c != '\'' && c != '(' then untitled
          else if start.length = rest.length then none
          else match title? start with
            | none => untitled
            | some (title, rest) =>
              if atLineEnd rest then some ((label, ⟨destination, some title⟩), nextLine rest)
              else untitled
        | [] => untitled
    | _ => none
  | _ => none

/-- The definitions at the front of a paragraph, and the lines that are left; `most` bounds their
number. -/
def definitions : Nat → Targets → List Char → Targets × List Char
  | 0, ts, cs => (ts, cs)
  | most + 1, ts, cs =>
    match definition? cs with
    | some ((label, target), rest) => definitions most (ts.add label target) rest
    | none => (ts, cs)

end Markdown

end SolidityLint
