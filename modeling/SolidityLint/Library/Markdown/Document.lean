import SolidityLint.Library.Markdown.Line

/-!
# Markdown — documents

A document is a list of blocks.  The text of a block still has its marks in it; lines are divided
by line breaks.
-/

namespace SolidityLint

namespace Markdown

/-- How the cells of a column stand. -/
inductive Alignment where
  | unset | left | right | center
deriving DecidableEq, Repr

/-- A cell of a table. -/
structure Cell where
  alignment : Alignment := .unset
  text : List Char := []
deriving DecidableEq, Repr

/-- A block. -/
inductive Block where
  | paragraph (text : List Char)
  /-- A paragraph of a list whose items stand close together. -/
  | bare (text : List Char)
  | heading (level : Nat) (text : List Char)
  | rule
  | code (language : Option (List Char)) (lines : List (List Char))
  /-- Markup; `closed` when a line of its own ends it. -/
  | markup (closed : Bool)
  | quote (blocks : List Block)
  /-- A list; one with numbers has a first one. -/
  | list (start : Option Nat) (items : List (List Block))
  | table (header : List Cell) (rows : List (List Cell))
deriving Repr, Inhabited

/-- A paragraph as it stands in a list whose items stand close together. -/
def Block.tighten : Block → Block
  | .paragraph text => .bare text
  | b => b

/-! ### Tables -/

/-- Can the line divide the header of a table from its rows? -/
def isDivider (cs : List Char) : Bool :=
  indentFrom 0 cs ≤ 3 && cs.all fun c => isBlankChar c || c == '-' || c == '|' || c == ':'

/-- The alignment that a column of the divider gives. -/
def alignment? (cs : List Char) : Option Alignment :=
  let cs := trim cs
  let dashes := trimBoth (· == ':') cs
  if dashes.isEmpty || !dashes.all (· == '-') then none
  else match cs.length - dashes.length, cs.head? == some ':' with
    | 0, _ => some .unset
    | 1, true => some .left
    | 1, false => some .right
    | 2, _ => if cs.head? == some ':' && cs.getLast? == some ':' then some .center else none
    | _, _ => none

/-- The alignments of the columns, if the line is a divider. -/
def alignments? (cs : List Char) : Option (List Alignment) :=
  if !isDivider cs then none
  else
    let columns := splitAtChar '|' cs
    let columns := if (columns.head?.map (·.all isBlankChar)).getD false then columns.drop 1 else columns
    let columns := if (columns.getLast?.map (·.all isBlankChar)).getD false then columns.dropLast
      else columns
    if columns.isEmpty then none else columns.mapM alignment?

/-- Splits a row at the bars that no backslash stands before; `cell` is being read, last character
first. -/
def splitRow : List Char → List Char → List (List Char)
  | [], cell => if cell.isEmpty then [] else [cell.reverse]
  | c :: cs, cell =>
    if c == '|' && cell.head? != some '\\' then cell.reverse :: splitRow cs []
    else splitRow cs (c :: cell)

/-- The texts of the cells of a row. -/
def cellTexts (cs : List Char) : List (List Char) :=
  let cs := trim cs
  let front := if cs.head? == some '|' then cs.drop 1 else cs
  let inner := if cs.getLast? == some '|' then front.dropLast else front
  (splitRow inner []).map trim

/-- The cells of a row: as many as there are columns. -/
def rowCells (columns : List Alignment) (cs : List Char) : List Cell :=
  let texts := cellTexts cs
  (columns.zip texts).map (fun (a, t) => ⟨a, t⟩)
    ++ List.replicate (columns.length - texts.length) ({} : Cell)

/-- The first divider of some lines: the lines before the header, the header, the alignments and the
rows. -/
def dividerIn? (before : List (List Char)) :
    List (List Char) → Option (List (List Char) × List Char × List Alignment × List (List Char))
  | header :: divider :: rest =>
    match alignments? divider with
    | some columns => some (before.reverse, header, columns, rest)
    | none => dividerIn? (header :: before) (divider :: rest)
  | _ => none

/-- The table in some lines of a paragraph, and the lines before it. -/
def tableIn? (lines : List (List Char)) : Option (List (List Char) × Block) := do
  let (before, header, columns, rows) ← dividerIn? [] lines
  let head := cellTexts header
  if head.length = columns.length then
    some (before, .table (rowCells columns header) (rows.map (rowCells columns)))
  else none

end Markdown

end SolidityLint
