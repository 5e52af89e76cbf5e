import SolidityLint.Library.Markdown.Document
import SolidityLint.Library.Markdown.Link
import SolidityLint.Library.Markdown.Tag

/-!
# Markdown — reading blocks

Lines are read one after the other.  At each moment some containers are open, one in the other, and
in the innermost perhaps a block of text.  A line first goes on with what is open, as far as it can;
its rest opens new blocks, or continues a paragraph even where its containers were not repeated.
-/

namespace SolidityLint

namespace Markdown

/-- A block that is complete. -/
structure Finished where
  /-- Did a blank line stand before it? -/
  apart : Bool
  block : Block

/-- An item that is complete. -/
structure Item where
  apart : Bool
  /-- Do blank lines divide its blocks? -/
  divided : Bool
  blocks : List Block

/-- A container that is open. -/
inductive Container where
  | quote
  /-- A list with its mark, the first number and the items so far, last first. -/
  | list (mark : Char) (start : Option Nat) (items : List Item)
  /-- An item; `width` is the indentation of its content. -/
  | item (width : Nat)

/-- An open container, and its finished blocks, last first. -/
structure Frame where
  container : Container
  apart : Bool
  finished : List Finished := []

/-- The marks that open code, by which it is closed again. -/
structure Fence where
  mark : Char
  length : Nat
  indent : Nat
  language : Option (List Char)

/-- Does the line close code between fences? -/
def Fence.isClosedBy (f : Fence) (line : Line) : Bool :=
  let marks := line.body.takeWhile (· == f.mark)
  line.indent ≤ 3 && f.length ≤ marks.length && (line.body.drop marks.length).all isBlankChar

/-- The block of text that is open.  Lines are collected last first. -/
inductive Leaf where
  | none
  | paragraph (apart : Bool) (lines : List (List Char))
  | indented (apart : Bool) (lines : List (List Char))
  | fenced (apart : Bool) (fence : Fence) (lines : List (List Char))
  | markup (apart : Bool) (ending : MarkupEnd)

def Leaf.isParagraph : Leaf → Bool
  | .paragraph .. => true
  | _ => false

/-- What has been read. -/
structure Reading where
  /-- The open containers, innermost first. -/
  frames : List Frame := []
  /-- The finished blocks of the document itself, last first. -/
  finished : List Finished := []
  leaf : Leaf := .none
  targets : Targets := []
  /-- Within how many containers the last line was blank. -/
  lastBlank : Option Nat := none

namespace Reading

/-! ### Finishing blocks -/

/-- Adds a finished block to the innermost container. -/
def add (r : Reading) (f : Finished) : Reading :=
  match r.frames with
  | frame :: rest => { r with frames := { frame with finished := f :: frame.finished } :: rest }
  | [] => { r with finished := f :: r.finished }

/-- Adds several. -/
def addAll (r : Reading) (fs : List Finished) : Reading := fs.foldl add r

/-- Was the line before a blank one, as the innermost container sees it? -/
def apart (r : Reading) : Bool := r.lastBlank.any (· ≤ r.frames.length)

/-- The text of lines: without indentation, and without blanks at the very end. -/
def textOf (lines : List (List Char)) : List Char :=
  trimRight (['\n'].intercalate (lines.map (·.dropWhile isBlankChar)))

/-- Takes the definitions off the front of a paragraph. -/
def define (r : Reading) (lines : List (List Char)) : Reading × List (List Char) :=
  let text := ['\n'].intercalate lines
  let (targets, rest) := definitions (lines.length) r.targets text
  ({ r with targets }, if rest.length = text.length then lines else linesOf rest)

/-- The blocks of a paragraph without definitions. -/
def paragraphBlocks (apart : Bool) (lines : List (List Char)) : List Finished :=
  match tableIn? lines with
  | none => [⟨apart, .paragraph (textOf lines)⟩]
  | some ([], table) => [⟨false, table⟩]
  | some (before, table) => [⟨apart, .paragraph (textOf before)⟩, ⟨false, table⟩]

/-- Finishes the open block of text. -/
def closeLeaf (r : Reading) : Reading :=
  let done := { r with leaf := .none }
  match r.leaf with
  | .none => r
  | .paragraph apart lines =>
    let (r, lines) := done.define lines.reverse
    if lines.isEmpty then r.add ⟨apart, .bare []⟩ else r.addAll (paragraphBlocks apart lines)
  | .indented apart lines =>
    done.add ⟨apart, .code none (lines.dropWhile (·.all isBlankChar)).reverse⟩
  | .fenced apart fence lines => done.add ⟨apart, .code fence.language lines.reverse⟩
  | .markup apart _ => done.add ⟨apart, .markup false⟩

/-- The list that items make.  It stands close together unless blank lines divide its items or
their blocks. -/
def listOf (start : Option Nat) (items : List Item) : Block :=
  let loose := items.any (·.divided) || (items.drop 1).any (·.apart)
  .list start (items.map fun i => if loose then i.blocks else i.blocks.map Block.tighten)

/-- Finishes the innermost container. -/
def closeFrame (r : Reading) : Reading :=
  match r.frames with
  | [] => r
  | frame :: rest =>
    let outer := { r with frames := rest }
    let blocks := frame.finished.reverse
    match frame.container with
    | .quote => outer.add ⟨frame.apart, .quote (blocks.map (·.block))⟩
    | .list _ start items => outer.add ⟨frame.apart, listOf start items.reverse⟩
    | .item _ =>
      let item : Item := ⟨frame.apart, (blocks.drop 1).any (·.apart), blocks.map (·.block)⟩
      match rest with
      | ⟨.list mark start items, apart, finished⟩ :: rest =>
        { r with frames := ⟨.list mark start (item :: items), apart, finished⟩ :: rest }
      | _ => outer

/-- Finishes containers until `kept` are left. -/
def closeFrames (r : Reading) (kept : Nat) : Reading :=
  Nat.repeat closeFrame (r.frames.length - kept) r

/-- Finishes all but the `kept` outermost containers. -/
def closeTo (r : Reading) (kept : Nat) : Reading := r.closeLeaf.closeFrames kept

/-- Finishes a list whose next item does not follow. -/
def closeList (r : Reading) : Reading :=
  match r.frames with
  | ⟨.list .., _, _⟩ :: _ => r.closeFrame
  | _ => r

/-! ### Going on with what is open -/

/-- How far a line goes on with the open containers. -/
structure Walk where
  kept : Nat
  line : Line
  blankWithin : Option Nat

/-- The rest of a line behind the mark of a quote. -/
def pastQuoteMark? (line : Line) : Option Line :=
  if line.indent ≤ 3 && line.body.head? == some '>' then
    let rest := line.skip 1
    some (if rest.chars.head? == some ' ' || rest.chars.head? == some '\t' then rest.dropIndent 1
      else rest)
  else none

/-- The rest of a line behind what a container asks for; `empty` tells that it has no content. -/
def past? (container : Container) (empty : Bool) (line : Line) : Option Line :=
  match container with
  | .quote => pastQuoteMark? line
  | .list .. => some line
  | .item width =>
    if line.isBlank then if empty then none else some { line with pad := 0, chars := [] }
    else if width ≤ line.indent then some (line.dropIndent width)
    else none

/-- Walks through the open containers, outermost first. -/
def walk (leafOpen : Bool) : List Frame → Walk → Walk
  | [], w => { w with blankWithin := w.blankWithin <|> if w.line.isBlank then some w.kept else none }
  | frame :: inner, w =>
    let blankWithin := w.blankWithin <|> if w.line.isBlank then some w.kept else none
    let empty := frame.finished.isEmpty && inner.isEmpty && !leafOpen
    match past? frame.container empty w.line with
    | some line => walk leafOpen inner ⟨w.kept + 1, line, blankWithin⟩
    | none => { w with blankWithin }

/-! ### Opening blocks -/

/-- The start of an item: its mark, its number if it has one, the width of the mark with its
indentation, and the rest of the line. -/
structure ItemStart where
  mark : Char
  number : Option Nat
  width : Nat
  rest : Line

/-- The item that starts at the front of a line. -/
def itemStart? (line : Line) : Option ItemStart :=
  let body := line.body
  let digits := body.takeWhile Char.isDigit
  let start (mark : Char) (number : Option Nat) (length : Nat) : Option ItemStart :=
    let rest := line.skip length
    if rest.chars.isEmpty || rest.indent ≠ 0 || rest.isBlank then
      some ⟨mark, number, line.indent + length, rest⟩
    else none
  match body with
  | c :: _ =>
    if c == '-' || c == '*' || c == '+' then start c none 1
    else if digits.isEmpty || 9 < digits.length then none
    else match body.drop digits.length with
      | d :: _ =>
        if d == '.' || d == ')' then
          start d (some (digits.foldl (fun n c => n * 10 + (c.toNat - '0'.toNat)) 0))
            (digits.length + 1)
        else none
      | [] => none
  | [] => none

/-- A line of three or more equal marks. -/
def isRule (line : Line) : Bool :=
  let marks := line.body.filter (!isBlankChar ·)
  3 ≤ marks.length && (marks.head?.map fun c =>
    (c == '*' || c == '-' || c == '_') && marks.all (· == c)).getD false

/-- The level of the heading that a line under a paragraph makes. -/
def underline? (line : Line) : Option Nat :=
  let marks := trimRight line.body
  if marks.isEmpty || 3 < line.indent then none
  else if marks.all (· == '=') then some 1
  else if marks.all (· == '-') then some 2
  else none

/-- The heading of a line with number signs. -/
def heading? (line : Line) : Option (Nat × List Char) :=
  let signs := line.body.takeWhile (· == '#')
  let rest := line.body.drop signs.length
  if signs.isEmpty || 6 < signs.length then none
  else if !rest.isEmpty && !(rest.head?.map isBlankChar).getD false then none
  else
    let text := trim rest
    let front := (text.reverse.dropWhile (· == '#')).reverse
    some (signs.length, if front.isEmpty then []
      else if (front.getLast?.map isBlankChar).getD false then front else text)

/-- The fence at the front of a line. -/
def fence? (line : Line) : Option Fence :=
  match line.body with
  | mark :: _ =>
    let length := (line.body.takeWhile (· == mark)).length
    let info := trim (line.body.drop length)
    if (mark == '\x60' || mark == '~') && 3 ≤ length && !(mark == '\x60' && info.contains '\x60') then
      some ⟨mark, length, line.indent, if info.isEmpty then none else some (info.takeWhile (· != ' '))⟩
    else none
  | [] => none

/-- What starts at the front of a line. -/
inductive Start where
  | rule
  | item (start : ItemStart)
  | indented
  | heading (level : Nat) (text : List Char)
  | fence (fence : Fence)
  | quote (rest : Line)
  | markup (ending : MarkupEnd)

/-- What starts at the front of a line.  In a paragraph, `here` tells whether it is one of the
container that the line goes on with; an item starts there only if it is not empty and not numbered
otherwise than 1. -/
def start? (inParagraph here : Bool) (line : Line) : Option Start :=
  if 3 < line.indent then if inParagraph then none else some .indented
  else if isRule line then some .rule
  else
    let item := (itemStart? line).filter fun i =>
      !(inParagraph && here) || (!i.rest.isBlank && i.number.all (· == 1))
    match item with
    | some i => some (.item i)
    | none =>
      match line.body.head? with
      | some '#' => (heading? line).map fun (level, text) => .heading level text
      | some '>' => (pastQuoteMark? line).map .quote
      | some '<' => (markupBlock? inParagraph (line.body.drop 1)).map .markup
      | _ => (fence? line).map .fence

/-- Opens an item, in the list that is open or in a new one. -/
def openItem (r : Reading) (i : ItemStart) (width : Nat) : Reading :=
  let continues := match r.frames with
    | ⟨.list mark start _, _, _⟩ :: _ => mark == i.mark && start.isSome == i.number.isSome
    | _ => false
  let r := if continues then r
    else
      let r := r.closeList
      { r with frames := ⟨.list i.mark i.number [], r.apart, []⟩ :: r.frames }
  { r with frames := ⟨.item width, r.apart, []⟩ :: r.frames }

/-- Opens blocks at the front of a line, of whose containers `kept` go on; `depth` bounds how many
are opened. -/
def openBlocks : Nat → Reading → Nat → Line → Reading
  | 0, r, _, _ => r
  | depth + 1, r, kept, line =>
    if line.isBlank then r
    else match start? r.leaf.isParagraph (kept == r.frames.length) line with
      | none =>
        match r.leaf with
        | .paragraph apart lines => { r with leaf := .paragraph apart (line.text :: lines) }
        | _ =>
          let r := (r.closeTo kept).closeList
          { r with leaf := .paragraph r.apart [line.body] }
      | some (.item i) =>
        let r := r.closeTo kept
        let gap := if i.rest.isBlank || 4 < i.rest.indent then 1 else i.rest.indent
        let r := r.openItem i (i.width + gap)
        openBlocks depth r r.frames.length (i.rest.dropIndent gap)
      | some (.quote rest) =>
        let r := (r.closeTo kept).closeList
        let r := { r with frames := ⟨.quote, r.apart, []⟩ :: r.frames }
        openBlocks depth r r.frames.length rest
      | some .rule =>
        let r := (r.closeTo kept).closeList
        r.add ⟨r.apart, .rule⟩
      | some (.heading level text) =>
        let r := (r.closeTo kept).closeList
        r.add ⟨r.apart, .heading level text⟩
      | some .indented =>
        let r := (r.closeTo kept).closeList
        { r with leaf := .indented r.apart [(line.dropIndent 4).text] }
      | some (.fence fence) =>
        let r := (r.closeTo kept).closeList
        { r with leaf := .fenced r.apart fence [] }
      | some (.markup ending) =>
        let r := (r.closeTo kept).closeList
        if ending.isIn line.chars then r.add ⟨r.apart, .markup false⟩
        else { r with leaf := .markup r.apart ending }

/-- Opens blocks at the front of a line. -/
def openAt (r : Reading) (kept : Nat) (line : Line) : Reading :=
  openBlocks (line.chars.length + 1) r kept line

/-- Goes on with a paragraph: a line under it may make it a heading. -/
def continueParagraph (r : Reading) (apart : Bool) (lines : List (List Char)) (line : Line) : Reading :=
  match underline? line with
  | none => r.openAt r.frames.length line
  | some level =>
    let (defined, rest) := { r with leaf := .none }.define lines.reverse
    if rest.isEmpty || (tableIn? rest).isSome then
      let r := r.closeLeaf
      r.openAt r.frames.length line
    else defined.add ⟨apart, .heading level (textOf rest)⟩

/-- Goes on with the open block of text. -/
def continueLeaf (r : Reading) (line : Line) : Reading :=
  let kept := r.frames.length
  match r.leaf with
  | .none => r.openAt kept line
  | .paragraph apart lines =>
    if line.isBlank then r.closeLeaf else r.continueParagraph apart lines line
  | .indented apart lines =>
    if 4 ≤ line.indent || line.isBlank then
      { r with leaf := .indented apart ((line.dropIndent 4).text :: lines) }
    else r.closeLeaf.openAt kept line
  | .fenced apart fence lines =>
    if fence.isClosedBy line then r.closeLeaf
    else { r with leaf := .fenced apart fence ((line.dropIndent (min fence.indent line.indent)).text :: lines) }
  | .markup apart ending =>
    if ending.marks.isEmpty && line.isBlank then r.closeLeaf
    else if ending.isIn line.chars then { r with leaf := .none }.add ⟨apart, .markup true⟩
    else r

/-- Reads a line. -/
def addLine (r : Reading) (chars : List Char) : Reading :=
  let leafOpen := match r.leaf with | .none => false | _ => true
  let w := walk leafOpen r.frames.reverse ⟨0, { chars }, none⟩
  let out :=
    if w.kept == r.frames.length then r.continueLeaf w.line
    else if w.line.isBlank then r.closeTo w.kept
    else r.openAt w.kept w.line
  { out with lastBlank := w.blankWithin }

/-- Reads a document: its blocks, and the targets of its labels. -/
def ofText (cs : List Char) : List Block × Targets :=
  let r := ((linesOf cs).foldl addLine {}).closeTo 0
  (r.finished.reverse.map (·.block), r.targets)

end Reading

end Markdown

end SolidityLint
