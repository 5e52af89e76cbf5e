import SolidityLint.Library.Markdown.Blocks
import SolidityLint.Library.Markdown.Entity
import SolidityLint.Library.Markdown.Inline

/-!
# Markdown — documents in HTML

Every text is escaped, markup of the document is left out, and links that could run code lead
nowhere.
-/

namespace SolidityLint

namespace Markdown

/-- A text in HTML. -/
def escapeText (cs : List Char) : String :=
  String.join (cs.map fun
    | '&' => "&amp;"
    | '<' => "&lt;"
    | '>' => "&gt;"
    | '"' => "&quot;"
    | c => String.singleton c)

/-- Running text in HTML. -/
def runningText (cs : List Char) : String := escapeText (resolve cs)

/-- What stands for markup that is left out. -/
def omitted : String := "<!-- raw HTML omitted -->"

/-! ### Addresses -/

/-- May the character stand in an address? -/
def isUrlChar (c : Char) : Bool := c.isAlphanum || "!#$&'()*+,-./:;=?@_~".toList.contains c

/-- A byte in an address, by its value. -/
def percent (b : UInt8) : String :=
  let digit (n : Nat) : Char := (Nat.toDigits 16 n).headD '0' |>.toUpper
  String.ofList ['%', digit (b.toNat / 16), digit (b.toNat % 16)]

/-- An address in which only characters stand that may; values of bytes that it has already stay. -/
def urlText : List Char → String
  | [] => ""
  | c :: cs =>
    (if isUrlChar c then String.singleton c
      else if c == '%' && (cs.head?.map isHexDigit).getD false && 2 ≤ cs.length then "%"
      else String.join ((String.singleton c).toUTF8.toList.map percent)) ++ urlText cs

/-- An address in HTML. -/
def urlHtml (cs : List Char) : String := escapeText (urlText cs).toList

/-- Could the link run code? -/
def isDangerous (destination : List Char) : Bool :=
  let url := destination.map Char.toLower
  let starts (front : String) : Bool := front.toList.isPrefixOf url
  if starts "data:image/" then
    !(["png;", "gif;", "jpeg;", "webp;", "svg+xml;"].any fun kind => starts ("data:image/" ++ kind))
  else ["javascript:", "vbscript:", "file:", "data:"].any starts

/-- The destination of a link in HTML. -/
def destinationHtml (t : Target) : String :=
  if isDangerous t.destination then "" else urlHtml (resolve t.destination)

/-- The title of a link in HTML. -/
def titleHtml (t : Target) : String :=
  match t.title with
  | some title => " title=\"" ++ runningText title ++ "\""
  | none => ""

/-! ### Text -/

mutual

/-- The bare text of a part, as it describes an image. -/
def Inline.bareText : Inline → String
  | .text cs => runningText cs
  | .code cs => escapeText cs
  | .lineEnd hard => if hard then "<br />\n" else "\n"
  | .emphasis ps => bareTexts ps
  | .strong ps => bareTexts ps
  | .struck ps => bareTexts ps
  | .link _ ps => bareTexts ps
  | .image _ ps => bareTexts ps
  | .address _ => ""
  | .markup => ""
  | .checkbox _ => ""

/-- The bare text of parts. -/
def bareTexts : List Inline → String
  | [] => ""
  | p :: ps => p.bareText ++ bareTexts ps

end

mutual

/-- A part of a text in HTML. -/
def Inline.html : Inline → String
  | .text cs => runningText cs
  | .code cs => "<code>" ++ escapeText cs ++ "</code>"
  | .lineEnd hard => if hard then "<br />\n" else "\n"
  | .emphasis ps => "<em>" ++ inlinesHtml ps ++ "</em>"
  | .strong ps => "<strong>" ++ inlinesHtml ps ++ "</strong>"
  | .struck ps => "<del>" ++ inlinesHtml ps ++ "</del>"
  | .link t ps =>
    "<a href=\"" ++ destinationHtml t ++ "\"" ++ titleHtml t ++ ">" ++ inlinesHtml ps ++ "</a>"
  | .image t ps =>
    "<img src=\"" ++ destinationHtml t ++ "\" alt=\"" ++ bareTexts ps ++ "\"" ++ titleHtml t ++ " />"
  | .address a => "<a href=\"" ++ urlHtml a.href ++ "\">" ++ escapeText a.label ++ "</a>"
  | .markup => omitted
  | .checkbox checked =>
    "<input " ++ (if checked then "checked=\"\" " else "") ++ "disabled=\"\" type=\"checkbox\" /> "

/-- Parts of a text in HTML. -/
def inlinesHtml : List Inline → String
  | [] => ""
  | p :: ps => p.html ++ inlinesHtml ps

end

/-- A text in HTML. -/
def textHtml (place : Place) (cs : List Char) : String := inlinesHtml (inlines place cs)

/-! ### Blocks -/

/-- The name of an alignment. -/
def Alignment.name? : Alignment → Option String
  | unset => none
  | left => some "left"
  | right => some "right"
  | center => some "center"

/-- A row of a table. -/
def rowHtml (targets : Targets) (tag : String) (cells : List Cell) : String :=
  "<tr>\n" ++ String.join (cells.map fun c =>
    "<" ++ tag ++ (match c.alignment.name? with
      | some a => " align=\"" ++ a ++ "\""
      | none => "") ++ ">" ++ textHtml { targets, cell := true } c.text ++ "</" ++ tag ++ ">\n")
    ++ "</tr>\n"

/-- A table. -/
def tableHtml (targets : Targets) (header : List Cell) (rows : List (List Cell)) : String :=
  "<table>\n<thead>\n" ++ rowHtml targets "th" header ++ "</thead>\n"
    ++ (if rows.isEmpty then ""
      else "<tbody>\n" ++ String.join (rows.map (rowHtml targets "td")) ++ "</tbody>\n")
    ++ "</table>\n"

/-- Code; the language is the first word behind its opening marks. -/
def codeHtml (language : Option (List Char)) (lines : List (List Char)) : String :=
  "<pre><code" ++ (match language with
    | some l => " class=\"language-" ++ runningText l ++ "\""
    | none => "") ++ ">" ++ String.join (lines.map fun l => escapeText l ++ "\n") ++ "</code></pre>\n"

mutual

/-- A block in HTML.  `boxed` tells that it is the first one of an item, and `last` that it is the
last one of its container. -/
def blockHtml (targets : Targets) (boxed last : Bool) : Block → String
  | .paragraph text => "<p>" ++ textHtml { targets, boxed } text ++ "</p>\n"
  | .bare text =>
    textHtml { targets, boxed } text ++ (if last || text.isEmpty then "" else "\n")
  | .heading level text =>
    let tag := "h" ++ Nat.repr level
    "<" ++ tag ++ ">" ++ textHtml { targets, boxed } text ++ "</" ++ tag ++ ">\n"
  | .rule => "<hr />\n"
  | .code language lines => codeHtml language lines
  | .markup closed => omitted ++ "\n" ++ if closed then omitted ++ "\n" else ""
  | .quote blocks => "<blockquote>\n" ++ blocksHtml targets false blocks ++ "</blockquote>\n"
  | .list none items => "<ul>\n" ++ itemsHtml targets items ++ "</ul>\n"
  | .list (some start) items =>
    "<ol" ++ (if start = 1 then "" else " start=\"" ++ Nat.repr start ++ "\"") ++ ">\n"
      ++ itemsHtml targets items ++ "</ol>\n"
  | .table header rows => tableHtml targets header rows

/-- Blocks in HTML; `boxed` is for the first. -/
def blocksHtml (targets : Targets) (boxed : Bool) : List Block → String
  | [] => ""
  | b :: bs => blockHtml targets boxed bs.isEmpty b ++ blocksHtml targets false bs

/-- Items in HTML. -/
def itemsHtml (targets : Targets) : List (List Block) → String
  | [] => ""
  | blocks :: rest =>
    "<li>" ++ (match blocks with
      | [] => ""
      | .bare _ :: _ => ""
      | _ => "\n") ++ blocksHtml targets true blocks ++ "</li>\n" ++ itemsHtml targets rest

end

/-- A document in HTML. -/
def html (source : List Char) : String :=
  let (blocks, targets) := Reading.ofText source
  blocksHtml targets false blocks

end Markdown

end SolidityLint
