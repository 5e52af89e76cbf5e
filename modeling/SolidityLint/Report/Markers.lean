import SolidityLint.Lint.Diagnostic
import SolidityLint.Report.Style
import SolidityLint.Text.Case

/-!
# Report — a finding and its source line

A finding is shown with its place, severity, message and rule, and below it the source line with
a marker under each range: `^` in its first column and `~` in the others.  Ranges count bytes; the
markers are placed by display width.
-/

namespace SolidityLint

/-- A marked stretch of a line, in bytes. -/
structure Stretch where
  start : Nat
  stop : Nat
deriving DecidableEq, Repr

namespace Markers

/-- The place of a character, counted from one, moved into `[low, size]`. -/
def place (character : Int64) (low size : Nat) : Nat :=
  min (max (character - 1).toInt.toNat low) size

/-- The stretch of a range that starts on the line; one that ends elsewhere goes to the end of the
line. -/
def stretch? (size : Nat) (line : Int64) (r : Range) : Option Stretch :=
  if r.start.line == line then
    let start := place r.start.character 0 size
    let stop := if r.stop.line == line then place r.stop.character start size else size
    some ⟨start, stop⟩
  else none

/-- Inserts a stretch behind those that start no later; the list is kept last first. -/
def insertByStart (s : Stretch) : List Stretch → List Stretch
  | [] => [s]
  | t :: ts => if s.start < t.start then t :: insertByStart s ts else s :: t :: ts

/-- The stretches by their starts. -/
def inOrder (ss : List Stretch) : List Stretch :=
  (ss.foldl (fun acc s => insertByStart s acc) []).reverse

/-- Blanks as wide as a piece of the line; tabs stay. -/
def padding (bytes : List UInt8) : List Char :=
  (Utf8.decode bytes).flatMap fun c =>
    if c == '\t' then ['\t'] else List.replicate (columnsOf c) ' '

/-- The marks of the stretches from a place on; one that starts before it is passed over. -/
def draw (line : List UInt8) : Nat → List Stretch → List Char
  | _, [] => []
  | cursor, s :: ss =>
    if s.start < cursor then draw line cursor ss
    else
      let width := max (bytesWidth ((line.drop s.start).take (s.stop - s.start))) 1
      let next := min (max s.stop (s.start + 1)) line.length
      padding ((line.drop cursor).take (s.start - cursor)) ++ '^' :: List.replicate (width - 1) '~'
        ++ draw line next ss

end Markers

/-- The marker line for the ranges that start on a line; empty when none does. -/
def markers (line : List UInt8) (number : Int64) (ranges : List Range) : String :=
  String.ofList (Markers.draw line 0
    (Markers.inOrder (ranges.filterMap (Markers.stretch? line.length number))))

namespace Styles

/-- What stands in front of source lines. -/
def contextIndent : String := "        "

/-- The name of a severity. -/
def severity (s : Styles) (sev : Severity) : String :=
  if sev.isValid then s.render (severityPart sev) (lowerCase sev.name) else lowerCase sev.name

/-- A source line with its marker line. -/
def sourceContext (s : Styles) (line : ByteArray) (number : Int64) (ranges : List Range) : String :=
  let marks := markers line.toList number ranges
  contextIndent ++ s.render .sourceLine (textOfBytes line) ++ "\n"
    ++ if marks.isEmpty then "" else contextIndent ++ s.render .caret marks ++ "\n"

/-- A finding, with its source line if that is not empty. -/
def diagnostic (s : Styles) (path : String) (d : Diagnostic) (line : ByteArray) : String :=
  let more := d.sameLine.length
  let message := d.message
    ++ if 0 < more then s.render .dim (" (+" ++ Nat.repr more ++ " on this line)") else ""
  "  " ++ s.render .filePath path ++ ":" ++ d.range.start.render ++ "  " ++ s.severity d.severity
    ++ "  " ++ s.render .message message ++ "  " ++ s.render .ruleId ("(" ++ d.ruleId ++ ")") ++ "\n"
    ++ if line.isEmpty then ""
      else s.sourceContext line d.range.start.line (d.range :: d.sameLine)

/-- The header of the findings of a file. -/
def fileHeader (s : Styles) (path : String) (count : Int) : String :=
  s.render .filePath path
    ++ if count = 1 then s.render .dim " (1 issue)"
      else if 1 < count then s.render .dim (" (" ++ Nat.repr count.toNat ++ " issues)")
      else ""

end Styles

end SolidityLint
