import SolidityLint.Lint.Severity
import SolidityLint.Text.Space
import SolidityLint.Library.Text.Width

/-!
# Report — styles

A style puts the codes of a terminal around a text.  The set of styles is fixed; without colour
every style is plain.  A plain style still writes four blanks for a tab, and a style that is not
plain also makes the lines of a text equally wide.
-/

namespace SolidityLint

/-- What the terminal understands. -/
inductive Profile where
  /-- No codes at all. -/
  | ascii
  /-- The codes of 256 colours. -/
  | ansi256
deriving DecidableEq, Repr

/-- How a text is shown. -/
structure Style where
  bold : Bool := false
  italic : Bool := false
  /-- One of the first sixteen colours. -/
  color : Option Nat := none
deriving DecidableEq, Repr

namespace Style

/-- Does the style change nothing? -/
def isPlain (s : Style) : Bool := !s.bold && !s.italic && s.color.isNone

/-- The codes of the style. -/
def codes (s : Style) : List String :=
  (if s.bold then ["1"] else []) ++ (if s.italic then ["3"] else [])
    ++ match s.color with
      | none => []
      | some c => [Nat.repr (if c < 8 then 30 + c else 90 + (c - 8))]

/-- Four blanks for each tab. -/
def expandTabs (cs : List Char) : List Char :=
  cs.flatMap fun c => if c == '\t' then [' ', ' ', ' ', ' '] else [c]

/-- One newline for each carriage return with a newline. -/
def unifyLineEnds : List Char → List Char
  | '\r' :: '\n' :: cs => '\n' :: unifyLineEnds cs
  | c :: cs => c :: unifyLineEnds cs
  | [] => []

/-- A text with the codes around it. -/
def wrap (p : Profile) (s : Style) (text : String) : String :=
  match p with
  | .ascii => text
  | .ansi256 => "\x1b[" ++ String.intercalate ";" s.codes ++ "m" ++ text ++ "\x1b[0m"

/-- A text in a style. -/
def render (p : Profile) (s : Style) (text : String) : String :=
  let cs := expandTabs text.toList
  if s.isPlain then String.ofList cs
  else
    let lines := (splitAtChar '\n' (unifyLineEnds cs)).map String.ofList
    let widest := (lines.map displayWidth).foldl max 0
    match lines with
    | [line] => wrap p s line
    | lines => String.intercalate "\n" (lines.map fun l =>
        wrap p s l ++ blanks (widest - displayWidth l))

end Style

/-- The styles of a report, and the terminal that it is for. -/
structure Styles where
  profile : Profile
  colored : Bool

namespace Styles

/-- What is shown in a style of its own. -/
inductive Part where
  | error | warning | info | hint
  | filePath | ruleId | message | sourceLine | caret
  | summaryTitle | summaryValue | success | failure
  | tableHeader | tableErrorRow | tableWarnRow | tableInfoRow | tableLegend | tableSeparator
  | dim | bold
deriving DecidableEq, Repr

/-- The style of a part when there is colour. -/
def colorStyle : Part → Style
  | .error | .failure => { bold := true, color := some 9 }
  | .warning => { bold := true, color := some 11 }
  | .info => { bold := true, color := some 12 }
  | .hint => { color := some 14 }
  | .filePath | .summaryTitle | .bold => { bold := true }
  | .ruleId | .tableSeparator | .dim => { color := some 8 }
  | .message | .summaryValue => {}
  | .sourceLine => { color := some 7 }
  | .caret | .tableErrorRow => { color := some 9 }
  | .success => { bold := true, color := some 10 }
  | .tableHeader => { bold := true, color := some 7 }
  | .tableWarnRow => { color := some 11 }
  | .tableInfoRow => { color := some 12 }
  | .tableLegend => { italic := true, color := some 8 }

/-- A text shown as a part. -/
def render (s : Styles) (part : Part) (text : String) : String :=
  (if s.colored then colorStyle part else {}).render s.profile text

/-- The part as which the name of a severity is shown. -/
def severityPart (s : Severity) : Part :=
  if s = .error then .error else if s = .warning then .warning else if s = .info then .info else .hint

end Styles

end SolidityLint
