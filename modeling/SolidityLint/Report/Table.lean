import SolidityLint.Lint.Aggregate
import SolidityLint.Report.Summary

/-!
# Report — the table of findings

A table has a row for each finding, with a line between files.  Columns are as wide as their
content; if the table is wider than the terminal, first the messages and then the paths are
shortened, each down to a least width.
-/

namespace SolidityLint

/-- A row of the table. -/
structure TableRow where
  file : String
  location : String
  message : String
  ruleId : String
  severity : Severity
deriving DecidableEq, Repr

/-- The widths of the columns. -/
structure ColumnWidths where
  file : Nat := 20
  location : Nat := 8
  message : Nat := 35
  rule : Nat := 8
deriving DecidableEq, Repr

namespace ColumnWidths

/-- The width of the table: two more for each column. -/
def total (w : ColumnWidths) : Nat := w.file + w.location + w.message + w.rule + 8

/-- Wide enough for a row. -/
def cover (w : ColumnWidths) (r : TableRow) : ColumnWidths where
  file := max w.file (displayWidth r.file)
  location := max w.location (displayWidth r.location)
  message := max w.message (displayWidth r.message)
  rule := max w.rule (displayWidth r.ruleId)

/-- Messages shortened by what the table is too wide. -/
def shrinkMessage (terminal : Nat) (w : ColumnWidths) : ColumnWidths :=
  { w with message := if terminal < w.total then max 35 (w.message - (w.total - terminal)) else w.message }

/-- Paths shortened by what the table is too wide. -/
def shrinkFile (terminal : Nat) (w : ColumnWidths) : ColumnWidths :=
  { w with file := if terminal < w.total then max 20 (w.file - (w.total - terminal)) else w.file }

/-- The widths for rows on a terminal. -/
def ofRows (terminal : Nat) (rows : List TableRow) : ColumnWidths :=
  ((rows.foldl cover {}).shrinkMessage terminal).shrinkFile terminal

end ColumnWidths

namespace Table

/-- What stands for a part that is left out. -/
def ellipsis : String := "..."

/-- A text shortened to a width on its right. -/
def shorten (width : Nat) (s : String) : String :=
  if displayWidth s ≤ width then s
  else if width ≤ 3 then truncate width "" s
  else truncate width ellipsis s

/-- The characters from the right, given last first, that fit into a width. -/
def fittingBack : Nat → List Char → List Char
  | _, [] => []
  | room, c :: cs => if columnsOf c ≤ room then c :: fittingBack (room - columnsOf c) cs else []

/-- A path shortened to a width on its left, so that the name of the file stays. -/
def shortenPath (width : Nat) (path : String) : String :=
  if displayWidth path ≤ width then path
  else
    let back (room : Nat) := String.ofList (fittingBack room path.toList.reverse).reverse
    if width ≤ 3 then back width else ellipsis ++ back (width - 3)

/-- The row of a finding. -/
def rowOf (path : String) (d : Diagnostic) : TableRow where
  file := path
  location := d.range.start.render
  message := d.message
  ruleId := d.ruleId
  severity := d.severity

/-- The rows of each file that has findings. -/
def groups (shown : String → String) (r : RunResult) : List (List TableRow) :=
  (r.files.filterMap fun f =>
    f.result.map fun res => (unaggregate res.diagnostics).map (rowOf (shown f.path))).filter
      (!·.isEmpty)

/-- Cells with two blanks between them. -/
def line (cells : List String) : String := " " ++ String.intercalate "  " cells

/-- The cells of a row, shortened and padded. -/
def cells (w : ColumnWidths) (r : TableRow) : String :=
  line [padRight w.file (shortenPath w.file r.file),
    padRight w.location (shorten w.location r.location),
    padRight w.message (shorten w.message r.message),
    padRight w.rule (shorten w.rule r.ruleId)]

/-- The cells of the header. -/
def header (w : ColumnWidths) : String :=
  line [padRight w.file "FILE", padRight w.location "LOC", padRight w.message "MESSAGE",
    padRight w.rule "RULE"]

/-- The width of a terminal that is not known. -/
def defaultWidth : Nat := 100

end Table

namespace Styles

/-- A row in the style of its severity; hints and unknown severities are plain. -/
def tableRow (s : Styles) (w : ColumnWidths) (r : TableRow) : String :=
  let text := Table.cells w r
  if r.severity = .error then s.render .tableErrorRow text
  else if r.severity = .warning then s.render .tableWarnRow text
  else if r.severity = .info then s.render .tableInfoRow text
  else Style.render s.profile {} text

/-- The explanation below the table. -/
def tableLegend (s : Styles) : String :=
  s.render .tableLegend
    (if s.colored then
      " Legend: " ++ s.render .tableErrorRow " error " ++ " = error  "
        ++ s.render .tableWarnRow " warning " ++ " = warning  "
        ++ s.render .tableInfoRow " info " ++ " = info"
    else " Legend: rows are ordered by file, then position")

/-- The table of a run; empty when there is no finding. -/
def table (s : Styles) (terminal : Nat) (shown : String → String) (r : RunResult) : String :=
  let groups := Table.groups shown r
  if groups.isEmpty then ""
  else
    let w := ColumnWidths.ofRows terminal groups.flatten
    let rule (c : Char) : String :=
      s.render .tableSeparator (String.ofList (List.replicate w.total c)) ++ "\n"
    let body := groups.map fun rows => String.join (rows.map fun r => s.tableRow w r ++ "\n")
    s.render .tableHeader (Table.header w) ++ "\n" ++ rule '='
      ++ String.intercalate (rule '-') body ++ rule '=' ++ s.tableLegend ++ "\n"

/-- The line below the table. -/
def tableSummary (s : Styles) (n : Stats) (duration : String) : String :=
  let failed := if 0 < n.failures then [s.render .error (Nat.repr n.failures ++ " parse failures")] else []
  let took := if duration.isEmpty then [] else [s.render .dim duration]
  " " ++ String.intercalate " | "
    ((counted n.parsed "file" "files" ++ " checked") :: s.severityParts n.bySeverity ++ failed ++ took)

end Styles

end SolidityLint
