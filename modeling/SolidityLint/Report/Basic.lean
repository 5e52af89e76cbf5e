import SolidityLint.Number.Sum
import SolidityLint.Report.Documents
import SolidityLint.Report.Markers
import SolidityLint.Report.Overview
import SolidityLint.Report.Table

/-!
# Report — reports

`Report.write` gives the text of a report of a run and the number of findings in it.
-/

namespace SolidityLint

/-- The form of a report. -/
inductive OutputFormat where
  | text
  | table
  | json
  | sarif
  | summary
deriving DecidableEq, Repr

namespace OutputFormat

def name : OutputFormat → String
  | text => "text"
  | table => "table"
  | json => "json"
  | sarif => "sarif"
  | summary => "summary"

def all : List OutputFormat := [text, table, json, sarif, summary]

/-- The form of exactly this name. -/
def ofName? (s : String) : Option OutputFormat := all.find? (·.name == s)

/-- Reads the name of a form; an empty one is text. -/
def parse? (s : String) : Option OutputFormat :=
  let name := lowerCase (trimSpace s)
  if name == "" then some text else ofName? name

/-- The message about a name that is none. -/
def unknownMessage (s : String) : String :=
  "unknown format " ++ quoted s ++ "; valid formats: text, table, json, sarif, summary"

end OutputFormat

/-- How a report is written. -/
structure ReportOptions where
  format : OutputFormat := .text
  /-- Colours were asked for. -/
  colored : Bool := false
  profile : Profile := .ascii
  /-- Show the source line of each finding. -/
  context : Bool := true
  /-- Show the numbers of the run. -/
  summary : Bool := true
  /-- Put the findings of a file under a header. -/
  group : Bool := true
  /-- Write documents on one line. -/
  compact : Bool := false
  order : OverviewOrder := .rules
  sort : SortField := .count
  /-- Paths in it are shown relative to it. -/
  workingDir : String := ""
  version : String := "dev"
  /-- What is known about the rules. -/
  rules : List Documentation := []

/-- A written report. -/
structure WrittenReport where
  /-- The number of findings. -/
  count : Nat
  output : String

namespace Report

/-- The path as shown. -/
def shownPath (o : ReportOptions) (path : String) : String := Path.relativeTo o.workingDir path

def styles (o : ReportOptions) : Styles := ⟨o.profile, o.colored⟩

/-- The line about a file that was refused. -/
def errorLine (o : ReportOptions) (path : String) (e : Failure) : String :=
  (styles o).render .filePath (shownPath o path) ++ ": " ++ (styles o).render .error ("error: " ++ e.text)
    ++ "\n"

/-- The findings of a file as text, and their number. -/
def textFile (o : ReportOptions) (f : FileOutcome) : WrittenReport :=
  let s := styles o
  let path := shownPath o f.path
  match f.error, f.result with
  | some e, _ => ⟨0, errorLine o f.path e⟩
  | none, none => ⟨0, ""⟩
  | none, some r =>
    if r.hasIssues then
      let line (d : Diagnostic) : ByteArray :=
        match r.file with
        | some file => if o.context then file.lines.lineBytes d.range.start.line else ByteArray.empty
        | none => ByteArray.empty
      let body := String.join (r.diagnostics.map fun d => s.diagnostic path d (line d))
      ⟨r.issueCount,
        if o.group then s.fileHeader path r.issueCount ++ "\n" ++ body ++ "\n" else body⟩
    else ⟨0, ""⟩

/-- The report when there is nothing to check. -/
def noFiles (o : ReportOptions) : WrittenReport :=
  ⟨0, if o.summary then (styles o).render .success "No files to check." ++ "\n" else ""⟩

/-- A run as text. -/
def writeText (o : ReportOptions) (r : RunResult) : WrittenReport :=
  if r.files.isEmpty then noFiles o
  else
    let parts := r.files.map (textFile o)
    ⟨sumOf (parts.map (·.count)),
      String.join (parts.map (·.output)) ++ if o.summary then (styles o).oneLine r.stats else ""⟩

/-- A run as a table. -/
def writeTable (o : ReportOptions) (r : RunResult) : WrittenReport :=
  let s := styles o
  if r.files.isEmpty then noFiles o
  else
    let errors := String.join (r.files.filterMap fun f => f.error.map (errorLine o f.path))
    if r.stats.total = 0 then
      ⟨0, errors ++ if o.summary then s.render .success "All files passed!" ++ "\n"
        ++ s.render .dim (Nat.repr r.stats.parsed ++ " files checked") ++ "\n" else ""⟩
    else
      ⟨r.stats.total, errors ++ s.table Table.defaultWidth (shownPath o) r
        ++ if o.summary then s.tableSummary r.stats "" ++ "\n" else ""⟩

/-- A document as text. -/
def document (o : ReportOptions) (v : Json) : String :=
  (if o.compact then v.compact else v.pretty) ++ "\n"

/-- A report of a run, if there was one; `none` when it breaks off. -/
def write (o : ReportOptions) (r : Option RunResult) : Option WrittenReport :=
  match o.format with
  | .text => some (writeText o (r.getD {}))
  | .table => some (writeTable o (r.getD {}))
  | .json => some ⟨jsonIssueCount r, document o (jsonDocument o.version (shownPath o) r)⟩
  | .sarif => some ⟨(sarifRun o.rules (shownPath o) r).results.size,
      document o (sarifDocument o.version o.rules (shownPath o) r)⟩
  | .summary =>
    let report := analyze { diagnostics := false, sort := o.sort, workingDir := o.workingDir } r
    ((styles o).overview o.order report).map fun text => ⟨report.totals.issues, text⟩

end Report

end SolidityLint
