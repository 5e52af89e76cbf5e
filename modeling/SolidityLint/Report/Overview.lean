import SolidityLint.Analysis.Basic
import SolidityLint.Report.Summary

/-!
# Report — overview tables

Two tables of fixed width: how many findings each rule has, and each file.  A path that is too wide
for its cell keeps its last characters.  That cut is made by characters and not by width, so there
is none for a path that is too wide but has too few characters; the report then breaks off.
-/

namespace SolidityLint

/-- The table that comes first. -/
inductive OverviewOrder where
  | rules
  | files
deriving DecidableEq, Repr

namespace OverviewOrder

def name : OverviewOrder → String
  | rules => "rules"
  | files => "files"

/-- Reads the name of an order; an empty one puts the rules first. -/
def parse? (s : String) : Option OverviewOrder :=
  match lowerCase s with
  | "" | "rules" => some rules
  | "files" => some files
  | _ => none

/-- The message about a name that is none. -/
def unknownMessage (s : String) : String :=
  "unknown summary order " ++ quoted s ++ "; valid orders: rules, files"

end OverviewOrder

namespace Overview

/-- The width of both tables. -/
def tableWidth : Nat := 90

/-- The widest path that is shown whole. -/
def maxFileWidth : Nat := 52

/-- The cell of a path before padding; `none` when it can not be shortened. -/
def fileCell? (path : String) : Option String :=
  if displayWidth path ≤ maxFileWidth then some path
  else
    let cs := path.toList
    let kept := maxFileWidth - 1
    if cs.length < kept then none else some ("…" ++ String.ofList (cs.drop (cs.length - kept)))

/-- The cell of a rule before padding. -/
def ruleCell (id : String) : String := truncate 34 "…" id

end Overview

namespace Styles

/-- The headers of the numbers. -/
def countHeaders (s : Styles) : String :=
  String.intercalate " " [s.render .tableHeader (padLeft 7 "Count"),
    s.render .tableHeader (padLeft 7 "Errors"), s.render .tableHeader (padLeft 9 "Warnings"),
    s.render .tableHeader (padLeft 7 "Other")]

/-- The numbers of a group. -/
def countCells (g : GroupSummary) : String :=
  String.intercalate " " [padLeft 7 (Nat.repr g.issues), padLeft 7 (Nat.repr g.counts.errors),
    padLeft 9 (Nat.repr g.counts.warnings), padLeft 7 (Nat.repr (g.counts.infos + g.counts.hints))]

/-- A name in the style of its most severe finding. -/
def groupName (s : Styles) (name : String) (c : SeverityCounts) : String :=
  if 0 < c.errors then s.render .tableErrorRow name
  else if 0 < c.warnings then s.render .tableWarnRow name
  else name

/-- A table of groups; nothing for no group. -/
def groupTable (s : Styles) (title label : String) (width : Nat) (cell? : String → Option String)
    (groups : List GroupSummary) : Option String :=
  if groups.isEmpty then some ""
  else
    let rule := s.render .tableSeparator (String.ofList (List.replicate Overview.tableWidth '─')) ++ "\n"
    (groups.mapM fun g => (cell? g.name).map fun cell =>
      s.groupName (padRight width cell) g.counts ++ " " ++ countCells g ++ "\n").map fun rows =>
        s.render .bold title ++ "\n" ++ rule
          ++ s.render .tableHeader (padRight width label) ++ " " ++ s.countHeaders ++ "\n" ++ rule
          ++ String.join rows

/-- The sums below the tables. -/
def totalsLine (s : Styles) (t : Totals) : String :=
  let part (n : Nat) (part : Part) (text : String) : List String :=
    if 0 < n then [s.render part text] else []
  let other := t.counts.infos + t.counts.hints
  let parts := part t.counts.errors .error (counted t.counts.errors "error" "errors")
    ++ part t.counts.warnings .warning (counted t.counts.warnings "warning" "warnings")
    ++ part other .info (Nat.repr other ++ " other")
  s.render .bold "Total: " ++ counted t.issues "issue" "issues"
    ++ (if parts.isEmpty then "" else " (" ++ String.intercalate ", " parts ++ ")")
    ++ " in " ++ counted t.filesWithIssues "file" "files" ++ "\n"

/-- The line about files that did not parse. -/
def failuresLine (s : Styles) (t : Totals) : String :=
  if 0 < t.parseFailures then
    s.render .error (counted t.parseFailures "file" "files" ++ " failed to parse") ++ "\n"
  else ""

/-- The overview of a run; `none` when it breaks off. -/
def overview (s : Styles) (order : OverviewOrder) (r : AnalysisReport) : Option String :=
  if r.totals.issues = 0 then
    some (s.render .success "No issues found" ++ "\n" ++ s.failuresLine r.totals)
  else do
    let rules ← s.groupTable "Rules Summary" "Rule" 36 (fun id => some (Overview.ruleCell id)) r.byRule
    let files ← s.groupTable "Files Summary" "File" 54 Overview.fileCell? r.byFile
    let tables := match order with
      | .files => files ++ "\n" ++ rules
      | .rules => rules ++ "\n" ++ files
    return tables ++ "\n" ++ s.totalsLine r.totals ++ s.failuresLine r.totals

end Styles

end SolidityLint
