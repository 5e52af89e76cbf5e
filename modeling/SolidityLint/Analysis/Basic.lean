import SolidityLint.Number.Sum
import SolidityLint.Path.Basic
import SolidityLint.Run.Outcome
import SolidityLint.Text.Case

/-!
# Analysis — views of a run

The findings of a run by file and by rule.  A diagnostic that stands for several findings is
expanded first, so each finding counts on its own.
-/

namespace SolidityLint

/-- Numbers of findings; what is no error, info or hint counts as a warning. -/
structure SeverityCounts where
  errors : Nat := 0
  warnings : Nat := 0
  infos : Nat := 0
  hints : Nat := 0
deriving DecidableEq, Repr, Inhabited

namespace SeverityCounts

/-- Counts one finding. -/
def add (c : SeverityCounts) (s : Severity) : SeverityCounts :=
  if s = .error then { c with errors := c.errors + 1 }
  else if s = .info then { c with infos := c.infos + 1 }
  else if s = .hint then { c with hints := c.hints + 1 }
  else { c with warnings := c.warnings + 1 }

/-- Counts findings. -/
def ofList (ds : List Diagnostic) : SeverityCounts := ds.foldl (fun c d => c.add d.severity) {}

end SeverityCounts

/-- How views are ordered. -/
inductive SortField where
  | count
  | alpha
  | severity
deriving DecidableEq, Repr

namespace SortField

def name : SortField → String
  | count => "count"
  | alpha => "alpha"
  | severity => "severity"

def all : List SortField := [count, alpha, severity]

/-- The order of exactly this name. -/
def ofName? (s : String) : Option SortField := all.find? (·.name == s)

/-- Reads the name of an order; an empty one is the order by count. -/
def parse? (s : String) : Option SortField :=
  if s == "" then some count else ofName? (lowerCase (trimSpace s))

/-- The message about a name that is none. -/
def unknownMessage (s : String) : String :=
  "unknown sort order " ++ quoted s ++ "; valid orders: count, alpha, severity"

end SortField

/-- A finding in a view. -/
structure DiagnosticEntry where
  filePath : String
  ruleId : String
  severity : String
  message : String
  range : Range

/-- The findings of a file, or of a rule. -/
structure GroupSummary where
  /-- The path of the file, or the id of the rule. -/
  name : String
  counts : SeverityCounts
  issues : Nat
  /-- The rules of the file, or the files of the rule, in order. -/
  others : List String
deriving Inhabited

/-- The sums of a run. -/
structure Totals where
  counts : SeverityCounts := {}
  files : Nat := 0
  filesWithIssues : Nat := 0
  issues : Nat := 0
  parseFailures : Nat := 0
  excluded : Nat := 0
  suppressed : Nat := 0
deriving Inhabited

/-- The views of a run. -/
structure AnalysisReport where
  diagnostics : List DiagnosticEntry := []
  byFile : List GroupSummary := []
  byRule : List GroupSummary := []
  totals : Totals := {}
deriving Inhabited

/-- What views are made, and how. -/
structure AnalysisOptions where
  diagnostics : Bool := true
  byFile : Bool := true
  byRule : Bool := true
  sort : SortField := .count
  /-- The largest counts first. -/
  descending : Bool := true
  workingDir : String := ""

/-- The version of the form of the views. -/
def analysisVersion : String := "1.0.0"

/-! ### Orders -/

/-- Does a group stand before another?  Ties are broken by name. -/
def GroupSummary.before (sort : SortField) (descending : Bool) (a b : GroupSummary) : Bool :=
  let byName := decide (a.name ≤ b.name)
  match sort with
  | .alpha => byName
  | .severity =>
    if a.counts.errors ≠ b.counts.errors then b.counts.errors < a.counts.errors
    else if a.counts.warnings ≠ b.counts.warnings then b.counts.warnings < a.counts.warnings
    else if a.issues ≠ b.issues then b.issues < a.issues
    else byName
  | .count =>
    if a.issues ≠ b.issues then
      if descending then b.issues < a.issues else a.issues < b.issues
    else byName

/-! ### Views -/

/-- The findings that count, each with the path under which it is shown. -/
def countedFindings (workingDir : String) (files : List FileOutcome) : List (String × Diagnostic) :=
  files.flatMap fun f =>
    if f.error.isSome || f.excluded || f.skipped then []
    else match f.result with
      | none => []
      | some r => (unaggregate r.diagnostics).map fun d => (Path.relativeTo workingDir f.path, d)

/-- The groups of findings by a key, each with the other names that occur in it. -/
def groupBy (key other : String × Diagnostic → String) (found : List (String × Diagnostic)) :
    List GroupSummary :=
  (sortedIds (found.map key)).map fun name =>
    let mine := found.filter (key · == name)
    { name, counts := .ofList (mine.map (·.2)), issues := mine.length
      others := sortedIds (mine.map other) }

/-- The sums of a run. -/
def totalsOf (files : List FileOutcome) (found : List (String × Diagnostic)) : Totals :=
  let checked := files.filterMap fun f =>
    if f.error.isSome || f.excluded || f.skipped then none else f.result
  { counts := .ofList (found.map (·.2))
    files := checked.length
    filesWithIssues := (checked.filter (·.hasIssues)).length
    issues := found.length
    parseFailures := (files.filter (·.error.isSome)).length
    excluded := (files.filter fun f => f.error.isNone && f.excluded).length
    suppressed := sumOf (checked.map (·.suppressed)) }

/-- The entry of a finding. -/
def entryOfFinding (found : String × Diagnostic) : DiagnosticEntry where
  filePath := found.1
  ruleId := found.2.ruleId
  severity := lowerCase found.2.countedAs.name
  message := found.2.message
  range := found.2.range

/-- The views of a run; none of a run that there was not. -/
def analyze (o : AnalysisOptions) : Option RunResult → AnalysisReport
  | none => {}
  | some result =>
    let found := countedFindings o.workingDir result.files
    let ordered (gs : List GroupSummary) := gs.mergeSort (GroupSummary.before o.sort o.descending)
    { diagnostics := if o.diagnostics then found.map entryOfFinding else []
      byFile := if o.byFile then ordered (groupBy (·.1) (·.2.ruleId) found) else []
      byRule := if o.byRule then ordered (groupBy (·.2.ruleId) (·.1) found) else []
      totals := totalsOf result.files found }

end SolidityLint
