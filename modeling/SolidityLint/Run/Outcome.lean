import SolidityLint.Failure
import SolidityLint.Lint.Engine

/-!
# Run — outcomes and statistics

A run has one outcome for each file that it found, in order.  Its statistics are the sum of what
the outcomes contribute.
-/

namespace SolidityLint

/-- What happened to a file. -/
structure FileOutcome where
  path : String
  /-- Absent when the file could not be read or parsed, or was passed over. -/
  result : Option FileResult := none
  error : Option Failure := none
  /-- The content is not Solidity. -/
  skipped : Bool := false
  /-- An ignore file matches the path; the result is empty. -/
  excluded : Bool := false
deriving Inhabited

/-- Numbers of findings by severity, in the order of their names. -/
abbrev SeverityTally := List (Severity × Nat)

namespace SeverityTally

/-- The number of a severity. -/
def count (t : SeverityTally) (s : Severity) : Nat := (t.lookup s).getD 0

/-- Adds to the number of a severity. -/
def add (s : Severity) (n : Nat) : SeverityTally → SeverityTally
  | [] => [(s, n)]
  | (k, m) :: rest =>
    if k = s then (k, m + n) :: rest
    else if s.name < k.name then (s, n) :: (k, m) :: rest
    else (k, m) :: add s n rest

end SeverityTally

/-- The numbers of a run. -/
structure Stats where
  discovered : Nat := 0
  parsed : Nat := 0
  skipped : Nat := 0
  excluded : Nat := 0
  failures : Nat := 0
  withIssues : Nat := 0
  /-- The number of findings. -/
  total : Nat := 0
  bySeverity : SeverityTally := []
  suppressed : Nat := 0
  /-- The number of rules that broke on a file. -/
  ruleErrors : Nat := 0
deriving Inhabited

/-- The outcomes of a run, and its numbers. -/
structure RunResult where
  files : List FileOutcome := []
  stats : Stats := {}
deriving Inhabited

/-- The severity under which a diagnostic is counted: without one it is a warning. -/
def Diagnostic.countedAs (d : Diagnostic) : Severity :=
  if d.severity.name.isEmpty then .warning else d.severity

namespace Stats

/-- Counts the findings of a linted file. -/
def addResult (s : Stats) (r : FileResult) : Stats :=
  { s with
    parsed := s.parsed + 1
    suppressed := s.suppressed + r.suppressed
    ruleErrors := s.ruleErrors + r.broken.length
    total := s.total + r.issueCount
    withIssues := if 0 < r.issueCount then s.withIssues + 1 else s.withIssues
    bySeverity := r.diagnostics.foldl (fun t d => t.add d.countedAs d.occurrences) s.bySeverity }

/-- Counts an outcome. -/
def addOutcome (s : Stats) (o : FileOutcome) : Stats :=
  if o.error.isSome then { s with failures := s.failures + 1 }
  else if o.skipped then { s with skipped := s.skipped + 1 }
  else if o.excluded then { s with excluded := s.excluded + 1 }
  else match o.result with
    | none => s
    | some r => s.addResult r

/-- The JSON form. -/
def toJson (s : Stats) : Json :=
  .obj [("FilesDiscovered", .nat s.discovered), ("FilesParsed", .nat s.parsed),
    ("FilesSkipped", .nat s.skipped), ("FilesExcluded", .nat s.excluded),
    ("ParseFailures", .nat s.failures), ("FilesWithIssues", .nat s.withIssues),
    ("DiagnosticsTotal", .nat s.total),
    ("DiagnosticsBySeverity", .obj (s.bySeverity.map fun (k, n) => (k.name, .nat n))),
    ("Suppressed", .nat s.suppressed), ("RuleErrors", .nat s.ruleErrors)]

end Stats

/-- The JSON form of an outcome. -/
def FileOutcome.toJson (o : FileOutcome) : Json :=
  .ofOptional [("path", some (.str o.path)), ("skipped", some (.bool o.skipped)),
    ("excluded", some (.bool o.excluded)),
    ("result", some ((o.result.map FileResult.toJson).getD .null)),
    ("failure", o.error.map Failure.toJson)]

namespace RunResult

/-- The result of the given outcomes. -/
def ofOutcomes (files : List FileOutcome) : RunResult :=
  { files, stats := files.foldl Stats.addOutcome { discovered := files.length } }

/-- Should the run fail?  Errors and files that did not parse fail it, and warnings in strict
mode. -/
def hasFailures (r : RunResult) (strict : Bool) : Bool :=
  0 < r.stats.failures || 0 < r.stats.bySeverity.count .error
    || (strict && 0 < r.stats.bySeverity.count .warning)

def hasIssues (r : RunResult) : Bool := 0 < r.stats.total

/-- The outcome of a path. -/
def outcome? (r : RunResult) (path : String) : Option FileOutcome :=
  r.files.find? (·.path == path)

end RunResult

end SolidityLint
