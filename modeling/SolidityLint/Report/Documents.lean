import SolidityLint.Analysis.Basic
import SolidityLint.Json.Printer
import SolidityLint.Number.Sum

/-!
# Report — documents for other programs

A run as JSON in the program's own form (`Report.jsonDocument`), where findings on one line stay
together, and as SARIF (`Report.sarifDocument`), where each has a result of its own and each rule
that found something is described once.
-/

namespace SolidityLint

namespace Report

/-! ### JSON -/

/-- Was the file linted, rather than refused or ignored? -/
def checkedResult? (f : FileOutcome) : Option FileResult :=
  if f.error.isSome || f.excluded then none else f.result

/-- The part of the document about one file. -/
def jsonFile (shown : String → String) (f : FileOutcome) : Json :=
  let diagnostics := ((checkedResult? f).map (·.diagnostics)).getD []
  .ofOptional [("path", some (.str (shown f.path))),
    ("diagnostics", some (.arr (diagnostics.map Diagnostic.toJson))),
    ("error", match f.error with
      | some e => if e.text.isEmpty then none else some (.str e.text)
      | none => none),
    ("excluded", if f.excluded then some (.bool true) else none)]

/-- The numbers of findings by the lower case names of severities. -/
def tallyByName (ds : List Diagnostic) : List (String × Nat) :=
  (ds.foldl (fun (t : SeverityTally) d =>
    t.add ⟨lowerCase d.countedAs.name⟩ d.occurrences) []).map fun (s, n) => (s.name, n)

/-- A run as JSON.  Files that are not Solidity are left out. -/
def jsonDocument (version : String) (shown : String → String) (r : Option RunResult) : Json :=
  let files := ((r.map (·.files)).getD []).filter (!·.skipped)
  let checked := files.filterMap checkedResult?
  .obj [("version", .str version), ("files", .arr (files.map (jsonFile shown))),
    ("summary", .obj [
      ("filesChecked", .nat checked.length),
      ("filesWithIssues", .nat (checked.filter (0 < ·.issueCount)).length),
      ("filesErrored", .nat (files.filter (·.error.isSome)).length),
      ("filesExcluded", .nat (files.filter fun f => f.error.isNone && f.excluded).length),
      ("totalIssues", .nat (sumOf (checked.map (·.issueCount)))),
      ("suppressed", .nat (sumOf (checked.map (·.suppressed)))),
      ("bySeverity", .obj ((tallyByName (checked.flatMap (·.diagnostics))).map fun (k, n) => (k, .nat n)))])]

/-- The number of findings in the JSON document. -/
def jsonIssueCount (r : Option RunResult) : Nat :=
  sumOf (((((r.map (·.files)).getD []).filter (!·.skipped)).filterMap checkedResult?).map
    (·.issueCount))

/-! ### SARIF -/

/-- The level of a severity; hints have none of their own and are notes. -/
def sarifLevel (s : Severity) : String :=
  if s = .error then "error" else if s = .info || s = .hint then "note" else "warning"

private def location (uri : String) (region : List (String × Option Json)) : Json :=
  .obj [("physicalLocation", .obj [("artifactLocation", .obj [("uri", .str uri)]),
    ("region", .ofOptional region)])]

private def positive (n : Int64) : Option Json := if n == 0 then none else some (.int n.toInt)

/-- The description of a rule that found something. -/
def sarifRule (docs : List Documentation) (d : Diagnostic) : Json :=
  let doc? := docs.reverse.find? (·.id == d.ruleId)
  let level := sarifLevel ((doc?.map (·.severity)).getD d.severity)
  let nonempty (s : String) : Option String := if s.isEmpty then none else some s
  .ofOptional [("id", some (.str d.ruleId)),
    ("shortDescription", doc?.map fun doc => .obj [("text", .str doc.description)]),
    ("helpUri", (doc?.bind fun doc => nonempty doc.sourceLink).map .str),
    ("defaultConfiguration", some (.obj [("level", .str level)])),
    ("properties", (doc?.bind fun doc => nonempty doc.category).map fun c =>
      .obj [("category", .str c)])]

/-- The result of a finding in a file, with the place of its rule among those that are described. -/
def sarifResult (uri : String) (place : Nat) (d : Diagnostic) : Json :=
  .obj [("ruleId", .str d.ruleId), ("ruleIndex", .nat place),
    ("level", .str (sarifLevel d.severity)), ("message", .obj [("text", .str d.message)]),
    ("locations", .arr [location uri [("startLine", some (.int d.range.start.line.toInt)),
      ("startColumn", positive d.range.start.character), ("endLine", positive d.range.stop.line),
      ("endColumn", positive d.range.stop.character)]])]

/-- The note about a file that was refused. -/
def sarifNotification (uri : String) (e : Failure) : Json :=
  .obj [("level", .str "error"), ("message", .obj [("text", .str e.text)]),
    ("locations", .arr [location uri [("startLine", some (.nat 1))]])]

/-- What is written of a run so far. -/
structure SarifRun where
  rules : Array Json := #[]
  /-- The places of the rules, by their ids. -/
  places : List (String × Nat) := []
  results : Array Json := #[]
  notes : Array Json := #[]
deriving Inhabited

namespace SarifRun

/-- Adds a finding in a file.  The first finding of a rule brings its description. -/
def addFinding (docs : List Documentation) (uri : String) (run : SarifRun) (d : Diagnostic) :
    SarifRun :=
  match run.places.lookup d.ruleId with
  | some place => { run with results := run.results.push (sarifResult uri place d) }
  | none =>
    { run with
      rules := run.rules.push (sarifRule docs d)
      places := (d.ruleId, run.rules.size) :: run.places
      results := run.results.push (sarifResult uri run.rules.size d) }

/-- Adds a file. -/
def addFile (docs : List Documentation) (shown : String → String) (run : SarifRun)
    (f : FileOutcome) : SarifRun :=
  match f.error, f.result with
  | some e, _ => { run with notes := run.notes.push (sarifNotification (shown f.path) e) }
  | none, none => run
  | none, some r => (unaggregate r.diagnostics).foldl (addFinding docs (shown f.path)) run

/-- The part of the document about the run. -/
def toJson (version : String) (run : SarifRun) : Json :=
  .ofOptional [
    ("tool", some (.obj [("driver", .obj [("name", .str "solidhunter"), ("version", .str version),
      ("informationUri", .str "https://github.com/yaklabco/solidhunter"),
      ("rules", .arr run.rules.toList)])])),
    ("results", some (.arr run.results.toList)),
    ("invocations", if run.notes.isEmpty then none else some (.arr [.obj [
      ("executionSuccessful", .bool false), ("toolExecutionNotifications", .arr run.notes.toList)]]))]

end SarifRun

/-- What is written of a run. -/
def sarifRun (docs : List Documentation) (shown : String → String) (r : Option RunResult) : SarifRun :=
  ((r.map (·.files)).getD []).foldl (SarifRun.addFile docs shown) {}

/-- A run as SARIF. -/
def sarifDocument (version : String) (docs : List Documentation) (shown : String → String)
    (r : Option RunResult) : Json :=
  .obj [("$schema", .str "https://raw.githubusercontent.com/oasis-tcs/sarif-spec/master/Schemata/sarif-schema-2.1.0.json"),
    ("version", .str "2.1.0"), ("runs", .arr [(sarifRun docs shown r).toJson version])]

end Report

end SolidityLint
