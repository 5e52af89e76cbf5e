import SolidityLint.Report.Style
import SolidityLint.Run.Outcome
import SolidityLint.Text.Case

/-!
# Report — the numbers of a run in words
-/

namespace SolidityLint

/-- One word for one thing, another for any other number of things. -/
def plural (n : Nat) (one many : String) : String := if n = 1 then one else many

/-- A number and the word for its things. -/
def counted (n : Nat) (one many : String) : String := Nat.repr n ++ " " ++ plural n one many

namespace Styles

/-- The numbers of findings that are not zero, the most severe first. -/
def severityParts (s : Styles) (t : SeverityTally) : List String :=
  Severity.all.filterMap fun sev =>
    let n := t.count sev
    if n = 0 then none
    else
      let name := lowerCase sev.name
      let ending := if sev = .info || sev = .hint then "" else plural n "" "s"
      some (s.render (severityPart sev) (Nat.repr n ++ " " ++ name ++ ending))

/-- The numbers of a run on one line. -/
def oneLine (s : Styles) (n : Stats) : String :=
  let first :=
    if n.total = 0 then
      s.render .success "No issues found"
        ++ s.render .dim (" (" ++ counted n.parsed "file" "files" ++ " checked)")
    else
      let parts := s.severityParts n.bySeverity
      counted n.total "issue" "issues"
        ++ (if parts.isEmpty then "" else " (" ++ String.intercalate ", " parts ++ ")")
        ++ " in " ++ counted n.withIssues "file" "files"
  let failed := if 0 < n.failures then
      [s.render .error (counted n.failures "file" "files" ++ " failed to parse")] else []
  let silenced := if 0 < n.suppressed then
      [s.render .dim (Nat.repr n.suppressed ++ " suppressed")] else []
  let ignored := if 0 < n.excluded then [s.render .dim (Nat.repr n.excluded ++ " ignored")] else []
  String.intercalate ", " (first :: failed ++ silenced ++ ignored) ++ "\n"

/-- A label and its value. -/
def summaryRow (label value : String) : String :=
  "  " ++ label ++ ":" ++ blanks (19 - (label.length + 1)) ++ value ++ "\n"

/-- The numbers of a run as a block. -/
def summaryBlock (s : Styles) (n : Stats) : String :=
  let row (label : String) (part : Part) (value : Nat) : String :=
    summaryRow label (s.render part (Nat.repr value))
  let positive (label : String) (part : Part) (value : Nat) : String :=
    if 0 < value then row label part value else ""
  let bySeverity := Severity.all.map fun sev =>
    let name := sev.name.toList
    positive ("  " ++ String.ofList (name.take 1 ++ (name.drop 1).map lowerChar)) (severityPart sev)
      (n.bySeverity.count sev)
  let verdict :=
    if 0 < n.failures || 0 < n.bySeverity.count .error then s.render .failure "Lint failed with errors"
    else if 0 < n.bySeverity.count .warning then s.render .warning "Lint completed with warnings"
    else s.render .success "Lint passed"
  "\n" ++ s.render .summaryTitle "Summary" ++ "\n" ++ String.ofList (List.replicate 40 '-') ++ "\n"
    ++ row "Files checked" .summaryValue n.parsed
    ++ positive "Files with issues" .failure n.withIssues
    ++ positive "Parse failures" .error n.failures
    ++ positive "Files ignored" .dim n.excluded
    ++ positive "Not Solidity" .dim n.skipped
    ++ "\n" ++ row "Total issues" .summaryValue n.total
    ++ String.join bySeverity
    ++ positive "Suppressed" .dim n.suppressed
    ++ "\n" ++ verdict ++ "\n"

end Styles

end SolidityLint
