import SolidityLint.Analysis.Basic

/-!
# Analysis — views as JSON
-/

namespace SolidityLint

/-- The counts as members of an object. -/
def SeverityCounts.members (c : SeverityCounts) : List (String × Json) :=
  [("errors", .nat c.errors), ("warnings", .nat c.warnings), ("infos", .nat c.infos),
    ("hints", .nat c.hints)]

/-- A finding as JSON. -/
def DiagnosticEntry.toJson (d : DiagnosticEntry) : Json :=
  .obj [("filePath", .str d.filePath), ("ruleId", .str d.ruleId), ("severity", .str d.severity),
    ("message", .str d.message), ("startLine", .int d.range.start.line.toInt),
    ("startColumn", .int d.range.start.character.toInt), ("endLine", .int d.range.stop.line.toInt),
    ("endColumn", .int d.range.stop.character.toInt)]

/-- A group as JSON, with the keys of its name and of the names that occur in it. -/
def GroupSummary.toJson (name others : String) (g : GroupSummary) : Json :=
  .obj (g.counts.members ++ [(name, .str g.name), ("issues", .nat g.issues)]
    ++ if g.others.isEmpty then [] else [(others, .arr (g.others.map .str))])

/-- The sums as JSON. -/
def Totals.toJson (t : Totals) : Json :=
  .obj (t.counts.members ++ [("filesChecked", .nat t.files), ("filesWithIssues", .nat t.filesWithIssues),
    ("totalIssues", .nat t.issues), ("parseFailures", .nat t.parseFailures),
    ("filesIgnored", .nat t.excluded), ("suppressed", .nat t.suppressed)])

/-- The views as JSON. -/
def AnalysisReport.toJson (r : AnalysisReport) : Json :=
  .obj [("diagnostics", .arr (r.diagnostics.map (·.toJson))),
    ("by_file", .arr (r.byFile.map (·.toJson "path" "rules"))),
    ("by_rule", .arr (r.byRule.map (·.toJson "ruleId" "files"))),
    ("totals", r.totals.toJson), ("version", .str analysisVersion),
    ("has_issues", .bool (0 < r.totals.issues)), ("has_errors", .bool (0 < r.totals.counts.errors))]

end SolidityLint
