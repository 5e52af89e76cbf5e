import SolidityLint.Lint.Aggregate
import SolidityLint.Lint.Directive
import SolidityLint.Lint.Rule
import SolidityLint.Number.Sum

/-!
# Lint — linting one file

`lintFile` runs the rules on a file.  Their findings are joined in the order of the rules, those
that comments silence are dropped, and what is left is aggregated.  A rule that breaks adds
nothing and is named in the result.
-/

namespace SolidityLint

/-- The result of linting one file. -/
structure FileResult where
  file : Option SourceFile := none
  diagnostics : List Diagnostic := []
  /-- The number of findings that comments silenced. -/
  suppressed : Nat := 0
  /-- The ids of the rules that broke, in order, each once. -/
  broken : List String := []
deriving Inhabited

namespace FileResult

def hasIssues (r : FileResult) : Bool := !r.diagnostics.isEmpty

/-- The number of findings. -/
def issueCount (r : FileResult) : Nat := sumOf (r.diagnostics.map (·.occurrences))

/-- The JSON form. -/
def toJson (r : FileResult) : Json :=
  .ofOptional [("diagnostics", some (.arr (r.diagnostics.map Diagnostic.toJson))),
    ("suppressed", some (.nat r.suppressed)), ("rule_errors", some (.arr (r.broken.map .str))),
    ("has_issues", some (.bool r.hasIssues)), ("issue_count", some (.nat r.issueCount)),
    ("path", r.file.map fun f => .str f.path)]

end FileResult

/-- The ids in order, each once. -/
def sortedIds (ids : List String) : List String :=
  (lastOfRun (sortByKey (ids.map fun id => (id, ())))).map (·.1)

/-- The findings of the rules that do not break, in the order of the rules. -/
def findings (rules : List Rule) (file : SourceFile) (files : List SourceFile) : List Diagnostic :=
  rules.flatMap fun r => (r.diagnose file files).getD []

/-- The ids of the rules that break. -/
def brokenRules (rules : List Rule) (file : SourceFile) (files : List SourceFile) : List String :=
  sortedIds ((rules.filter fun r => (r.diagnose file files).isNone).map (·.entry.id))

/-- Lints a file of a project.  A file without a tree has no findings. -/
def lintFile (rules : List Rule) (file : SourceFile) (files : List SourceFile) : FileResult :=
  match file.root with
  | none => { file := some file }
  | some _ =>
    let found := findings rules file files
    let kept := unsuppressed (directivesOf file.text) found
    { file := some file
      diagnostics := aggregate kept
      suppressed := found.length - kept.length
      broken := brokenRules rules file files }

/-- Lints a file unless the work was called off before: that stops it if there is a rule to
run. -/
def lintFile? (rules : List Rule) (cancelled : Bool) (file : SourceFile) (files : List SourceFile) :
    Option FileResult :=
  if cancelled && file.root.isSome && !rules.isEmpty then none else some (lintFile rules file files)

end SolidityLint
