import SolidityLint.Config.Settings
import SolidityLint.Library.Glob.Matcher
import SolidityLint.Lint.Registry
import SolidityLint.Report.Basic

/-!
# Config — validation

Settings are checked field by field.  A fault keeps the settings from being used; a warning does
not.
-/

namespace SolidityLint

/-- What is wrong with a field of the settings. -/
inductive FieldFault where
  | unknownFormat (name : String)
  | unknownFrontEnd (name : String)
  | negativeJobs
  | negativeTimeout
  | missingRuleId
  | unknownRule (id : String)
  | invalidSeverity (severity : Severity)
  | repeatedRule (id : String) (first : Nat)
  | noRules
  | emptyPattern
  /-- A pattern that cannot be read.  What the reader of patterns says about it is left out. -/
  | invalidPattern
deriving Repr

/-- The words of a fault. -/
def FieldFault.message : FieldFault → String
  | .unknownFormat name => OutputFormat.unknownMessage name
  | .unknownFrontEnd name => "invalid parser " ++ quoted name ++ "; must be one of: solc, foundry"
  | .negativeJobs => "jobs must be >= 0 (0 means auto)"
  | .negativeTimeout => "solc timeout must not be negative"
  | .missingRuleId => "missing rule id"
  | .unknownRule id => "unknown rule " ++ quoted id
  | .invalidSeverity s =>
    "invalid severity " ++ quoted s.name ++ "; must be one of: ERROR, WARNING, INFO, HINT"
  | .repeatedRule id first =>
    "rule " ++ quoted id ++ " is also configured at rules[" ++ Nat.repr first
      ++ "]; both instances run"
  | .noRules => "no rules enabled; nothing will be reported"
  | .emptyPattern => "empty ignore pattern"
  | .invalidPattern => "invalid glob pattern"

/-- A fault in a field. -/
structure FieldIssue where
  field : String
  /-- The file that the field stands in; empty if it is not known. -/
  file : String := ""
  fault : FieldFault
deriving Repr

namespace FieldIssue

/-- The file, the field and the fault. -/
def message (i : FieldIssue) : String :=
  String.intercalate ": " ([i.file, i.field].filter (· != "") ++ [i.fault.message])

/-- The issue as a failure. -/
def failure (i : FieldIssue) : Failure :=
  let base : Failure := .marked .validation (.plain i.message)
  match i.fault with
  | .unknownRule _ => .marked .unknownRule base
  | _ => base

def toJson (i : FieldIssue) : Json :=
  .obj [("field", .str i.field), ("file", .str i.file), ("message", .str i.fault.message)]

end FieldIssue

/-- What a check of settings found. -/
structure Validation where
  errors : List FieldIssue := []
  warnings : List FieldIssue := []
deriving Repr, Inhabited

namespace Validation

def isValid (v : Validation) : Bool := v.errors.isEmpty

/-- Both findings, in order. -/
def append (v w : Validation) : Validation := ⟨v.errors ++ w.errors, v.warnings ++ w.warnings⟩

instance : Append Validation := ⟨append⟩

/-- All errors as one failure; none when the settings are valid. -/
def failure? (v : Validation) : Option Failure :=
  match v.errors with
  | [] => none
  | e :: es => some (es.foldl (fun f e => .joined f e.failure) e.failure)

/-- The messages, errors first. -/
def messages (v : Validation) : List String :=
  v.errors.map ("error: " ++ ·.message) ++ v.warnings.map ("warning: " ++ ·.message)

def toJson (v : Validation) : Json :=
  .obj [("valid", .bool v.isValid), ("has_warnings", .bool !v.warnings.isEmpty),
    ("errors", .arr (v.errors.map FieldIssue.toJson)),
    ("warnings", .arr (v.warnings.map FieldIssue.toJson)),
    ("error", (v.failure?.map Failure.toJson).getD .null), ("messages", .arr (v.messages.map .str))]

end Validation

namespace Settings

/-- An error in a field if the test holds. -/
def errorIf (bad : Bool) (field : String) (fault : FieldFault) (file : String := "") :
    List FieldIssue :=
  if bad then [⟨field, file, fault⟩] else []

/-- The front ends. -/
def frontEnds : List String := ["solc", "foundry"]

/-- Faults of the fields that hold one value. -/
def checkFields (s : Settings) : Validation where
  errors :=
    errorIf (OutputFormat.parse? s.format).isNone "format" (.unknownFormat s.format)
    ++ errorIf (s.frontEnd != "" && !frontEnds.contains s.frontEnd) "parser"
        (.unknownFrontEnd s.frontEnd)
    ++ errorIf (s.jobs < 0) "jobs" .negativeJobs
    ++ errorIf (s.solcTimeout.nanoseconds < 0) "solc_timeout" .negativeTimeout

/-- Faults of the entry of number `i`, where `before` are those in front of it. -/
def checkEntry (registry : Option Registry) (file : String) (before : List RuleEntry) (i : Nat)
    (e : RuleEntry) : Validation :=
  let field := "rules[" ++ Nat.repr i ++ "]"
  if e.id == "" then { errors := [⟨field ++ ".id", file, .missingRuleId⟩] }
  else
    { errors :=
        errorIf (registry.any fun r => (r.get? e.id).isNone) (field ++ ".id") (.unknownRule e.id) file
        ++ errorIf (!e.severity.isValid) (field ++ ".severity") (.invalidSeverity e.severity) file
      warnings := match before.findIdx? (·.id == e.id) with
        | some first => [⟨field, file, .repeatedRule e.id first⟩]
        | none => [] }

/-- Faults of the rules. -/
def checkRules (registry : Option Registry) (s : Settings) : Validation :=
  let rules := s.ruleSet.rules
  let found := rules.mapIdx fun i e => checkEntry registry s.ruleSetPath (rules.take i) i e
  found.foldl (· ++ ·) {}
    ++ { warnings := errorIf rules.isEmpty "rules" .noRules s.ruleSetPath }

/-- Faults of the pattern of number `i`. -/
def checkPattern (i : Nat) (pattern : String) : Validation :=
  let field := "ignore[" ++ Nat.repr i ++ "]"
  if trimSpace pattern == "" then { warnings := [⟨field, "", .emptyPattern⟩] }
  else { errors := errorIf (Glob.ofPattern? pattern).isNone field .invalidPattern }

/-- Checks settings.  Without a registry any rule is taken as known. -/
def validate (registry : Option Registry) (s : Settings) : Validation :=
  s.checkFields ++ s.checkRules registry
    ++ ((s.ignoring.getD []).mapIdx checkPattern).foldl (· ++ ·) {}

end Settings

end SolidityLint
