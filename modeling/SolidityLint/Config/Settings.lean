import SolidityLint.Config.RuleSet
import SolidityLint.Time.Duration

/-!
# Config — settings

The settings of a run: the rules that are enabled, how trees are obtained and how findings are
shown.  Settings are laid over each other: those that were given replace those below them.
-/

namespace SolidityLint

/-- The settings of a run.  Names of forms and front ends are kept as they were given; whether they
are valid is asked later. -/
structure Settings where
  ruleSet : RuleSet := {}
  /-- The file that the rule set came from; empty for defaults. -/
  ruleSetPath : String := ""
  /-- Patterns of files to leave out; absent when none were given. -/
  ignoring : Option (List String) := none
  /-- The name of the front end that gives the trees. -/
  frontEnd : String := ""
  /-- The compiler. -/
  solc : String := ""
  /-- The time that the compiler may take for a file. -/
  solcTimeout : Duration := ⟨0⟩
  foundryRoot : String := ""
  /-- The name of the form of the report. -/
  format : String := ""
  /-- The number of workers; zero for as many as there are processors. -/
  jobs : Int64 := 0
  /-- Warnings fail the run. -/
  strict : Bool := false
deriving Inhabited

namespace Settings

/-- The settings with which a rule set is used if nothing else is said. -/
def ofRuleSet (rs : RuleSet) : Settings where
  ruleSet := rs
  frontEnd := "solc"
  solc := "solc"
  solcTimeout := .seconds 30
  format := "text"

/-- A text that was given, or the one below it. -/
def textOver (above below : String) : String := if above == "" then below else above

/-- The settings with those of `above` that were given; the rule set stays. -/
def overriddenBy (below above : Settings) : Settings :=
  { below with
    ignoring := above.ignoring.or below.ignoring
    frontEnd := textOver above.frontEnd below.frontEnd
    solc := textOver above.solc below.solc
    solcTimeout := if above.solcTimeout.nanoseconds == 0 then below.solcTimeout else above.solcTimeout
    foundryRoot := textOver above.foundryRoot below.foundryRoot
    format := textOver above.format below.format
    jobs := if above.jobs == 0 then below.jobs else above.jobs
    strict := above.strict || below.strict }

/-- The settings in a document. -/
def toJson (s : Settings) : Json :=
  .obj [("name", .str s.ruleSet.name), ("rules", .nat s.ruleSet.rules.length),
    ("path", .str s.ruleSetPath), ("ignore", .arr ((s.ignoring.getD []).map .str)),
    ("parser", .str s.frontEnd), ("solc", .str s.solc),
    ("timeout_ns", .int s.solcTimeout.nanoseconds.toInt), ("foundry_root", .str s.foundryRoot),
    ("format", .str s.format), ("jobs", .int s.jobs.toInt), ("strict", .bool s.strict)]

end Settings

end SolidityLint
