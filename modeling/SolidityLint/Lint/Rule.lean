import SolidityLint.Config.Data
import SolidityLint.Lint.Diagnostic
import SolidityLint.Source.File

/-!
# Lint — rules

A rule looks at one file, with the files of the project around it, and gives its findings in
document order.  What it finds depends on nothing else but its options.  A rule may break on a
tree that it does not expect; that is an outcome of its own and never a finding.
-/

namespace SolidityLint

/-- A line of a rule set: a rule that is on, its severity and its options. -/
structure RuleEntry where
  id : String
  severity : Severity
  data : Data := .null
deriving Inhabited

/-- The JSON form of an entry; `none` when the options have none. -/
def RuleEntry.toJson? (e : RuleEntry) : Option Json :=
  e.data.toJson?.map fun data =>
    .ofOptional [("id", some (.str e.id)), ("severity", some (.str e.severity.name)),
      ("data", if e.data.isNull then none else some data)]

/-- A place and what is wrong there. -/
structure Finding where
  range : Range
  message : String
deriving DecidableEq, Repr

/-- What a rule finds in a file of a project; `none` when it breaks. -/
abbrev Check := SourceFile → List SourceFile → Option (List Finding)

/-! ### Documentation -/

/-- A setting of a rule. -/
structure OptionDoc where
  description : String
  default : String
deriving DecidableEq, Repr

/-- A sample of code. -/
structure ExampleDoc where
  description : String
  code : String
deriving DecidableEq, Repr

/-- The description of a rule. -/
structure Documentation where
  id : String
  severity : Severity := .unset
  description : String := ""
  category : String := ""
  exampleConfig : String := ""
  sourceLink : String := ""
  testLink : String := ""
  options : List OptionDoc := []
  good : List ExampleDoc := []
  bad : List ExampleDoc := []
deriving DecidableEq, Repr, Inhabited

namespace Documentation

private def nonempty (s : String) : Option Json := if s.isEmpty then none else some (.str s)

private def listed {α : Type} (f : α → Json) (xs : List α) : Option Json :=
  if xs.isEmpty then none else some (.arr (xs.map f))

/-- The JSON form. -/
def toJson (d : Documentation) : Json :=
  let sample (e : ExampleDoc) : Json := .obj [("description", .str e.description), ("code", .str e.code)]
  let setting (o : OptionDoc) : Json :=
    .obj [("description", .str o.description), ("default", .str o.default)]
  .ofOptional [("id", some (.str d.id)), ("severity", some (.str d.severity.name)),
    ("description", some (.str d.description)), ("category", some (.str d.category)),
    ("example_config", some (.str d.exampleConfig)), ("source_link", nonempty d.sourceLink),
    ("test_link", nonempty d.testLink), ("options", listed setting d.options),
    ("examples", some (.ofOptional [("good", listed sample d.good), ("bad", listed sample d.bad)]))]

private def textAt (j : Json) (key : String) : String := ((j.get? key).bind Json.str?).getD ""

private def itemsAt (j : Json) (key : String) : List Json := ((j.get? key).bind Json.arr?).getD []

/-- Reads the JSON form; what is missing is empty. -/
def ofJson (j : Json) : Documentation :=
  let samples (key : String) : List ExampleDoc :=
    (itemsAt ((j.get? "examples").getD .null) key).map fun e =>
      ⟨textAt e "description", textAt e "code"⟩
  { id := textAt j "id", severity := ⟨textAt j "severity"⟩, description := textAt j "description"
    category := textAt j "category", exampleConfig := textAt j "example_config"
    sourceLink := textAt j "source_link", testLink := textAt j "test_link"
    options := (itemsAt j "options").map fun o => ⟨textAt o "description", textAt o "default"⟩
    good := samples "good", bad := samples "bad" }

end Documentation

/-! ### Specifications and rules -/

/-- A rule before it is configured. -/
structure RuleSpec where
  id : String
  category : String
  severity : Severity
  data : Data
  /-- The check that the options give, and whether the options fit; those that do not fit are
  replaced by the default. -/
  configure : Data → Check × Bool
  /-- The description of the rule as an entry configures it. -/
  document : RuleEntry → Documentation

instance : Inhabited RuleSpec := ⟨⟨"", "", .unset, .null, fun _ => (fun _ _ => some [], true),
  fun e => { id := e.id }⟩⟩

/-- The entry of a rule with its default severity and options. -/
def RuleSpec.defaultEntry (s : RuleSpec) : RuleEntry := ⟨s.id, s.severity, s.data⟩

/-- A configured rule. -/
structure Rule where
  entry : RuleEntry
  check : Check
  /-- Did the options fit? -/
  fits : Bool
  documentation : Documentation

instance : Inhabited Rule := ⟨⟨default, fun _ _ => some [], true, default⟩⟩

/-- The rule that an entry configures; without a severity it has that of the specification. -/
def RuleSpec.rule (s : RuleSpec) (e : RuleEntry) : Rule :=
  let entry := if e.severity.name.isEmpty then { e with severity := s.severity } else e
  let (check, fits) := s.configure e.data
  { entry, check, fits, documentation := s.document entry }

/-- The diagnostic of a finding. -/
def Finding.diagnostic (f : Finding) (e : RuleEntry) (file : SourceFile) : Diagnostic :=
  { range := f.range, severity := e.severity, message := f.message, ruleId := e.id, uri := file.path }

/-- The diagnostics of a rule; `none` when it breaks. -/
def Rule.diagnose (r : Rule) (file : SourceFile) (files : List SourceFile) :
    Option (List Diagnostic) :=
  (r.check file files).map (·.map fun f => f.diagnostic r.entry file)

namespace SourceFile

/-- A finding about a whole node. -/
def findingAt (f : SourceFile) (n : Node) (message : String) : Finding := ⟨f.nodeRange n, message⟩

/-- A finding about the name of a node. -/
def findingAtName (f : SourceFile) (n : Node) (message : String) : Finding :=
  ⟨f.nameRange n, message⟩

end SourceFile

end SolidityLint
