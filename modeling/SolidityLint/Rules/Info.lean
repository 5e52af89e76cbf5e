import SolidityLint.Lint.Rule
import SolidityLint.Ast.Views
import SolidityLint.Source.Header
import SolidityLint.Text.Space

/-!
# Rules — descriptions and options

Each built-in rule has a static description, from which its specification and its documentation
are made.  Options are read leniently: what does not fit is replaced by the default, and the rule
says so.
-/

namespace SolidityLint

namespace Rules

/-- The static description of a built-in rule. -/
structure Info where
  id : String
  category : String
  severity : Severity := .warning
  data : Data := .null
  description : String
  /-- The page on which the rule is kept. -/
  page : String
  options : List OptionDoc := []
  good : List ExampleDoc := []
  bad : List ExampleDoc := []

/-- The entry that turns the rule on, as shown to users. -/
def Info.exampleConfig (i : Info) : String :=
  ((RuleEntry.toJson? ⟨i.id, i.severity, i.data⟩).map Json.compact).getD ""

/-- The documentation of the rule as an entry configures it. -/
def Info.document (i : Info) (e : RuleEntry) : Documentation where
  id := i.id
  severity := e.severity
  description := i.description
  category := i.category
  exampleConfig := i.exampleConfig
  sourceLink := "pkg/lint/rules/" ++ i.page ++ ".go"
  testLink := "pkg/lint/rules/testdata/" ++ i.id
  options := i.options
  good := i.good
  bad := i.bad

/-- The specification of a rule that is configured by `configure`. -/
def Info.specWith (i : Info) (configure : Data → Check × Bool) : RuleSpec :=
  { id := i.id, category := i.category, severity := i.severity, data := i.data, configure,
    document := i.document }

/-- The specification of a rule without options that looks at one file at a time.  Nodes and words
that may be missing are read as they are needed, and the rule breaks if one is read that is not
there. -/
def Info.reading (i : Info) (find : SourceFile → Option (List Finding)) : RuleSpec :=
  i.specWith fun _ => (fun f _ => find f, true)

/-- The specification of a rule that looks at one file at a time, with an option. -/
def Info.readingOf {α : Type} (i : Info) (option : Data → α × Bool)
    (find : α → SourceFile → Option (List Finding)) : RuleSpec :=
  i.specWith fun data =>
    let (value, fits) := option data
    (fun f _ => find value f, fits)

/-- The specification of a rule without options that reads nothing that may be missing: the nodes
that it reads come from a walk or from lists without those left out, and it asks for the fields of
others through views that have an answer for a missing node. -/
def Info.spec (i : Info) (find : SourceFile → List Finding) : RuleSpec :=
  i.reading fun f => some (find f)

/-- The specification of such a rule with an option. -/
def Info.specOf {α : Type} (i : Info) (option : Data → α × Bool)
    (find : α → SourceFile → List Finding) : RuleSpec :=
  i.readingOf option fun value f => some (find value f)

/-! ### Options -/

/-- A positive integer. -/
def intOption (default : Int64) (data : Data) : Int64 × Bool :=
  if data.isNull then (default, true)
  else match data.int? with
    | some n => if n > 0 then (n, true) else (default, false)
    | none => (default, false)

/-- One of the allowed texts. -/
def textOption (default : String) (allowed : List String) (data : Data) : String × Bool :=
  if data.isNull then (default, true)
  else match data.str? with
    | some s => if allowed.contains s then (s, true) else (default, false)
    | none => (default, false)

/-- A list of texts. -/
def textsOption (default : List String) (data : Data) : List String × Bool :=
  if data.isNull then (default, true)
  else match data.strs? with
    | some xs => (xs, true)
    | none => (default, false)

/-- A Boolean field of a map; a map without the field gives the default. -/
def flagOption (field : String) (default : Bool) (data : Data) : Bool × Bool :=
  if data.isNull then (default, true)
  else match data.obj? with
    | none => (default, false)
    | some members =>
      match members.lookup field with
      | none => (default, true)
      | some (.bool b) => (b, true)
      | some _ => (default, false)

end Rules

end SolidityLint
