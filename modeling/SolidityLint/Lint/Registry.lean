import SolidityLint.Lint.Rule

/-!
# Lint — the registry of rules

A registry is built from categories in order.  A rule that is contributed twice counts as it was
contributed last, and rules are listed by id.
-/

namespace SolidityLint

/-- A group of rules that is contributed together. -/
structure Category where
  name : String
  specs : List RuleSpec

/-- The known rules, by id. -/
structure Registry where
  /-- The rules in the order of their ids, each id once. -/
  specs : List RuleSpec
  /-- The names of the categories in the order of their first contribution. -/
  categories : List String
deriving Inhabited

namespace Registry

/-- The rules of a category; one that names no category takes the name of this one. -/
def contributed (c : Category) : List (String × RuleSpec) :=
  c.specs.map fun s => (s.id, if s.category.isEmpty then { s with category := c.name } else s)

/-- The first occurrence of each name. -/
def firstOfName : List String → List String
  | [] => []
  | x :: xs => x :: (firstOfName xs).filter (· != x)

/-- The registry of the given categories. -/
def ofCategories (cs : List Category) : Registry where
  specs := (lastOfRun (sortByKey (cs.flatMap contributed))).map (·.2)
  categories := firstOfName (cs.map (·.name))

/-- The rule of an id. -/
def get? (r : Registry) (id : String) : Option RuleSpec := r.specs.find? (·.id == id)

/-- The ids of the known rules, in order. -/
def ids (r : Registry) : List String := r.specs.map (·.id)

/-- Creates the rule that an entry configures; or else the id is unknown. -/
def createRule (r : Registry) (e : RuleEntry) : Except String Rule :=
  match r.get? e.id with
  | some s => .ok (s.rule e)
  | none => .error e.id

/-- Creates the rules that entries configure, and gives the ids that are unknown.  The entries of
these are passed over. -/
def createRules (r : Registry) : List RuleEntry → List Rule × List String
  | [] => ([], [])
  | e :: entries =>
    let (rules, unknown) := createRules r entries
    match r.createRule e with
    | .ok rule => (rule :: rules, unknown)
    | .error id => (rules, id :: unknown)

/-- The rules that the entries configure, in order; entries of unknown rules are passed over. -/
def rules (r : Registry) (entries : List RuleEntry) : List Rule := (r.createRules entries).1

/-- The ids of the entries that name no known rule, in order. -/
def unknown (r : Registry) (entries : List RuleEntry) : List String := (r.createRules entries).2

/-- An entry for each rule with its default severity and options. -/
def defaultEntries (r : Registry) : List RuleEntry := r.specs.map (·.defaultEntry)

/-- The description of each rule; one that names no category takes that of the rule. -/
def documentation (r : Registry) : List Documentation :=
  r.specs.map fun s =>
    let d := (s.rule s.defaultEntry).documentation
    if d.category.isEmpty then { d with category := s.category } else d

end Registry

/-- The message about entries that name no known rule: one line for each. -/
def unknownRulesMessage (ids : List String) : String :=
  String.intercalate "\n" (ids.map fun id => "unknown rule id " ++ quoted id)

end SolidityLint
