import SolidityLint.Lint.Registry
import SolidityLint.Rules.Miscellaneous
import SolidityLint.Rules.Naming
import SolidityLint.Rules.Order
import SolidityLint.Rules.Security

/-!
# Rules — the built-in rules and packs

`Rules.builtin` is the registry of the built-in rules.  A pack is a rule set to start from.
-/

namespace SolidityLint

namespace Rules

/-- The categories of built-in rules, in order. -/
def categories : List Category := [
  ⟨bestPractices, bestPracticesSpecs⟩,
  ⟨naming, namingSpecs⟩,
  ⟨order, orderSpecs⟩,
  ⟨miscellaneous, miscellaneousSpecs⟩,
  ⟨security, securitySpecs⟩]

/-- The built-in rules. -/
def builtin : Registry := .ofCategories categories

/-- A rule set to start from. -/
structure Pack where
  name : String
  description : String
  rules : List RuleEntry

/-- Default entries with the severity that `pick` gives; `none` leaves a rule out. -/
def entriesWhere (pick : RuleSpec → Option Severity) : List RuleEntry :=
  builtin.specs.filterMap fun s => (pick s).map fun severity => { s.defaultEntry with severity }

/-- The packs. -/
def packs : List Pack := [
  ⟨"recommended", "Every rule at its default severity", entriesWhere fun s => some s.severity⟩,
  ⟨"strict", "Every rule as an error", entriesWhere fun _ => some .error⟩,
  ⟨"relaxed", "Security and best practices as usual, naming and ordering as hints",
    entriesWhere fun s =>
      some (if [naming, order].contains s.category then .hint else s.severity)⟩,
  ⟨"security", "Security rules only, as errors",
    entriesWhere fun s => if s.category == security then some .error else none⟩]

/-- The pack of a name. -/
def pack? (name : String) : Option Pack := packs.find? (·.name == name)

/-- The names of the packs. -/
def packNames : List String := packs.map (·.name)

end Rules

end SolidityLint
