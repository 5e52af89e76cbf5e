import SolidityLint.Text.Case
import SolidityLint.Text.Quoted
import SolidityLint.Text.Space

/-!
# Lint — severities

A severity is known by its name.  Four names are valid; a rule set can only hold those, but a
finding that comes from elsewhere may carry any text.
-/

namespace SolidityLint

/-- How much a finding matters, by name. -/
structure Severity where
  name : String
deriving DecidableEq, Repr, Inhabited

namespace Severity

def error : Severity := ⟨"ERROR"⟩
def warning : Severity := ⟨"WARNING"⟩
def info : Severity := ⟨"INFO"⟩
def hint : Severity := ⟨"HINT"⟩

/-- The severity that nothing set. -/
def unset : Severity := ⟨""⟩

/-- The valid severities, the most severe first. -/
def all : List Severity := [error, warning, info, hint]

/-- Is it one of the four? -/
def isValid (s : Severity) : Bool := all.contains s

/-- The rank from one, the most severe, to four; zero for a name that is not valid. -/
def level (s : Severity) : Nat :=
  if s = error then 1 else if s = warning then 2 else if s = info then 3 else if s = hint then 4 else 0

/-- As severe or more; never with a name that is not valid. -/
def atLeast (s t : Severity) : Bool := s.isValid && t.isValid && s.level ≤ t.level

/-- Reads the name of a severity in any case. -/
def parse? (s : String) : Option Severity :=
  let sev : Severity := ⟨upperCase (trimSpace s)⟩
  if sev.isValid then some sev else none

/-- The message about a name that is none. -/
def unknownMessage (s : String) : String :=
  "invalid severity " ++ quoted s ++ " (want ERROR, WARNING, INFO or HINT)"

end Severity

end SolidityLint
