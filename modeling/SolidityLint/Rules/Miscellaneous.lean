import SolidityLint.Rules.BestPractices

/-!
# Rules — miscellaneous
-/

namespace SolidityLint

namespace Rules

/-- The category of this module's rules. -/
def miscellaneous : String := "miscellaneous"

def duplicateContractNameInfo : Info where
  id := "duplicate-contract-name"
  category := miscellaneous
  description := "Contract, interface and library names must be unique across the project."
  page := "miscellaneous"
  bad := [⟨"Token declared in two files",
    "// a.sol\ncontract Token \x7b\x7d\n// b.sol\ncontract Token \x7b\x7d"⟩]

/-- Notes the name of a contract with the path of its file, unless the name is there already. -/
def noteName (path : String) (declared : List (String × String)) (c : Cursor) :
    List (String × String) :=
  if (declared.lookup c.node.name).isSome then declared else (c.node.name, path) :: declared

/-- Notes the names of an entry of the project.  An entry may lack a file and a file its tree, and
the file at the path itself does not count. -/
def noteNames (path : String) (declared : List (String × String)) :
    Option SourceFile → List (String × String)
  | none => declared
  | some g =>
    if g.path == path || g.root.isNone then declared
    else (contracts g).foldl (noteName g.path) declared

/-- The names that the other files of the project declare, each with the path of the first file that
does. -/
def declaredElsewhere (path : String) (files : List (Option SourceFile)) : List (String × String) :=
  files.foldl (noteNames path) []

/-- Contracts whose name another file of the project declares too; the first such file is named. -/
def duplicateContractName (f : SourceFile) (files : List (Option SourceFile)) : List Finding :=
  if (contracts f).isEmpty then []
  else
    let declared := declaredElsewhere f.path files
    (contracts f).filterMap fun c =>
      (declared.lookup c.node.name).map fun path =>
        f.findingAtName c.node
          ("Contract name " ++ c.node.name ++ " is already declared in " ++ path)

/-- The rules of this category. -/
def miscellaneousSpecs : List RuleSpec := [
  duplicateContractNameInfo.specWith fun _ =>
    (fun f files => some (duplicateContractName f (files.map some)), true)]

end Rules

end SolidityLint
