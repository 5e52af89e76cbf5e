import SolidityLint.Config.Environment
import SolidityLint.Config.Validation
import SolidityLint.Run.Options

/-!
# Config — finding and loading settings

The rule set is the one that was named, or the one that stands in the directory or the nearest
directory above it, or that of all rules.  Over it go the environment and what was said explicitly.
-/

namespace SolidityLint

/-- The names of rule set files, the preferred one first. -/
def projectFiles : List String := [".solidhunter.json", ".solidhunter.yml", ".solidhunter.yaml"]

/-- Directories that mark the top of a repository. -/
def repositoryMarkers : List String := [".git", ".hg", ".svn"]

/-- The name of the rule set of all rules. -/
def defaultRuleSetName : String := "solidhunter"

/-- The file that a new rule set goes to. -/
def defaultRuleSetFile : String := ".solidhunter.json"

/-- Looks for a rule set file in directories in turn, up to the top of a repository or the home
directory. -/
def findIn (t : FileTree) (home : String) : List String → String
  | [] => ""
  | dir :: above =>
    match (projectFiles.map fun name => Path.join [dir, name]).find? t.isFile with
    | some path => path
    | none =>
      if repositoryMarkers.any fun m => t.isDir (Path.join [dir, m]) then ""
      else if home != "" && dir == home then ""
      else findIn t home above

/-- The home directory; empty, and no bound of a search, when it is not known. -/
def homeOf (env : Environment) : String := (env.lookup "HOME").getD ""

/-- The rule set file for a directory, the current one when empty; empty if there is none. -/
def findProjectFile (w : Workspace) (env : Environment) (cancelled : Bool) (start : String) :
    Except Failure String := do
  let start ← if start == "" then w.currentDir else .ok start
  let dir ← if Path.isAbsolute start then .ok (Path.clean start)
    else match w.current with
      | some dir => .ok (Path.join [dir, start])
      | none => .error (.within "resolve absolute path" Workspace.goneFailure)
  if cancelled then .error (.within "context cancelled" .cancelled)
  else .ok (findIn w.files (homeOf env) (Path.ancestors dir))

/-- How settings are looked for. -/
structure LoadOptions where
  /-- The directory to start from; the current one when empty. -/
  workingDir : String := ""
  /-- The rule set file that was named; empty for none. -/
  explicit : String := ""
  ignoreProject : Bool := false
  ignoreEnvironment : Bool := false
  /-- What was said explicitly. -/
  overrides : Option Settings := none
deriving Inhabited

/-- Settings that were loaded. -/
structure LoadedSettings where
  settings : Settings
  warnings : List String
deriving Inhabited

namespace LoadOptions

/-- The rule set file; empty for the rule set of all rules. -/
def ruleSetPath (o : LoadOptions) (w : Workspace) (env : Environment) (cancelled : Bool)
    (dir : String) : Except Failure String :=
  if o.explicit != "" then
    .ok (if Path.isAbsolute o.explicit then o.explicit else Path.join [dir, o.explicit])
  else if o.ignoreProject then .ok ""
  else match findProjectFile w env cancelled dir with
    | .ok path => .ok path
    | .error e => .error (.within "discover rule set" e)

/-- Loads and checks settings. -/
def load (o : LoadOptions) (registry : Registry) (w : Workspace) (env : Environment)
    (cancelled : Bool) : Except Failure LoadedSettings := do
  let dir ← if o.workingDir == "" then w.currentDir else .ok o.workingDir
  let path ← o.ruleSetPath w env cancelled dir
  let rs ← if path == "" then .ok (.ofEntries defaultRuleSetName registry.defaultEntries)
    else match RuleSet.load w.files path with
      | .ok rs => .ok rs
      | .error e => .error (.within "load rule set" e)
  let base := { Settings.ofRuleSet rs with ruleSetPath := path }
  let base ← if o.ignoreEnvironment then .ok base
    else match base.withEnvironment env with
      | .ok s => .ok s
      | .error e => .error (.within "load environment" e)
  let settings := (o.overrides.map base.overriddenBy).getD base
  let found := settings.validate registry
  match found.failure? with
  | some e => .error e
  | none => .ok ⟨settings, found.warnings.map (·.message)⟩

end LoadOptions

end SolidityLint
