import SolidityLint.Config.Settings

/-!
# Config — the environment

Variables of the environment that set settings.  Blank ones count as unset.
-/

namespace SolidityLint

/-- The variables of the environment by name. -/
abbrev Environment := List (String × String)

/-- A variable that settings are taken from. -/
structure EnvironmentVariable where
  name : String
  /-- What the variable sets. -/
  description : String
  /-- Lays a value over settings. -/
  apply : String → Settings → Except Failure Settings

namespace EnvironmentVariable

/-- The elements of a list with commas, without blank ones. -/
def elements (value : String) : List String :=
  ((splitAtChar ',' value.toList).map fun cs => trimSpace (String.ofList cs)).filter (· != "")

/-- A value that is no integer. -/
def badInteger (variableName value : String) : Failure :=
  .plain ("invalid integer for " ++ variableName ++ ": " ++ quoted value)

/-- A value that is no length of time. -/
def badDuration (variableName value : String) : Failure :=
  .plain ("invalid duration for " ++ variableName ++ ": " ++ quoted value)

/-- The variables, by name. -/
def all : List EnvironmentVariable := [
  ⟨"SOLIDHUNTER_FORMAT", "Output format: text, table, json, sarif, or summary",
    fun v s => .ok { s with format := lowerCase v }⟩,
  ⟨"SOLIDHUNTER_IGNORE", "Comma-separated list of ignore patterns",
    fun v s => .ok { s with ignoring := some (elements v) }⟩,
  ⟨"SOLIDHUNTER_JOBS", "Number of parallel workers (0 = auto)",
    fun v s => match Integer.read v with
      | .ok n => .ok { s with jobs := n }
      | .error _ => .error (badInteger "SOLIDHUNTER_JOBS" v)⟩,
  ⟨"SOLIDHUNTER_PARSER", "AST front-end: solc or foundry",
    fun v s => .ok { s with frontEnd := lowerCase v }⟩,
  ⟨"SOLIDHUNTER_SOLC", "Path to the solc executable", fun v s => .ok { s with solc := v }⟩,
  ⟨"SOLIDHUNTER_SOLC_TIMEOUT", "Timeout per solc run, e.g. 30s or 2m",
    fun v s => match Duration.parse v with
      | .ok d => .ok { s with solcTimeout := d }
      | .error _ => .error (badDuration "SOLIDHUNTER_SOLC_TIMEOUT" v)⟩]

end EnvironmentVariable

/-- Lays what the environment says over settings. -/
def Settings.withEnvironment (env : Environment) (s : Settings) : Except Failure Settings :=
  EnvironmentVariable.all.foldlM (fun s v =>
    let value := trimSpace ((env.lookup v.name).getD "")
    if value == "" then .ok s else v.apply value s) s

end SolidityLint
