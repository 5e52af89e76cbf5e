import SolidityLint.Cli.Commands
import SolidityLint.Cli.Help
import SolidityLint.Docs.Generate
import SolidityLint.FrontEnd.Foundry
import SolidityLint.FrontEnd.Solc
import SolidityLint.Log.Line
import SolidityLint.Run.Watch

/-!
# Cli — running a command

A run of the program works on files and writes to two streams and a log.  It ends well, with
findings, or with a failure, which is one of the configuration or of something else; the exit code
tells which.
-/

namespace SolidityLint

/-- Which build of the program it is. -/
structure BuildInfo where
  version : String
  commit : String
  date : String

/-- What a run finds around it. -/
structure Host where
  build : BuildInfo
  /-- The current directory; absent when it has been removed. -/
  current : Option String
  environment : Environment := []
  compiler : Compiler := fun _ _ _ _ => .notFound
  /-- What the terminal understands. -/
  profile : Profile := .ascii
  /-- What is typed, if the input is a terminal. -/
  typed : Option String := none
  /-- Is the output of the program taken by another one, which then also takes its notes? -/
  captured : Bool := true
  /-- What cannot be done to files. -/
  refuse : Refusals := .none

/-- The files and the output of a run so far. -/
structure Terminal where
  files : FileTree
  out : String := ""
  err : String := ""
  log : String := ""

/-- Why a run does not end well. -/
inductive Trouble where
  /-- There are findings that fail the run; they are in the report. -/
  | issues
  /-- The configuration or the flags are at fault. -/
  | config (failure : Failure)
  | internal (failure : Failure)

namespace Trouble

/-- The exit code. -/
def code : Trouble → Nat
  | issues => 1
  | config _ => 65
  | internal _ => 70

/-- What went wrong, if it is not in the report. -/
def failure? : Trouble → Option Failure
  | issues => none
  | config f => some f
  | internal f => some f

end Trouble

/-- A step of a run. -/
abbrev CliM := ExceptT Trouble (StateM Terminal)

namespace Cli

def print (s : String) : CliM Unit := modify fun t => { t with out := t.out ++ s }

def printError (s : String) : CliM Unit := modify fun t => { t with err := t.err ++ s }

/-- Writes a line to the log. -/
def log (level : LogLevel) (message : String) (fields : List (String × String)) : CliM Unit :=
  modify fun t => { t with log := t.log ++ Log.line level message fields }

/-- The value, or a failure of the configuration. -/
def configured {α : Type} : Except Failure α → CliM α
  | .ok a => pure a
  | .error e => throw (.config e)

/-- The value, or a failure of another kind. -/
def working {α : Type} : Except Failure α → CliM α
  | .ok a => pure a
  | .error e => throw (.internal e)

/-- The value that a name stands for, or a failure of the configuration with its message. -/
def named {α : Type} (message : String) : Option α → CliM α
  | some a => pure a
  | none => throw (.config (.plain message))

/-- The directory that the run works in. -/
def workingDir (host : Host) (given : GivenFlags) : CliM String := do
  let dir ← working ({ current := host.current : Workspace }.currentDir)
  match given.text "directory" "" with
  | "" => pure dir
  | name =>
    let path := if Path.isAbsolute name then name else Path.join [dir, name]
    match (← get).files.stat path with
    | .error trouble => throw (.config (.within "--directory" (.file "stat" path trouble)))
    | .ok e =>
      if e.isDir then pure path
      else throw (.config (.plain ("--directory: " ++ path ++ " is not a directory")))

/-! ### Commands that tell something -/

/-- Prints the version. -/
def version (host : Host) : CliM Unit :=
  print (Log.line .info Commands.program
    [("version", host.build.version), ("commit", host.build.commit), ("built", host.build.date)])

/-- What is said of a rule. -/
def ruleJson (spec : RuleSpec) (description : String) : Json :=
  .ofOptional [("id", some (.str spec.id)), ("category", some (.str spec.category)),
    ("severity", some (.str spec.severity.name)), ("description", some (.str description)),
    ("default_data", if spec.data.isNull then none else spec.data.toJson?)]

/-- Lists the rules. -/
def rules (given : GivenFlags) : CliM Unit := do
  let registry := Rules.builtin
  let category := given.text "category" ""
  if category != "" && !registry.categories.contains category then
    throw (.config (.plain ("unknown category " ++ quoted category ++ "; valid categories: ["
      ++ String.intercalate " " registry.categories ++ "]")))
  let specs := registry.specs.filter fun s => category == "" || s.category == category
  let description (s : RuleSpec) : String :=
    ((registry.documentation.find? (·.id == s.id)).map (·.description)).getD ""
  match given.text "format" "text" with
  | "json" => print ((Json.arr (specs.map fun s => ruleJson s (description s))).pretty ++ "\n")
  | "text" | "" => print (String.join (specs.map fun s => Log.line .info s.id
      [("category", s.category), ("severity", s.severity.name), ("description", description s)]))
  | format => throw (.config (.plain ("invalid format " ++ quoted format ++ ": must be text or json")))

/-- Writes documentation. -/
def docs (host : Host) (given : GivenFlags) : CliM Unit := do
  let name := given.text "format" "markdown"
  let format ← named (DocsFormat.unknownMessage name) (DocsFormat.parse? name)
  let pages := Rules.builtin.documentation
  let out := given.text "out" ""
  if format = .json && out == "" then print (Docs.json (some pages))
  else
    let dir ← workingDir host given
    let out := if out == "" then Commands.docsDir else out
    let target := if Path.isAbsolute out then out else Path.join [dir, out]
    let (written, files) := Docs.generate (← get).files false target pages format
    modify fun t => { t with files }
    let written ← working written
    log .info "generated documentation"
      [("output", target), ("format", format.name), ("files", Nat.repr written.length)]

/-! ### Creating a rule set -/

/-- A line about each pack. -/
def packList : String :=
  String.join (Rules.packs.map fun p =>
    let count := Nat.repr p.rules.length
    p.name ++ blanks (12 - p.name.length) ++ " " ++ blanks (3 - count.length) ++ count ++ " rules  "
      ++ p.description ++ "\n")

/-- Is what was typed on the first line a yes? -/
def isYes (typed : String) : Bool :=
  let answer := lowerCase (trimSpace (String.ofList (typed.toList.takeWhile (· != '\n'))))
  answer == "y" || answer == "yes"

/-- Makes sure that a file may be replaced. -/
def confirmReplace (host : Host) (path : String) (force : Bool) : CliM Unit := do
  if force then return
  match host.typed with
  | none => throw (.config (.plain ("file " ++ quoted path ++ " already exists; use --force to overwrite")))
  | some typed =>
    printError (path ++ " exists. Overwrite? [y/N] ")
    if !isYes typed then throw (.config (.plain "existing file kept"))

/-- Keeps a copy of a file that is about to be replaced. -/
def keepCopy (host : Host) (path : String) (force : Bool) : CliM Unit := do
  match (← get).files.stat path with
  | .error _ => pure ()
  | .ok _ =>
    confirmReplace host path force
    let (copy, files) := (← get).files.tryBackup host.refuse false path
    modify fun t => { t with files }
    match copy with
    | .error e => throw (.internal (.within ("back up " ++ path) e))
    | .ok copy => log .warn "overwriting existing file" [("path", path), ("output", copy)]

/-- The path of the rule set that is created, in a directory. -/
def targetPath (given : GivenFlags) (dir : String) : String :=
  let output := given.text "output" defaultRuleSetFile
  if Path.isAbsolute output then output else Path.join [dir, output]

/-- The rule set of a pack. -/
def packRules (pack : Rules.Pack) : RuleSet := .ofEntries defaultRuleSetName pack.rules

/-- Writes the rule set of a pack to a file. -/
def writePack (host : Host) (path : String) (pack : Rules.Pack) : CliM Unit := do
  let (saved, files) := RuleSet.trySave (← get).files host.refuse false path (packRules pack)
  modify fun t => { t with files }
  match saved with
  | .error e => throw (.internal (.within "write rule set" e))
  | .ok () =>
    log .info "created rule set"
      [("path", path), ("pack", pack.name), ("rules", Nat.repr pack.rules.length)]

/-- Creates a rule set file from a pack. -/
def init (host : Host) (given : GivenFlags) : CliM Unit := do
  if given.isOn "list-packs" then print packList
  else
    let name := given.text "pack" "recommended"
    let pack ← named ("unknown pack " ++ quoted name ++ "; available packs: "
      ++ String.intercalate ", " Rules.packNames) (Rules.pack? name)
    let path := targetPath given (← workingDir host given)
    keepCopy host path (given.isOn "force")
    writePack host path pack

/-! ### Linting -/

/-- The settings that were given as flags. -/
def overrides (given : GivenFlags) : Settings where
  format := given.text "format" ""
  frontEnd := given.text "parser" ""
  solc := given.text "solc" ""
  solcTimeout := given.duration "solc-timeout"
  jobs := given.int "jobs"
  ignoring := given.texts? "ignore"
  foundryRoot := given.text "foundry-root" ""
  strict := given.isOn "strict"

/-- What gives the trees of sources, and the directory of the sources if it knows one. -/
structure FrontEnd where
  parser : SourceParser
  sources : Option String := none

/-- The front end that settings ask for. -/
def frontEnd (host : Host) (t : FileTree) (s : Settings) (dir : String) : Except Failure FrontEnd :=
  if s.frontEnd == "foundry" then do
    let root ← if s.foundryRoot == "" then FoundryLayout.findRoot t dir
      else .ok (Path.absolute (host.current.getD "/") s.foundryRoot)
    let layout ← FoundryLayout.load t root
    let project := FoundryFrontEnd.indexed ⟨layout, none⟩ t false
    .ok { parser := project.parse t false, sources := some layout.srcDir }
  else .ok { parser := (SolcFrontEnd.ofOptions s.solc s.solcTimeout).parse host.compiler false }

/-- Lints files.  A run that watches for changes is over once it has given its first report. -/
def lint (host : Host) (given : GivenFlags) (paths : List String) : CliM Unit := do
  let watching := given.isOn "watch"
  let dir ← workingDir host given
  let files := (← get).files
  let workspace : Workspace := ⟨files, host.current⟩
  let options : LoadOptions :=
    { workingDir := dir, explicit := given.text "config" "", overrides := some (overrides given) }
  let loaded ← match options.load Rules.builtin workspace host.environment false with
    | .ok loaded => pure loaded
    | .error e => throw (.config (.within "failed to load configuration" e))
  let settings := loaded.settings
  if !watching then
    for warning in loaded.warnings do log .warn warning []
  let (rules, unknown) := Rules.builtin.createRules settings.ruleSet.rules
  if let some e := Failure.ofUnknown? unknown then throw (.config e)
  for rule in rules.filter (!·.fits) do
    log .warn "ignoring invalid rule data" [("rule", rule.entry.id), ("data", rule.entry.data.display)]
  let front ← configured (frontEnd host files settings dir)
  let format ← named (OutputFormat.unknownMessage settings.format) (OutputFormat.parse? settings.format)
  let orderName := given.text "summary-order" "rules"
  let order ← named (OverviewOrder.unknownMessage orderName) (OverviewOrder.parse? orderName)
  let sortName := given.text "summary-sort" "count"
  let sort ← named (SortField.unknownMessage sortName) (SortField.parse? sortName)
  let report : ReportOptions :=
    { format, order, sort, colored := given.text "color" "auto" == "always", profile := host.profile
      context := !given.isOn "no-context", compact := given.isOn "compact", workingDir := dir
      version := host.build.version, rules := Rules.builtin.documentation }
  let run : RunOptions :=
    { paths := if paths.isEmpty then front.sources.toList else paths
      workingDir := dir, excluding := settings.ignoring.getD []
      ignoreFile := if given.isOn "no-ignore-file" then "-" else "" }
  let context := if watching then "watch" else "lint run failed"
  let outcome := (Runner.run { session := { rules } }
    { workspace, options := run, parser := front.parser } false).result
  let result ← match outcome with
    | .ok result => pure result
    | .error e => throw (.internal (.within context e))
  print ((Report.write report (some result)).map (·.output) |>.getD "")
  if watching then
    match Watch.start workspace run with
    | .ok _ => pure ()
    | .error e => throw (.internal (.within context e))
  else if result.hasFailures settings.strict then throw .issues

/-! ### Help, and finding the command -/

/-- Prints the help of a command; `own` are its flags without those of all commands. -/
def help (host : Host) (given : GivenFlags) (path : List String) (c : Command) (own : List Flag) :
    CliM Unit :=
  let styles : Help.HelpStyles := ⟨host.profile, given.text "color" "auto" == "always"⟩
  let isRoot := path.length ≤ 1
  print (Help.render styles path c (if isRoot then own ++ Commands.shared else own)
    (if isRoot then [] else Commands.shared))

/-- The flags of a command itself, with the one that asks for its help. -/
def ownFlags (c : Command) : List Flag := c.flags ++ [Commands.helpFlag c.name]

/-- A list of texts between brackets, each in quotes that need no escapes if it can. -/
def topicList (topics : List String) : String :=
  let quoteTopic (s : String) : String :=
    if s.toList.all fun c => c != '\x60' && c != '\uFEFF' && (c == '\t' || 0x20 ≤ c.toNat) && c.toNat != 0x7F
    then "\x60" ++ s ++ "\x60" else quoted s
  "[" ++ String.intercalate " " (topics.map quoteTopic) ++ "]"

/-- Prints the help of the command that arguments name. -/
def helpOn (host : Host) (given : GivenFlags) (topics : List String) : CliM Unit :=
  match Commands.root.find Commands.shared topics with
  | .ok found => help host given found.path found.command (ownFlags found.command)
  | .error _ => do
    let note := "Unknown help topic " ++ topicList topics ++ "\n"
    if host.captured then print note else printError note
    help host given [Commands.program] Commands.root []

/-- Runs a command that was found, with its flags and arguments. -/
def execute (host : Host) (path : List String) (given : GivenFlags) (arguments : List String) :
    CliM Unit :=
  match path with
  | [_, "lint"] => lint host given arguments
  | [_, "rules"] => rules given
  | [_, "docs"] => docs host given
  | [_, "init"] => init host given
  | [_, "version"] => version host
  | [_, "help"] => helpOn host given arguments
  | _ => match arguments with
    | a :: _ => throw (.internal (.plain ("unknown command " ++ quoted a ++ " for "
        ++ quoted (String.intercalate " " path))))
    | [] => pure ()

/-- Finds the command that the arguments name, reads its flags and runs it. -/
def main (host : Host) (arguments : List String) : CliM Unit :=
  match Commands.root.find Commands.shared arguments with
  | .error message => throw (.internal (.plain message))
  | .ok found =>
    let own := ownFlags found.command
    match Flags.parse (own ++ Commands.shared) found.arguments with
    | .error fault => throw (.config (.plain fault.message))
    | .ok (given, rest) =>
      if given.isOn "help" || !found.command.runs then help host given found.path found.command own
      else execute host found.path given rest

/-- Runs the program on files: why it did not end well, if so, and what is there then. -/
def run (host : Host) (files : FileTree) (arguments : List String) : Option Trouble × Terminal :=
  match (main host arguments).run { files } with
  | (.ok (), t) => (none, t)
  | (.error e, t) => (some e, t)

/-- The exit code of a run. -/
def exitCode (trouble : Option Trouble) : Nat := (trouble.map Trouble.code).getD 0

/-- The last line of a run that failed, for those who see only its streams. -/
def finalLine (trouble : Option Trouble) : String :=
  match trouble.bind Trouble.failure? with
  | some f => Log.line .error "command failed" [("error", f.text)]
  | none => ""

end Cli

end SolidityLint
