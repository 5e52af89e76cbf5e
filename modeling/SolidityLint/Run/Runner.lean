import SolidityLint.FileTree.Snapshot
import SolidityLint.Ignore.Files
import SolidityLint.Library.Language.Solidity
import SolidityLint.Lint.Session
import SolidityLint.Run.Discovery
import SolidityLint.Run.Outcome

/-!
# Run — runs over directories

A runner lints the source files of a directory again and again.  It keeps the files of the last run,
so a file that has not changed since is not parsed again.
-/

namespace SolidityLint

/-- What is kept of a file between runs. -/
structure Kept where
  info : Snapshot
  outcome : FileOutcome
deriving Inhabited

/-- A session and what is kept of the files of the last run, by path. -/
structure Runner where
  session : Session
  kept : List (String × Kept) := []

/-- What a run works with. -/
structure RunContext where
  workspace : Workspace
  options : RunOptions
  parser : SourceParser
  /-- The ignore files of this run. -/
  ignored : IgnoreRules := {}
  /-- Is the run called off while the file of this path is being parsed? -/
  interrupts : String → Bool := fun _ => false

/-- A run in progress. -/
structure RunState where
  runner : Runner
  /-- The paths that the parser was asked for, last first. -/
  asked : List String := []
  cancelled : Bool := false

namespace Runner

/-- Forgets a file altogether. -/
def forget (r : Runner) (path : String) : Runner :=
  { session := r.session.remove path, kept := r.kept.filter (·.1 != path) }

/-- Keeps the outcome of a file. -/
def keep (r : Runner) (path : String) (k : Kept) : Runner :=
  { r with kept := (path, k) :: r.kept.filter (·.1 != path) }

/-- Forgets the files that are not among the given ones. -/
def forgetMissing (r : Runner) (files : List String) : Runner :=
  { session := { r.session with files := r.session.files.filter (files.contains ·.path) }
    kept := r.kept.filter fun k => files.contains k.1 }

/-- The outcome of a file that has not changed since the last run, with its tree if it was
parsed. -/
def reuse? (r : Runner) (t : FileTree) (cancelled : Bool) (path : String) :
    Option (FileOutcome × Option SourceFile) :=
  match r.kept.lookup path with
  | none => none
  | some k =>
    match t.changed cancelled (some k.info) with
    | .ok false =>
      if k.outcome.error.isSome || k.outcome.skipped then some (k.outcome, none)
      else (r.session.file? path).map fun f => (k.outcome, some f)
    | _ => none

end Runner

namespace RunState

/-- Looks at one file: it is ignored, known from the last run, unreadable, not Solidity, or
parsed. -/
def look (c : RunContext) (s : RunState) (path : String) :
    FileOutcome × Option SourceFile × RunState :=
  if c.ignored.ignores path then
    ({ path, excluded := true, result := some { file := some (.ofBytes path .empty none) } }, none,
      { s with runner := s.runner.forget path })
  else match s.runner.reuse? c.workspace.files s.cancelled path with
    | some (outcome, file) => (outcome, file, s)
    | none =>
      match c.workspace.files.readSnapshot s.cancelled path with
      | .error e => ({ path, error := some e }, none, { s with runner := s.runner.forget path })
      | .ok (content, info) =>
        if !c.options.skipDetection && !Language.isSolidity path content then
          let outcome : FileOutcome := { path, skipped := true }
          (outcome, none, { s with runner := (s.runner.forget path).keep path ⟨info, outcome⟩ })
        else
          let cancelled := s.cancelled || c.interrupts path
          let s := { s with asked := path :: s.asked, cancelled }
          let parser : SourceParser := fun p b => if cancelled then .error .cancelled else c.parser p b
          match s.runner.session.parse parser path content with
          | .error e =>
            let outcome : FileOutcome := { path, error := some e }
            (outcome, none, { s with runner := (s.runner.forget path).keep path ⟨info, outcome⟩ })
          | .ok (file, session) =>
            let outcome : FileOutcome := { path }
            (outcome, some file, { s with runner := { s.runner with session }.keep path ⟨info, outcome⟩ })

/-- Parsing was called off. -/
def calledOff : Failure := .within "parse cancelled" .cancelled

/-- Looks at the files one after the other, until the run is called off. -/
def lookAll (c : RunContext) (s : RunState) :
    List String → Except Failure (List (FileOutcome × Option SourceFile)) × RunState
  | [] => (if s.cancelled then .error calledOff else .ok [], s)
  | path :: rest =>
    if s.cancelled then (.error calledOff, s)
    else
      let (outcome, file, s) := look c s path
      let (outcomes, s) := lookAll c s rest
      (outcomes.map ((outcome, file) :: ·), s)

end RunState

/-- What a run came to. -/
structure RunReport where
  result : Except Failure RunResult
  runner : Runner
  /-- The paths that the parser was asked for, in order. -/
  asked : List String

namespace Runner

/-- The outcome of a file, with its findings if it was parsed. -/
def lintOutcome (s : Session) : FileOutcome × Option SourceFile → FileOutcome
  | (outcome, none) => outcome
  | (outcome, some file) => { outcome with result := some (lintFile s.rules file s.files) }

/-- Finds the source files, parses those that changed, and lints all of them. -/
def run (r : Runner) (c : RunContext) (cancelled : Bool) : RunReport :=
  let found : Except Failure (List String × IgnoreRules) := do
    let files ← discover c.workspace c.options cancelled
    match loadIgnoreFiles c.workspace c.options cancelled with
    | .ok ignored => .ok (files, ignored)
    | .error e => .error (.within "loading ignore files" e)
  match found with
  | .error e => ⟨.error e, r, []⟩
  | .ok (files, ignored) =>
    let r := { r with session := { r.session with excluded := ignored.ignores } }.forgetMissing files
    match RunState.lookAll { c with ignored } { runner := r, cancelled } files with
    | (.error e, s) => ⟨.error e, s.runner, s.asked.reverse⟩
    | (.ok outcomes, s) =>
      ⟨.ok (.ofOutcomes (outcomes.map (lintOutcome s.runner.session))), s.runner, s.asked.reverse⟩

end Runner

end SolidityLint
