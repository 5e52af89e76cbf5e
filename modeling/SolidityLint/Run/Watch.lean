import SolidityLint.Run.Runner

/-!
# Run — watching for changes

A watch knows the directories in which changes are noticed.  A change leads to a new run when it
concerns a source file or an ignore file, or when a directory appears; a directory that appears is
watched from then on.  The run waits until nothing more happens for a while.
-/

namespace SolidityLint

/-- What is reported of a path: one thing that happened to it, or several. -/
structure FileEvent where
  path : String
  /-- Something new stands at the path. -/
  create : Bool := false
  write : Bool := false
  remove : Bool := false
  /-- What stood at the path goes by another one now. -/
  rename : Bool := false
  /-- The permissions changed. -/
  chmod : Bool := false
deriving DecidableEq, Repr

/-- Did the permissions change, and nothing else? -/
def FileEvent.onlyChmod (e : FileEvent) : Bool :=
  e.chmod && !(e.create || e.write || e.remove || e.rename)

/-- The directories in which changes are noticed. -/
structure Watch where
  options : RunOptions
  excluding : IgnoreRules
  dirs : List String := []

namespace Watch

/-- The directory and those below it that a run would enter. -/
def treeDirs (w : Watch) (t : FileTree) (root : String) : List String :=
  ((t.walk (fun path name => isSkippedDir name || w.excluding.ignores path) root).filter
    (·.entry.isDir)).map (·.path)

/-- Watches a directory and those below it. -/
def addTree (w : Watch) (t : FileTree) (root : String) : Watch :=
  { w with dirs := sortedOnce (w.dirs ++ w.treeDirs t root) }

/-- Watches the directories of the paths of a run. -/
def start (ws : Workspace) (o : RunOptions) : Except Failure Watch := do
  let dir ← ws.workingDir o
  let w : Watch := { options := o, excluding := .ofPatterns dir o.excluding }
  o.effectivePaths.foldlM (fun w path =>
    let full := Path.absolute dir path
    match ws.files.stat full with
    | .error trouble => .error (.within ("stat " ++ path) (.file "stat" full trouble))
    | .ok (.dir _) => .ok (w.addTree ws.files full)
    | .ok _ => .ok (w.addTree ws.files (Path.dir full))) w

/-- Can an event change what a run gives, as far as the name of its path tells? -/
def concerns (w : Watch) (e : FileEvent) : Bool :=
  !e.onlyChmod
    && (Path.base e.path == w.options.effectiveIgnoreFile || w.options.hasExtension e.path)

/-- Takes an event in, in the tree as it is now: is a run due? -/
def handle (w : Watch) (t : FileTree) (e : FileEvent) : Bool × Watch :=
  if e.create && t.isDir e.path then (true, w.addTree t e.path) else (w.concerns e, w)

/-- Is a change at the path noticed? -/
def notices (w : Watch) (path : String) : Bool := w.dirs.contains (Path.dir path)

/-- Something appeared at a path, in the tree as it is now: is a run due? -/
def appeared (w : Watch) (t : FileTree) (path : String) : Bool × Watch :=
  if w.notices path then w.handle t { path, create := true } else (false, w)

/-- What stood at a path was removed with all below it; `before` is the tree with it.  Is a run
due? -/
def removed (w : Watch) (before : FileTree) (path : String) : Bool × Watch :=
  let gone := (before.walk (fun _ _ => false) path).map (·.path)
  (gone.any fun p => (w.notices p || w.dirs.contains p) && w.concerns { path := p, remove := true },
    { w with dirs := w.dirs.filter fun d => !gone.contains d })

/-- The permissions of a path changed: is a run due? -/
def permissionsChanged (w : Watch) (path : String) : Bool :=
  w.notices path && w.concerns { path, chmod := true }

end Watch

/-- A watch between two runs. -/
structure WatchLoop where
  watch : Watch
  /-- The paths of the changes since the last run. -/
  pending : List String := []

namespace WatchLoop

/-- Is a run to come? -/
def scheduled (l : WatchLoop) : Bool := !l.pending.isEmpty

/-- Takes an event in. -/
def handle (l : WatchLoop) (t : FileTree) (e : FileEvent) : WatchLoop :=
  let (due, watch) := l.watch.handle t e
  { watch, pending := if due && !l.pending.contains e.path then e.path :: l.pending else l.pending }

/-- Nothing has happened for a while: the run starts. -/
def settle (l : WatchLoop) : WatchLoop := { l with pending := [] }

end WatchLoop

end SolidityLint
