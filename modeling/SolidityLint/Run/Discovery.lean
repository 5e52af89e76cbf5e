import SolidityLint.Json.Basic
import SolidityLint.Run.Options

/-!
# Run — finding source files

`discover` lists the source files that a run looks at, in order and each once.  A file that is named
is taken when it has the right extension and the patterns let it through; below a named directory
hidden files and directories are passed over as well.  Links to directories are followed when asked
for: each real directory is walked once, so the search ends however links run.
-/

namespace SolidityLint

/-- What lets a path through. -/
structure Filter where
  options : RunOptions
  including : IgnoreRules
  excluding : IgnoreRules

namespace Filter

/-- The filter of options, with patterns relative to a directory. -/
def ofOptions (dir : String) (o : RunOptions) : Filter :=
  ⟨o, .ofPatterns dir o.including, .ofPatterns dir o.excluding⟩

/-- Is the path a source file to look at? -/
def takes (f : Filter) (path : String) : Bool :=
  f.options.hasExtension path && !f.excluding.ignores path
    && (f.including.rules.isEmpty || f.including.ignores path)

/-- Is a directory left out, given its path and its name? -/
def skips (f : Filter) (path name : String) : Bool := isSkippedDir name || f.excluding.ignores path

end Filter

/-- What a walk through a directory finds. -/
structure Found where
  /-- Source files. -/
  files : List String := []
  /-- Real directories that links lead to. -/
  targets : List String := []

namespace Found

/-- Takes a step of the walk into account. -/
def visit (t : FileTree) (f : Filter) (found : Found) (v : FileTree.Visit) : Found :=
  let take : Found :=
    if hasFront "." v.name || !f.takes v.path then found
    else { found with files := v.path :: found.files }
  match v.entry with
  | .dir _ => found
  | .file _ => take
  | .link _ =>
    match t.realPath v.path with
    | .error _ => found
    | .ok real =>
      if !t.isDir real then take
      else if !f.options.followLinks || f.excluding.ignores v.path then found
      else { found with targets := real :: found.targets }

/-- Walks through a directory without following links. -/
def below (t : FileTree) (f : Filter) (root : String) (found : Found) : Found :=
  (t.walk f.skips root).foldl (visit t f) found

end Found

/-- The number of directories of a tree: no more of them can be walked. -/
def FileTree.dirCount (t : FileTree) : Nat :=
  ((t.walk (fun _ _ => false) "/").filter (·.entry.isDir)).length

/-- Walks through the directories that are still to be walked, given by a path and the real
directory that it means, and through those that links in them lead to.  `left` bounds the number of
directories that were not visited. -/
def walkAll (t : FileTree) (f : Filter) (left : Nat) (visited : List String)
    (todo : List (String × String)) (files : List String) : List String :=
  match todo with
  | [] => files
  | (root, real) :: rest =>
    if visited.contains real then walkAll t f left visited rest files
    else match left with
      | 0 => files
      | left + 1 =>
        let found := Found.below t f root { files }
        walkAll t f left (real :: visited) (found.targets.reverse.map (fun r => (r, r)) ++ rest)
          found.files
termination_by (left, todo.length)

/-- Where the walk through a directory starts: a link gives way to the directory it leads to. -/
def walkRoot (t : FileTree) (dir real : String) : String :=
  match t.lstat dir with
  | .ok (.link _) => real
  | _ => dir

/-- The source files below a directory. -/
def filesUnder (t : FileTree) (f : Filter) (dir : String) : List String :=
  let real := (t.realPath dir).toOption.getD dir
  walkAll t f (t.dirCount + 1) [] [(walkRoot t dir real, real)] []

/-- The texts in order, each once. -/
def sortedOnce (xs : List String) : List String :=
  (lastOfRun (sortByKey (xs.map fun x => (x, ())))).map (·.1)

/-- The source files that a path of a run stands for. -/
def discoverPath (w : Workspace) (f : Filter) (dir : String) (cancelled : Bool) (path : String) :
    Except Failure (List String) :=
  let full := Path.absolute dir path
  if cancelled then .error (.within "discovery cancelled" .cancelled)
  else match w.files.stat full with
    | .error trouble => .error (.within ("stat " ++ path) (.file "stat" full trouble))
    | .ok (.dir _) => .ok (filesUnder w.files f full)
    | .ok _ => .ok (if f.takes full then [full] else [])

/-- The source files that a run looks at. -/
def discover (w : Workspace) (o : RunOptions) (cancelled : Bool) : Except Failure (List String) := do
  let dir ← w.workingDir o
  let found ← o.effectivePaths.mapM (discoverPath w (.ofOptions dir o) dir cancelled)
  .ok (sortedOnce found.flatten)

end SolidityLint
