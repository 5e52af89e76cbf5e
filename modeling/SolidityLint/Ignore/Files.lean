import SolidityLint.Position.Basic
import SolidityLint.Run.Options
import SolidityLint.Text.Utf8

/-!
# Ignore — files

An ignore file holds one pattern on each line, relative to its own directory.  `loadIgnoreFiles`
gathers the rules of all ignore files below the paths of a run, in the order in which a walk comes to
them.
-/

namespace SolidityLint

/-- A line of this many bytes is not read, nor are those behind it. -/
def lineLimit : Nat := 65536

/-- The patterns of an ignore file: its lines without blank ones and comments. -/
def ignorePatternsOf (bytes : ByteArray) : List String :=
  let lines := (bytes.data.toList.splitOn newline).takeWhile (·.length < lineLimit)
  (lines.map fun l => trimSpace (textOfBytes l.toByteArray)).filter fun l => l != "" && !hasFront "#" l

/-- The patterns of an ignore file with the given text. -/
def ignorePatterns (text : String) : List String := ignorePatternsOf text.toUTF8

/-- The rules of the ignore files below a directory. -/
def ignoreRulesBelow (t : FileTree) (name dir : String) (rules : IgnoreRules) : IgnoreRules :=
  (t.walk (fun _ name => isSkippedDir name) dir).foldl (fun rules v =>
    if v.entry.isDir || v.name != name then rules
    else match t.read v.path with
      | .ok content => rules.add (Path.dir v.path) (ignorePatternsOf content)
      | .error _ => rules) rules

/-- The rules of all ignore files below the directories that a run looks at. -/
def loadIgnoreFiles (w : Workspace) (o : RunOptions) (cancelled : Bool) :
    Except Failure IgnoreRules :=
  if o.effectiveIgnoreFile == "-" then .ok {}
  else do
    let dir ← w.workingDir o
    let roots := (o.effectivePaths.map (Path.absolute dir)).filter w.files.isDir
    if cancelled && !roots.isEmpty then .error .cancelled
    else .ok (roots.foldl (fun rules r =>
      ignoreRulesBelow w.files o.effectiveIgnoreFile r rules) {})

end SolidityLint
