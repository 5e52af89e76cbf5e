import SolidityLint.FileTree.Basic
import SolidityLint.Ignore.Rules
import SolidityLint.Text.Case

/-!
# Run — options

What a run looks at: the paths it was given, relative to a working directory, the extensions of
source files, and patterns that take files in or leave them out.
-/

namespace SolidityLint

/-- The files that a run works on, and where it stands in them. -/
structure Workspace where
  files : FileTree := {}
  /-- The current directory; absent when it has been removed. -/
  current : Option String := some "/"
deriving Inhabited

/-- The options of a run. -/
structure RunOptions where
  paths : List String := []
  /-- The directory that paths are relative to; the current one when empty. -/
  workingDir : String := ""
  extensions : List String := []
  /-- When there are patterns here, a file has to match them. -/
  including : List String := []
  excluding : List String := []
  /-- The name of ignore files; `-` for none. -/
  ignoreFile : String := ""
  /-- Are links to directories followed? -/
  followLinks : Bool := false
  /-- Are files linted without a look at whether they are Solidity? -/
  skipDetection : Bool := false
deriving Inhabited

namespace RunOptions

/-- The paths to look at: the working directory when none are given. -/
def effectivePaths (o : RunOptions) : List String := if o.paths.isEmpty then ["."] else o.paths

def effectiveExtensions (o : RunOptions) : List String :=
  if o.extensions.isEmpty then [".sol"] else o.extensions

def effectiveIgnoreFile (o : RunOptions) : String :=
  if o.ignoreFile == "" then ".solidhunterignore" else o.ignoreFile

/-- Does the path have one of the extensions, in any case? -/
def hasExtension (o : RunOptions) (path : String) : Bool :=
  let ext := lowerCase (Path.extension path)
  o.effectiveExtensions.any (lowerCase · == ext)

end RunOptions

namespace Workspace

/-- The current directory is gone. -/
def goneFailure : Failure := .marked .notExist (.plain "getwd: no such file or directory")

/-- The current directory, for work that cannot do without. -/
def currentDir (w : Workspace) : Except Failure String :=
  match w.current with
  | some dir => .ok dir
  | none => .error (.within "get working directory" goneFailure)

/-- The directory that the paths of a run are relative to. -/
def workingDir (w : Workspace) (o : RunOptions) : Except Failure String :=
  if o.workingDir == "" then w.currentDir
  else if Path.isAbsolute o.workingDir then .ok (Path.clean o.workingDir)
  else match w.current with
    | some dir => .ok (Path.join [dir, o.workingDir])
    | none => .error (.within "resolve working directory" goneFailure)

end Workspace

/-- The absolute form of a path. -/
def Path.absolute (dir path : String) : String :=
  if Path.isAbsolute path then Path.clean path else Path.join [dir, path]

/-- Directories that are never entered: hidden ones, and installed packages. -/
def isSkippedDir (name : String) : Bool := hasFront "." name || name == "node_modules"

end SolidityLint
