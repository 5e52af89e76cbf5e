import SolidityLint.Digest.Sha256
import SolidityLint.FileTree.Basic
import SolidityLint.Text.Integer

/-!
# FileTree — reading files

`readSnapshot` reads a source file together with what tells later whether it has changed.
-/

namespace SolidityLint

/-- What is remembered of a file that was read. -/
structure Snapshot where
  path : String
  modified : Nat
  size : Nat
  digest : String
deriving DecidableEq, Inhabited

namespace FileTree

/-- The largest file that is read. -/
def maxFileSize : Nat := 8388608

/-- A directory stands where a file was asked for. -/
def directoryFailure (path : String) : Failure :=
  .marked .isDirectory (.plain ("path is a directory: " ++ path))

/-- The work was called off before an activity. -/
def calledOff (activity : String) : Failure := .within activity .cancelled

/-- Reads a source file. -/
def readSnapshot (t : FileTree) (cancelled : Bool) (path : String) :
    Except Failure (ByteArray × Snapshot) :=
  if cancelled then .error (calledOff "read file")
  else match t.stat path with
    | .error .notExist =>
      .error (.marked .notFound (.within ("file not found: " ++ path) (.file "open" path .notExist)))
    | .error trouble => .error (.within ("open " ++ path) (.file "open" path trouble))
    | .ok (.file data) =>
      if maxFileSize < data.content.size then
        .error (.marked .tooLarge (.plain ("file too large: " ++ path ++ " is "
          ++ Nat.repr data.content.size ++ " bytes, limit " ++ Nat.repr maxFileSize)))
      else .ok (data.content, ⟨path, data.modified, data.content.size, sha256 data.content⟩)
    | .ok _ => .error (directoryFailure path)

/-- Has a file changed since it was read?  A file that is gone has. -/
def changed (t : FileTree) (cancelled : Bool) (info : Option Snapshot) : Except Failure Bool :=
  match info with
  | none => .error (.marked .nilFileInfo (.plain "nil FileInfo"))
  | some info =>
    if cancelled then .error (calledOff "check changed")
    else match t.stat info.path with
      | .error .notExist => .ok true
      | .error trouble => .error (.within ("stat " ++ info.path) (.file "stat" info.path trouble))
      | .ok (.file data) =>
        .ok (data.content.size != info.size || data.modified != info.modified
          || sha256 data.content != info.digest)
      | .ok _ => .ok true

end FileTree

end SolidityLint
