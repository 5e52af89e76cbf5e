import SolidityLint.Cli.Run

/-!
# The program

Takes up the files below the current directory and those in the directories above it, runs the
command on them, and writes back what the command changed.  A compiler is not started: the program
lints projects whose build output is at hand.
-/

namespace SolidityLint

namespace Disk

/-- What stands somewhere on the disk, as far as it can be read; `depth` bounds how far down. -/
def take : Nat → IO.FS.DirEntry → IO (Option Entry)
  | 0, _ => return none
  | depth + 1, place => do
    try
      let data ← place.path.symlinkMetadata
      match data.type with
      | .dir =>
        let mut children : List (String × Entry) := []
        for below in ← place.path.readDir do
          if let some e ← take depth below then
            children := Entry.setChild below.fileName (some e) children
        return some (.dir children)
      | .symlink => return some (.link (← IO.FS.realPath place.path).toString)
      | .file =>
        let content ← IO.FS.readBinFile place.path
        return some (.file { content, modified := data.modified.sec.toNat })
      | .other => return none
    catch _ => return none

/-- How deep directories are taken up. -/
def maxDepth : Nat := 64

/-- Takes up a directory of the disk, to a depth. -/
def add (depth : Nat) (t : FileTree) (dir : String) : IO FileTree := do
  let t := (t.mkdirs dir).toOption.getD t
  let names := Path.cleanComponents dir
  match ← take depth { root := Path.dir dir, fileName := Path.base dir } with
  | some (.dir children) =>
    return children.foldl (fun t (name, e) =>
      if (t.root.get? (names ++ [name])).isSome then t else t.setAt (names ++ [name]) (some e)) t
  | _ => return t

/-- The files that a run in a directory can need. -/
def snapshot (dir : String) : IO FileTree := do
  let inner ← add maxDepth {} dir
  (Path.ancestors (Path.dir dir)).foldlM (add 2) inner

/-- Writes back the files that a run changed. -/
def restore (old new : FileTree) : IO Unit :=
  (new.changedBelow old "/").forM fun (path, data) => do
    IO.FS.createDirAll (Path.dir path)
    IO.FS.writeBinFile path data.content

end Disk

/-- Runs a command; what is typed is asked for only if the run asks. -/
def execute (host : Host) (files : FileTree) (arguments : List String) :
    IO (Option Trouble × Terminal) := do
  let input ← IO.getStdin
  if !(← input.isTty) then return Cli.run host files arguments
  let first := Cli.run { host with typed := some "" } files arguments
  if first.2.err == "" then return first
  IO.eprint first.2.err
  let (trouble, terminal) := Cli.run { host with typed := some (← input.getLine) } files arguments
  return (trouble, { terminal with err := "" })

end SolidityLint

open SolidityLint

/-- Runs the program in the current directory. -/
def main (arguments : List String) : IO UInt32 := do
  let dir := (← IO.currentDir).toString
  let files ← Disk.snapshot dir
  let mut environment : Environment := []
  for name in "HOME" :: EnvironmentVariable.all.map (·.name) do
    if let some value ← IO.getEnv name then environment := (name, value) :: environment
  let host : Host :=
    { build := ⟨"dev", "none", "unknown"⟩, current := some dir, environment, captured := false }
  let (trouble, terminal) ← execute host files arguments
  Disk.restore files terminal.files
  IO.print terminal.out
  IO.eprint (terminal.err ++ terminal.log ++ Cli.finalLine trouble)
  return UInt32.ofNat (Cli.exitCode trouble)
