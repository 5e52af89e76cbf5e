import SolidityLint.FileTree.Snapshot

/-!
# FileTree — replacing files

A file is replaced by way of a draft, which is made beside it under a name that is free, written, and
given the place of the file, so that at every moment either the old or the new content stands there.
When a step fails the draft is removed.  `tryReplace` and `tryBackup` say what becomes of the files
in either case; `replace` and `backup` are for callers that go on only if it worked.
-/

namespace SolidityLint

/-- The steps in which a file is replaced; to copy one, it is read before them. -/
inductive ReplaceStep where
  | read | create | write | sync | close | chmod | rename
deriving DecidableEq, Repr

/-- What the system refuses to do though the tree allows it, as when the disk is full or rights are
missing: the trouble of a step on the way to replacing or copying the file of a path.  That a draft
can be removed after a step has failed is taken for granted. -/
abbrev Refusals := ReplaceStep → String → Option FileTrouble

/-- All is allowed. -/
def Refusals.none : Refusals := fun _ _ => .none

/-- The path of a draft as messages give it. -/
def draftPath (path : String) : String :=
  let dir := Path.dir path
  (if dir == "/" then dir else dir ++ "/") ++ Path.base path ++ ".tmp.N"

/-- What the system calls a step. -/
def ReplaceStep.operation : ReplaceStep → String
  | .read | .create => "open"
  | .write => "write"
  | .sync => "sync"
  | .close => "close"
  | .chmod => "chmod"
  | .rename => "rename"

/-- A step fails. -/
def ReplaceStep.failure (s : ReplaceStep) (path : String) (trouble : FileTrouble) : Failure :=
  match s with
  | .read => .within "read original for backup" (.file s.operation path trouble)
  | .create => .within "create temp file" (.file s.operation (draftPath path) trouble)
  | .rename => .within "rename temp file" (.file (s.operation ++ " " ++ draftPath path) path trouble)
  | s => .within (s.operation ++ " temp file") (.file s.operation (draftPath path) trouble)

/-- The stem with a number behind it. -/
def numbered (stem : String) (n : Nat) : String := stem ++ ".tmp." ++ Nat.repr n

/-- The stem with the first number behind it that makes it none of the names taken. -/
def draftName (stem : String) (taken : List String) : String :=
  numbered stem (((List.range (taken.length + 1)).find? fun n =>
    !taken.contains (numbered stem n)).getD 0)

/-- A file with other permissions. -/
def Entry.withMode (mode : Nat) : Entry → Entry
  | .file data => .file { data with mode }
  | e => e

/-- The result of what worked, and the files then. -/
def settled {α : Type} : Except Failure α × FileTree → Except Failure (α × FileTree)
  | (.ok a, t) => .ok (a, t)
  | (.error e, _) => .error e

namespace FileTree

/-- The names of what stands in a directory. -/
def namesIn (t : FileTree) (dir : List String) : List String :=
  match t.root.get? dir with
  | some (.dir children) => children.map (·.1)
  | _ => []

/-- Makes an empty draft beside a file: where it stands, and the files then. -/
def createDraft (t : FileTree) (path : String) : Except FileTrouble (List String × FileTree) := do
  let (dir, stem) ← t.parentOf path
  -- Beside the root there is no place.
  if stem == "/" then .error .isDirectory
  else
    let draft := dir ++ [draftName stem (t.namesIn dir)]
    .ok (draft, t.setAt draft (some (.file ⟨.empty, t.now, 0o600⟩)))

/-- What a step with a draft makes of the files, if it is not refused. -/
def perform (t : FileTree) (draft : List String) (path : String) (content : ByteArray) (mode : Nat) :
    ReplaceStep → Except FileTrouble FileTree
  | .write => .ok (t.setAt draft (some (.file ⟨content, t.now, 0o600⟩)))
  | .chmod => .ok (t.setAt draft ((t.root.get? draft).map (·.withMode mode)))
  | .rename => t.rename draft path
  | .read | .create | .sync | .close => .ok t

/-- Takes steps with a draft until one fails: why it did, and the files then. -/
def carryOut (refuse : Refusals) (draft : List String) (path : String) (content : ByteArray)
    (mode : Nat) : List ReplaceStep → FileTree → Except Failure Unit × FileTree
  | [], t => (.ok (), t)
  | s :: rest, t =>
    match (refuse s path).elim (t.perform draft path content mode s) .error with
    | .error trouble => (.error (s.failure path trouble), t)
    | .ok t => carryOut refuse draft path content mode rest t

/-- The steps with a draft that has been made. -/
def draftSteps : List ReplaceStep := [.write, .sync, .close, .chmod, .rename]

/-- Replaces the file at a path at once: why that failed, if it did, and the files then. -/
def tryReplace (t : FileTree) (refuse : Refusals) (cancelled : Bool) (path : String)
    (content : ByteArray) (mode : Nat) : Except Failure Unit × FileTree :=
  if cancelled then (.error (calledOff "write atomic"), t)
  else match (refuse .create path).elim (t.createDraft path) .error with
    | .error trouble => (.error (ReplaceStep.create.failure path trouble), t)
    | .ok (draft, drafted) =>
      let mode := if mode = 0 then 0o644 else mode
      match carryOut refuse draft path content mode draftSteps drafted with
      | (.ok (), done) => (.ok (), done)
      | (.error e, left) => (.error e, left.setAt draft none)

/-- Replaces the file at a path at once. -/
def replace (t : FileTree) (cancelled : Bool) (path : String) (content : ByteArray)
    (mode : Nat) : Except Failure FileTree :=
  (settled (t.tryReplace .none cancelled path content mode)).map (·.2)

/-- Replaces the file at a path unless it has the content already; says whether it did. -/
def replaceIfChanged (t : FileTree) (cancelled : Bool) (path : String) (content : ByteArray)
    (mode : Nat) : Except Failure (Bool × FileTree) :=
  match t.read path with
  | .ok old =>
    if old == content then .ok (false, t) else (t.replace cancelled path content mode).map (true, ·)
  | .error f =>
    if f.isOf .notExist then (t.replace cancelled path content mode).map (true, ·)
    else .error (.within "read existing" f)

/-- The path of the copy of a file. -/
def backupPath (path : String) : String := path ++ ".bak"

/-- Copies a file beside itself: the path of the copy, or why that failed, and the files then.
Nothing happens when there is no file. -/
def tryBackup (t : FileTree) (refuse : Refusals) (cancelled : Bool) (path : String) :
    Except Failure String × FileTree :=
  if cancelled then (.error (calledOff "create backup"), t)
  else match t.stat path with
    | .error .notExist => (.ok "", t)
    | .error trouble => (.error (.within "stat original for backup" (.file "stat" path trouble)), t)
    | .ok (.file data) =>
      match refuse .read path with
      | some trouble => (.error (ReplaceStep.read.failure path trouble), t)
      | none =>
        match t.tryReplace refuse false (backupPath path) data.content data.mode with
        | (.ok (), t) => (.ok (backupPath path), t)
        | (.error f, t) => (.error (.within "write backup" f), t)
    | .ok _ => (.error (directoryFailure path), t)

/-- Copies a file beside itself and gives the path of the copy. -/
def backup (t : FileTree) (cancelled : Bool) (path : String) : Except Failure (String × FileTree) :=
  settled (t.tryBackup .none cancelled path)

end FileTree

end SolidityLint
