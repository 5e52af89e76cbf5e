import SolidityLint.Failure
import SolidityLint.Path.Basic

/-!
# FileTree — directories, files and links

A file tree is a finite directory with all below it.  Paths are resolved in it component by
component, symbolic links included; a path that runs through too many links is refused, so every
resolution ends.
-/

namespace SolidityLint

/-- A regular file. -/
structure FileData where
  content : ByteArray
  /-- The time of the last change. -/
  modified : Nat := 0
  /-- Permission bits. -/
  mode : Nat := 0o644
deriving Inhabited

/-- What stands at a path.  The children of a directory are in the order of their names. -/
inductive Entry where
  | file (data : FileData)
  | link (target : String)
  | dir (children : List (String × Entry))
deriving Inhabited

namespace Entry

def isDir : Entry → Bool
  | .dir _ => true
  | _ => false

/-- The entry below a chain of names, without following links. -/
def get? : Entry → List String → Option Entry
  | e, [] => some e
  | .dir children, name :: rest => (children.lookup name).bind (·.get? rest)
  | _, _ :: _ => none

/-- Sets or removes a child, keeping the order of the names. -/
def setChild (name : String) (e : Option Entry) : List (String × Entry) → List (String × Entry)
  | [] => (e.map ((name, ·))).toList
  | (k, c) :: rest =>
    if k == name then (e.map ((name, ·))).toList ++ rest
    else if name < k then (e.map ((name, ·))).toList ++ (k, c) :: rest
    else (k, c) :: setChild name e rest

/-- Changes what stands below a chain of names; nothing happens when the chain does not lead through
directories. -/
def update (f : Option Entry → Option Entry) : List String → Option Entry → Option Entry
  | [], e => f e
  | name :: rest, some (.dir children) =>
    some (.dir (setChild name (update f rest (children.lookup name)) children))
  | _ :: _, e => e

end Entry

/-- A file tree and the time of its next change. -/
structure FileTree where
  root : Entry := .dir []
  now : Nat := 1800000000
deriving Inhabited

namespace FileTree

/-- How many links a path may run through. -/
def maxLinks : Nat := 40

/-- Resolves names from the directory `done` on; the result runs through no link, except that a link
at the very end stays when it is not to be followed. -/
def resolveFrom (root : Entry) (followLast : Bool) (links : Nat) (done todo : List String) :
    Except FileTrouble (List String) :=
  match todo with
  | [] => .ok done
  | name :: rest =>
    match root.get? done with
    | some (.dir children) =>
      if name == "." then resolveFrom root followLast links done rest
      else if name == ".." then resolveFrom root followLast links done.dropLast rest
      else match children.lookup name with
        | none => .error .notExist
        | some (.link target) =>
          if rest.isEmpty && !followLast then .ok (done ++ [name])
          else match links with
            | 0 => .error .tooManyLinks
            | links + 1 =>
              resolveFrom root followLast links (if Path.isAbsolute target then [] else done)
                (Path.steps target ++ rest)
        | some _ => resolveFrom root followLast links (done ++ [name]) rest
    | _ => .error .notDirectory
termination_by (links, todo.length)

/-- The names that lead to what a path means, through no link. -/
def resolve (t : FileTree) (path : String) : Except FileTrouble (List String) :=
  resolveFrom t.root true maxLinks [] (Path.steps path)

/-- What a path means, links followed. -/
def stat (t : FileTree) (path : String) : Except FileTrouble Entry := do
  match t.root.get? (← t.resolve path) with
  | some e => .ok e
  | none => .error .notExist

/-- What stands at a path, be it a link. -/
def lstat (t : FileTree) (path : String) : Except FileTrouble Entry := do
  match t.root.get? (← resolveFrom t.root false maxLinks [] (Path.steps path)) with
  | some e => .ok e
  | none => .error .notExist

/-- How many links are followed in search of the path without links. -/
def maxRealLinks : Nat := 255

/-- The path without links. -/
def realPath (t : FileTree) (path : String) : Except FileTrouble String :=
  (resolveFrom t.root true maxRealLinks [] (Path.steps path)).map (Path.ofComponents true)

def isDir (t : FileTree) (path : String) : Bool :=
  match t.stat path with
  | .ok e => e.isDir
  | .error _ => false

/-- Is there a regular file at the path, links followed? -/
def isFile (t : FileTree) (path : String) : Bool :=
  match t.stat path with
  | .ok (.file _) => true
  | _ => false

/-- The bytes of a file. -/
def read (t : FileTree) (path : String) : Except Failure ByteArray :=
  match t.stat path with
  | .error trouble => .error (.file "open" path trouble)
  | .ok (.file data) => .ok data.content
  | .ok _ => .error (.file "read" path .isDirectory)

/-! ### Changes -/

/-- Replaces what stands at a chain of names. -/
def setAt (t : FileTree) (names : List String) (e : Option Entry) : FileTree :=
  { root := (Entry.update (fun _ => e) names (some t.root)).getD t.root, now := t.now + 1 }

/-- The directory of a path and the last name, once the directory is resolved. -/
def parentOf (t : FileTree) (path : String) : Except FileTrouble (List String × String) := do
  let dir ← t.resolve (Path.dir path)
  match t.root.get? dir with
  | some (.dir _) => .ok (dir, Path.base path)
  | some _ => .error .notDirectory
  | none => .error .notExist

/-- Where a path leads if the last of its names is taken as it stands, be it a link or nothing yet. -/
def locate (t : FileTree) (path : String) : Except FileTrouble (List String) := do
  let steps := Path.steps path
  let dir ← resolveFrom t.root true maxLinks [] steps.dropLast
  match t.root.get? dir, steps.getLast? with
  | some (.dir _), some name =>
    if name == "." || name == ".." then .error .isDirectory else .ok (dir ++ [name])
  | _, _ => .error .notDirectory

/-- Gives what stands at a chain of names the path as its place; a link at the path is replaced, not
followed. -/
def rename (t : FileTree) (source : List String) (path : String) : Except FileTrouble FileTree :=
  match t.lstat path with
  | .ok (.dir _) => .error .exist
  | _ => do
    let place ← t.locate path
    .ok ((t.setAt source none).setAt place (t.root.get? source))

/-- Makes one directory whose parent exists. -/
def mkdir (t : FileTree) (path : String) : Except FileTrouble FileTree := do
  let (dir, name) ← t.parentOf path
  match t.root.get? (dir ++ [name]) with
  | some _ => .error .exist
  | none => .ok (t.setAt (dir ++ [name]) (some (.dir [])))

/-- Makes a directory and those above it, given the paths from the outermost on. -/
def mkdirEach (t : FileTree) : List String → Except Failure FileTree
  | [] => .ok t
  | path :: rest =>
    match t.stat path with
    | .ok (.dir _) => mkdirEach t rest
    | .ok _ => .error (.file "mkdir" path .notDirectory)
    | .error _ =>
      match t.mkdir path with
      | .ok t => mkdirEach t rest
      | .error trouble => .error (.file "mkdir" path trouble)

/-- The paths of the directories that a path runs through, outermost first, itself included. -/
def ancestry (path : String) : List String :=
  let names := Path.cleanComponents path
  (List.range names.length).map fun n => Path.ofComponents true (names.take (n + 1))

/-- Makes a directory and those above it that are missing. -/
def mkdirs (t : FileTree) (path : String) : Except Failure FileTree := t.mkdirEach (ancestry path)

/-- Writes a file in place, through links. -/
def write (t : FileTree) (path : String) (data : FileData) : Except Failure FileTree :=
  let fail (trouble : FileTrouble) : Except Failure FileTree := .error (.file "open" path trouble)
  match t.resolve path with
  | .ok names =>
    match t.root.get? names with
    | some (.dir _) => fail .isDirectory
    | _ => .ok (t.setAt names (some (.file data)))
  | .error .notExist =>
    match t.parentOf path with
    | .ok (dir, name) => .ok (t.setAt (dir ++ [name]) (some (.file data)))
    | .error trouble => fail trouble
  | .error trouble => fail trouble

/-- Makes a symbolic link. -/
def symlink (t : FileTree) (target path : String) : Except Failure FileTree :=
  let fail (trouble : FileTrouble) : Except Failure FileTree :=
    .error (.file ("symlink " ++ target) path trouble)
  match t.parentOf path with
  | .error trouble => fail trouble
  | .ok (dir, name) =>
    match t.root.get? (dir ++ [name]) with
    | some _ => fail .exist
    | none => .ok (t.setAt (dir ++ [name]) (some (.link target)))

/-- Removes what stands at a path with all below it; a path at which nothing stands is fine. -/
def removeAll (t : FileTree) (path : String) : FileTree :=
  match t.parentOf path with
  | .ok (dir, name) => t.setAt (dir ++ [name]) none
  | .error _ => t

/-! ### Walking -/

/-- A step of a walk: where it stands, and what stands there. -/
structure Visit where
  path : String
  name : String
  entry : Entry

mutual

/-- The entry and all below it, directories before what they hold and names in order.  A
directory below the first that `skip` accepts is left out with all below it. -/
def walkEntry (skip : String → String → Bool) (path name : String) : Entry → List Visit
  | .dir children => ⟨path, name, .dir children⟩ :: walkChildren skip path children
  | e => [⟨path, name, e⟩]

/-- Child by child. -/
def walkChildren (skip : String → String → Bool) (path : String) :
    List (String × Entry) → List Visit
  | [] => []
  | (name, e) :: rest =>
    let below := if path == "/" then "/" ++ name else path ++ "/" ++ name
    (if e.isDir && skip below name then [] else walkEntry skip below name e)
      ++ walkChildren skip path rest

end

/-- Walks from a path on without following links; `skip` is asked of the path and the name of each
directory below. -/
def walk (t : FileTree) (skip : String → String → Bool) (path : String) : List Visit :=
  match t.lstat path with
  | .ok e => walkEntry skip path (Path.base path) e
  | .error _ => []

/-- All regular files below a path, by their paths, in order. -/
def filesBelow (t : FileTree) (path : String) : List (String × FileData) :=
  (t.walk (fun _ _ => false) path).filterMap fun v =>
    match v.entry with
    | .file data => some (v.path, data)
    | _ => none

/-- The regular files below a path that are new or have another content than in an older tree. -/
def changedBelow (t old : FileTree) (path : String) : List (String × FileData) :=
  let before := old.filesBelow path
  (t.filesBelow path).filter fun (p, data) =>
    match before.lookup p with
    | some was => was.content != data.content
    | none => true

end FileTree

end SolidityLint
