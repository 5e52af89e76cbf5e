import SolidityLint.Lint.Diagnostic
import SolidityLint.Lint.Session
import SolidityLint.Run.Options
import SolidityLint.Text.Quoted
import SolidityLint.Library.Toml.Parser

/-!
# FrontEnd — Foundry projects

Trees come from the build artifacts of a project.  `foundry.toml` says where sources and artifacts
are; the artifacts below the output directory are indexed by the path of their source relative to
the root of the project.
-/

namespace SolidityLint

/-- Where a project has its sources and its artifacts. -/
structure FoundryLayout where
  /-- The directory that holds the project file. -/
  root : String
  src : String := "src"
  out : String := "out"
deriving DecidableEq, Repr, Inhabited

namespace FoundryLayout

def srcDir (l : FoundryLayout) : String := Path.join [l.root, l.src]

def outDir (l : FoundryLayout) : String := Path.join [l.root, l.out]

/-- The name of the project file. -/
def projectFile : String := "foundry.toml"

/-- No project file is there. -/
def noProject (path : String) : Failure :=
  .within path (.marked .noProject (.plain "no foundry.toml found"))

/-! ### The project file -/

/-- What a value is, in a message about its type. -/
def typeName : Toml.Value → String
  | .str _ => "string"
  | .int _ => "int64"
  | .float => "float64"
  | .bool _ => "bool"
  | .time => "time.Time"
  | .array _ => "[]any"
  | .table _ _ => "map[string]any"
  | .tables _ => "[]map[string]any"

/-- A part of a key as it stands in a file. -/
def keyPart (part : String) : String :=
  if part == "" then "\"\""
  else if part.toList.all Toml.isKeyChar then part
  else "\"" ++ String.ofList (part.toList.flatMap fun c =>
    if c == '"' || c == '\\' then ['\\', c] else [c]) ++ "\""

/-- The project file does not say what it should; the text starts at the key at fault. -/
def unusable (path : String) (key : List String) (fault : String) : Failure :=
  .plain (path ++ ": failed to parse TOML" ++ quoted (String.intercalate "." (key.map keyPart))
    ++ "): " ++ fault)

/-- The text of a field of a profile; fields are known in any case. -/
def field (path profile name : String) (entries : Toml.Entries) : Except Failure String :=
  match (entries.find? (·.1 == name)).or (entries.find? fun e => Json.sameKey name e.1) with
  | none => .ok ""
  | some (_, .str s) => .ok s
  | some (key, v) => .error (unusable path ["profile", profile, key]
      ("incompatible types: TOML value has type " ++ typeName v ++ "; destination has type string"))

/-- The directories of a profile, empty where it names none. -/
def profile (path name : String) : Toml.Value → Except Failure (String × String)
  | .table _ entries => do return (← field path name "src" entries, ← field path name "out" entries)
  | v => .error (unusable path ["profile", name]
      ("type mismatch for struct \x7b Src string \"toml:\\\"src\\\"\"; Out string \"toml:\\\"out\\\"\" \x7d: "
        ++ "expected table but found " ++ typeName v))

/-- The profiles of a document, by name.  Whatever else stands in the place of the table of
profiles is passed over. -/
def profiles (path : String) (doc : Toml.Entries) : Except Failure (List (String × String × String)) :=
  match (doc.find? (·.1 == "profile")).or (doc.find? fun e => Json.sameKey "profile" e.1) with
  | some (_, .table _ entries) => entries.mapM fun (name, v) => (profile path name v).map (name, ·)
  | _ => .ok []

/-- Reads the project file of a directory. -/
def load (t : FileTree) (root : String) : Except Failure FoundryLayout :=
  let path := Path.join [root, projectFile]
  match t.read path with
  | .error (.file _ _ .notExist) => .error (noProject root)
  | .error _ => .error (.plain (path ++ ": failed to parse TOML"))
  | .ok content =>
    match Toml.parse? (textOfBytes content) with
    | none => .error (.within (path ++ ": failed to parse TOML") .unreadable)
    | some doc => do
      let (src, out) := ((← profiles path doc).lookup "default").getD ("", "")
      .ok { root, src := if src == "" then "src" else src, out := if out == "" then "out" else out }

/-- The nearest of the directories that holds a project file. -/
def rootAmong (t : FileTree) : List String → Option String :=
  List.find? fun dir => match t.stat (Path.join [dir, projectFile]) with
    | .ok _ => true
    | .error _ => false

/-- The root of the project that an absolute path lies in. -/
def findRoot (t : FileTree) (start : String) : Except Failure String :=
  let dir := Path.clean start
  let dir := match t.stat dir with
    | .ok e => if e.isDir then dir else Path.dir dir
    | .error _ => dir
  match rootAmong t (Path.ancestors dir) with
  | some root => .ok root
  | none => .error (noProject start)

end FoundryLayout

/-! ### Artifacts -/

/-- Trees by the path of their source: relative to the root, or absolute outside of it. -/
abbrev Artifacts := List (String × Json)

namespace Artifacts

/-- The values of a member of an object whose key has these letters, in any case. -/
def valuesOf (key : String) (members : List (String × Json)) : List Json :=
  (members.filter fun m => Json.sameKey key m.1).map (·.2)

/-- The tree in an artifact. -/
def tree? : Json → Option Json
  | .obj members => (valuesOf "ast" members).getLast?
  | _ => none

/-- The path that a tree says its source has. -/
def sourcePath? : Json → Option String
  | .obj members => (valuesOf "absolutePath" members).foldlM (fun path v => match v with
      | .str s => some s
      | .null => some path
      | _ => none) ""
  | _ => none

/-- The path of a source as the index has it. -/
def keyOf (root path : String) : String :=
  if Path.isAbsolute path then Path.relativeTo root (Path.clean path) else Path.clean path

/-- Adds the tree of an artifact unless its source has one. -/
def addArtifact (root : String) (index : Artifacts) (data : Json) : Artifacts :=
  match tree? data with
  | none => index
  | some tree =>
    match sourcePath? tree with
    | none | some "" => index
    | some path =>
      let key := keyOf root path
      if (index.lookup key).isSome then index else (key, tree) :: index

/-- Is it an object or nothing at all? -/
def isObject : Json → Bool
  | .obj _ | .null => true
  | _ => false

/-- The sources of a build once a list of them is read; of each name the last counts. -/
def takeSources (found : List (String × Json)) : Json → Option (List (String × Json))
  | .null => some []
  | .obj entries => if entries.all (isObject ·.2) then some (lastOfKey (found ++ entries)) else none
  | _ => none

/-- The sources of a build once an output is read. -/
def takeOutput (found : List (String × Json)) : Json → Option (List (String × Json))
  | .null => some found
  | .obj members => (valuesOf "sources" members).foldlM takeSources found
  | _ => none

/-- The sources of a build, by name; none if the file has another shape. -/
def buildSources? : Json → Option (List (String × Json))
  | .null => some []
  | .obj members => (valuesOf "output" members).foldlM takeOutput []
  | _ => none

/-- Adds the tree of a source of a build, in place of one that it has. -/
def addSource (root : String) (index : Artifacts) (source : String × Json) : Artifacts :=
  match tree? source.2 with
  | some tree => (keyOf root source.1, tree) :: index.filter (·.1 != keyOf root source.1)
  | none => index

/-- Adds the trees of a build, in place of those of builds before it. -/
def addBuild (root : String) (index : Artifacts) (data : Json) : Artifacts :=
  match buildSources? data with
  | none => index
  | some sources => sources.foldl (addSource root) index

/-- Trees of artifacts and of builds, found so far. -/
structure Found where
  artifacts : Artifacts := []
  builds : Artifacts := []

/-- Is it the path of a build? -/
def isBuildPath (path : String) : Bool := Path.base (Path.dir path) == "build-info"

/-- Adds what the file of a path says. -/
def Found.take (root : String) (found : Found) (doc : String × Json) : Found :=
  if isBuildPath doc.1 then { found with builds := addBuild root found.builds doc.2 }
  else { found with artifacts := addArtifact root found.artifacts doc.2 }

/-- Adds what a file holds.  Files that are no JSON are passed over. -/
def Found.add (root : String) (found : Found) (path : String) (content : ByteArray) : Found :=
  match Json.parse? (textOfBytes content) with
  | none => found
  | some data => found.take root (path, data)

/-- Is it a file to read? -/
def isRead (v : FileTree.Visit) : Bool := !v.entry.isDir && Path.extension v.path == ".json"

/-- Reads the files of a walk. -/
def readAll (t : FileTree) (root : String) (found : Found) :
    List FileTree.Visit → Except Failure Found
  | [] => .ok found
  | v :: rest =>
    if !isRead v then readAll t root found rest
    else match t.read v.path with
      | .error e => .error e
      | .ok content => readAll t root (found.add root v.path content) rest

/-- The sources that the build knows nothing of. -/
def noArtifact (path : String) : Failure :=
  .marked .noArtifact (.plain (path ++ ": no build artifact for source (run forge build)"))

/-- Indexes the artifacts of a project.  Those of single contracts go before those of builds. -/
def scan (t : FileTree) (l : FoundryLayout) (cancelled : Bool) : Except Failure Artifacts :=
  let unreadable (e : Failure) : Failure :=
    if e.isOf .notExist then noArtifact l.outDir else .within "reading artifacts" e
  match t.lstat l.outDir with
  | .error trouble => .error (unreadable (.file "lstat" l.outDir trouble))
  | .ok _ =>
    if cancelled then .error (.within "reading artifacts" .cancelled)
    else match readAll t l.root {} (t.walk (fun _ _ => false) l.outDir) with
      | .error e => .error (unreadable e)
      | .ok found =>
        .ok (found.artifacts
          ++ found.builds.filter fun b => (found.artifacts.lookup b.1).isNone)

/-- The sources that have a tree, in order. -/
def sources (index : Artifacts) : List String := (sortByKey index).map (·.1)

end Artifacts

/-- A project whose artifacts are kept once they were indexed. -/
structure FoundryFrontEnd where
  layout : FoundryLayout
  artifacts : Option Artifacts := none

namespace FoundryFrontEnd

/-- The artifacts, indexed if they are not yet. -/
def index (p : FoundryFrontEnd) (t : FileTree) (cancelled : Bool) : Except Failure Artifacts :=
  match p.artifacts with
  | some a => .ok a
  | none => Artifacts.scan t p.layout cancelled

/-- The project with its artifacts indexed, if that is possible. -/
def indexed (p : FoundryFrontEnd) (t : FileTree) (cancelled : Bool) : FoundryFrontEnd :=
  { p with artifacts := (p.index t cancelled).toOption }

/-- Forgets the artifacts, so that they are indexed again. -/
def reload (p : FoundryFrontEnd) : FoundryFrontEnd := { p with artifacts := none }

/-- The file of an absolute path with the tree that the build has for it. -/
def parse (p : FoundryFrontEnd) (t : FileTree) (cancelled : Bool) (path : String)
    (content : ByteArray) : Except Failure SourceFile :=
  if cancelled then .error (.within "parse cancelled" .cancelled)
  else do
    let index ← p.index t false
    match index.lookup (Artifacts.keyOf p.layout.root path) with
    | none => .error (Artifacts.noArtifact path)
    | some tree =>
      match Node.ofJson tree with
      | .ok root => .ok (.ofBytes path content (some root))
      | .error e => .error (.within path (.decode e))

end FoundryFrontEnd

end SolidityLint
