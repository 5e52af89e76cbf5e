import SolidityLint.Failure
import SolidityLint.Lint.Engine

/-!
# Lint — sessions

A session lints files of one project: it holds the files that were parsed, one for each path, so
that rules can look at all of them.
-/

namespace SolidityLint

/-- Makes a tree of the content of a file, given its path. -/
abbrev SourceParser := String → ByteArray → Except Failure SourceFile

/-- The rules, and the files known so far in the order of their paths. -/
structure Session where
  rules : List Rule
  files : List SourceFile := []
  /-- Which paths are linted without findings? -/
  excluded : String → Bool := fun _ => false

namespace Session

/-- The file of a path. -/
def file? (s : Session) (path : String) : Option SourceFile := s.files.find? (·.path == path)

/-- Puts a file in the place of its path. -/
def insert (f : SourceFile) : List SourceFile → List SourceFile
  | [] => [f]
  | g :: gs =>
    if g.path == f.path then f :: gs
    else if f.path < g.path then f :: g :: gs
    else g :: insert f gs

/-- Adds a file, in place of the one that had its path. -/
def add (s : Session) (f : SourceFile) : Session := { s with files := insert f s.files }

/-- Forgets the file of a path. -/
def remove (s : Session) (path : String) : Session :=
  { s with files := s.files.filter (·.path != path) }

/-- Parses a file and adds it; a file that does not parse changes nothing. -/
def parse (s : Session) (parser : SourceParser) (path : String) (content : ByteArray) :
    Except Failure (SourceFile × Session) :=
  match parser path content with
  | .ok f => .ok (f, s.add f)
  | .error e => .error (.within ("parse " ++ path) e)

/-- Linting was called off. -/
def calledOff : Failure := .within "linting cancelled" .cancelled

/-- Lints a file among all files of the session. -/
def lint (s : Session) (cancelled : Bool) (f : SourceFile) : Except Failure FileResult :=
  match lintFile? s.rules cancelled f s.files with
  | some r => .ok r
  | none => .error calledOff

/-- Parses and lints a file; one that is excluded has no findings and is not kept.  The session
comes back also when linting fails. -/
def lintContent (s : Session) (parser : SourceParser) (cancelled : Bool) (path : String)
    (content : ByteArray) : Except Failure FileResult × Session :=
  if s.excluded path then (.ok { file := some (.ofBytes path content none) }, s)
  else match s.parse parser path content with
    | .error e => (.error e, s)
    | .ok (f, s) => (s.lint cancelled f, s)

/-- Lints all files in the order of their paths, up to the first that fails. -/
def lintEach (s : Session) (cancelled : Bool) :
    List SourceFile → List FileResult × Option Failure
  | [] => ([], none)
  | f :: fs =>
    let result := if s.excluded f.path then .ok { file := some f } else s.lint cancelled f
    match result with
    | .error e => ([], some e)
    | .ok r =>
      let (rs, e) := lintEach s cancelled fs
      (r :: rs, e)

/-- Lints all files of the session. -/
def lintAll (s : Session) (cancelled : Bool) : List FileResult × Option Failure :=
  s.lintEach cancelled s.files

end Session

end SolidityLint
