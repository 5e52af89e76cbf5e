import SolidityLint.Text.Space

/-!
# Path — lexical operations

Paths are texts with components between slashes.  All operations here are lexical: they look at no
file system, so `..` simply takes the component before it away.
-/

namespace SolidityLint

namespace Path

/-- Does the path start at the root? -/
def isAbsolute (p : String) : Bool := p.toList.head? == some '/'

/-- The components between slashes, empty ones left out. -/
def components (p : String) : List String :=
  ((splitAtChar '/' p.toList).filter (!·.isEmpty)).map String.ofList

/-- The steps that components ask for.  Behind an open end one follows that stays where it is, which
only a directory allows. -/
def stepsOf : List String → Bool → List String
  | [], _ => []
  | name :: names, isOpen => name :: names ++ if isOpen then ["."] else []

/-- The steps that lead to what a path names; a slash at the end leaves it open. -/
def steps (p : String) : List String := stepsOf (components p) (p.toList.getLast? == some '/')

/-- Removes `.` and resolves `..`; `done` holds the components so far, last first.  Above the
root `..` is dropped, and at the front of a relative path it is kept. -/
def resolve (absolute : Bool) : List String → List String → List String
  | done, [] => done.reverse
  | done, "." :: cs => resolve absolute done cs
  | done, ".." :: cs =>
    match done with
    | [] => if absolute then resolve absolute [] cs else resolve absolute [".."] cs
    | c :: rest =>
      if c == ".." then resolve absolute (".." :: c :: rest) cs else resolve absolute rest cs
  | done, c :: cs => resolve absolute (c :: done) cs

/-- The components of the shortest form of a path. -/
def cleanComponents (p : String) : List String := resolve (isAbsolute p) [] (components p)

/-- The text of components. -/
def ofComponents (absolute : Bool) (cs : List String) : String :=
  let body := String.intercalate "/" cs
  if absolute then "/" ++ body else if cs.isEmpty then "." else body

/-- The shortest form of a path; `.` for an empty one. -/
def clean (p : String) : String := ofComponents (isAbsolute p) (cleanComponents p)

/-- Joins paths with slashes, empty ones left out, and cleans the result. -/
def join (ps : List String) : String :=
  match ps.filter (· != "") with
  | [] => ""
  | ps => clean (String.intercalate "/" ps)

/-- Without the leading components that two lists share. -/
def dropCommon : List String → List String → List String × List String
  | a :: as, b :: bs => if a == b then dropCommon as bs else (a :: as, b :: bs)
  | as, bs => (as, bs)

/-- The way from `base` to `target`; `none` when one starts at the root and the other does not, or
when it would have to know the name of a directory above `base`. -/
def relative? (base target : String) : Option String :=
  if clean base == clean target then some "."
  else if isAbsolute base != isAbsolute target then none
  else
    let (up, down) := dropCommon (cleanComponents base) (cleanComponents target)
    if up.head? == some ".." then none
    else some (String.intercalate "/" (up.map (fun _ => "..") ++ down))

/-- The last component of a path; `.` for an empty one and `/` for the root. -/
def base (p : String) : String :=
  match (components p).getLast? with
  | some c => c
  | none => if p == "" then "." else "/"

/-- All but the last component, cleaned. -/
def dir (p : String) : String :=
  let front := (p.toList.reverse.dropWhile (· != '/')).reverse
  clean (String.ofList front)

/-- The directory of the given components, last first, and those above it up to the root. -/
def ancestorsOf : List String → List String
  | [] => ["/"]
  | c :: cs => ofComponents true (c :: cs).reverse :: ancestorsOf cs

/-- The path itself, starting at the root, and those above it, nearest first. -/
def ancestors (p : String) : List String := ancestorsOf (cleanComponents p).reverse

/-- The extension: the last component from its last dot on. -/
def extension (p : String) : String :=
  let last := (p.toList.reverse.takeWhile (· != '/'))
  let ext := last.takeWhile (· != '.')
  if ext.length < last.length then String.ofList ('.' :: ext.reverse) else ""

/-- The path relative to a directory: `p` itself when there is no directory, or when the way
starts with two dots. -/
def relativeTo (dir p : String) : String :=
  if dir == "" then p
  else match relative? dir p with
    | none => p
    | some r => if hasFront ".." r then p else r

end Path

end SolidityLint
