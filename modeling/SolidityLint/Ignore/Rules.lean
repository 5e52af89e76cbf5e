import SolidityLint.Library.Glob.Matcher
import SolidityLint.Path.Basic

/-!
# Ignore — rules

An ignore rule is a pattern relative to a base directory.  A pattern without a slash matches at any
depth, a leading slash ties it to the base, what it matches includes everything below, and a leading
`!` takes paths in again.  Of the rules that match a path the last one decides.
-/

namespace SolidityLint

/-- A rule of an ignore list. -/
structure IgnoreRule where
  /-- The directory that paths are relative to. -/
  base : String
  /-- The pattern as written, without white space around it. -/
  source : String
  /-- Does the rule take paths in again? -/
  negated : Bool
  globs : List Glob

namespace IgnoreRule

/-- Drops `./` at the front, as often as it stands there. -/
def dropHere : List Char → List Char
  | '.' :: '/' :: cs => dropHere cs
  | cs => cs

/-- The patterns that stand for a rule with the given body. -/
def variants (anchored : Bool) (body : String) : List String :=
  [body, body ++ "/**"] ++ if anchored then [] else ["**/" ++ body, "**/" ++ body ++ "/**"]

/-- Reads a rule; `none` for blank lines, comments, patterns of slashes only, and malformed
patterns. -/
def ofPattern? (base pattern : String) : Option IgnoreRule :=
  let source := trimSpace pattern
  match source.toList with
  | [] | '#' :: _ => none
  | cs =>
    let (negated, cs) := match cs with
      | '!' :: rest => (true, rest)
      | cs => (false, cs)
    let cs := dropHere cs
    let body := trimBoth (· == '/') cs
    if body.isEmpty then none
    else
      let anchored := cs.head? == some '/' || body.contains '/'
      match (variants anchored (String.ofList body)).mapM Glob.ofPattern? with
      | none => none
      | some globs => some { base, source, negated, globs }

/-- The path relative to the base, if it is not outside of it. -/
def inside? (base path : String) : Option String :=
  match Path.relative? base path with
  | none => none
  | some r => if r == ".." || hasFront "../" r then none else some r

/-- Does the rule match an absolute path? -/
def hits (r : IgnoreRule) (path : String) : Bool :=
  match inside? r.base path with
  | none => false
  | some rel => r.globs.any (·.accepts rel)

end IgnoreRule

/-- Rules in the order in which they count. -/
structure IgnoreRules where
  rules : List IgnoreRule := []

namespace IgnoreRules

/-- Adds patterns relative to a base directory; those that give no rule are passed over. -/
def add (m : IgnoreRules) (base : String) (patterns : List String) : IgnoreRules :=
  ⟨m.rules ++ patterns.filterMap (IgnoreRule.ofPattern? (Path.clean base))⟩

/-- The rules of patterns relative to a base directory. -/
def ofPatterns (base : String) (patterns : List String) : IgnoreRules :=
  (⟨[]⟩ : IgnoreRules).add base patterns

/-- The patterns of the rules, as written. -/
def patterns (m : IgnoreRules) : List String := m.rules.map (·.source)

/-- Is an absolute path ignored?  The last rule that matches it decides. -/
def ignores (m : IgnoreRules) (path : String) : Bool :=
  m.rules.foldl (fun verdict r => if r.hits path then !r.negated else verdict) false

end IgnoreRules

end SolidityLint
