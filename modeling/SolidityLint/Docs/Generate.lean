import SolidityLint.Docs.Html
import SolidityLint.FileTree.Replace

/-!
# Docs — writing documentation

Documentation is a page for each rule in a directory for each category and an index, or one JSON
file.  Files that have their content already are left alone.
-/

namespace SolidityLint

/-- The form of documentation. -/
inductive DocsFormat where
  | markdown | html | json
deriving DecidableEq, Repr

namespace DocsFormat

def name : DocsFormat → String
  | markdown => "markdown"
  | html => "html"
  | json => "json"

/-- Reads the name of a form; an empty one is Markdown. -/
def parse? (s : String) : Option DocsFormat :=
  match lowerCase (trimSpace s) with
  | "markdown" | "md" | "" => some markdown
  | "html" => some html
  | "json" => some json
  | _ => none

/-- The message about a name that is none. -/
def unknownMessage (s : String) : String :=
  "unknown docs format " ++ quoted s ++ "; valid formats: markdown, html, json"

/-- The extension of a page. -/
def extension : DocsFormat → String
  | html => ".html"
  | _ => ".md"

/-- The path of the page of a rule below the output directory. -/
def pagePath (f : DocsFormat) (d : Documentation) : String :=
  Path.join [if d.category == "" then "other" else d.category, d.id ++ f.extension]

end DocsFormat

namespace Docs

/-- The descriptions as JSON text; absent ones are null. -/
def json (ds : Option (List Documentation)) : String :=
  (match ds with
    | some ds => Json.arr (ds.map Documentation.toJson)
    | none => .null).pretty ++ "\n"

/-- A page in the form that is asked for; bytes that are no text stay as they are. -/
def convert (f : DocsFormat) (title : String) (page : ByteArray) : ByteArray :=
  match f with
  | .html =>
    Utf8.encodeKeeping (html title (String.ofList (Utf8.decodeKeeping page.toList))).toList
  | _ => page

/-- All files of the documentation, by their paths below the output directory. -/
def files (ds : List Documentation) (f : DocsFormat) : List (String × ByteArray) :=
  match f with
  | .json => [("rules.json", Utf8.encode (json (some ds)))]
  | f =>
    ds.map (fun d => (f.pagePath d, convert f d.id (Utf8.encode (page d))))
      ++ [("README" ++ f.extension, convert f "Rules" (index ds f.pagePath))]

/-- Writes files below a directory and gives the paths of those that changed; what was written
before a failure stays. -/
def writeAll (cancelled : Bool) (dir : String) :
    List (String × ByteArray) → List String → FileTree → Except Failure (List String) × FileTree
  | [], written, t => (.ok written.reverse, t)
  | (name, content) :: rest, written, t =>
    if cancelled then (.error (.within "generating docs" .cancelled), t)
    else
      let path := Path.join [dir, name]
      match t.mkdirs (Path.dir path) with
      | .error e => (.error (.within ("creating " ++ Path.dir path) e), t)
      | .ok t =>
        match t.replaceIfChanged false path content 0o644 with
        | .error e => (.error e, t)
        | .ok (changed, t) =>
          writeAll cancelled dir rest (if changed then path :: written else written) t

/-- Writes the documentation of rules below a directory. -/
def generate (t : FileTree) (cancelled : Bool) (dir : String) (ds : List Documentation)
    (f : DocsFormat) : Except Failure (List String) × FileTree :=
  writeAll cancelled dir (files ds f) [] t

end Docs

end SolidityLint
