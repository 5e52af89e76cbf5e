import SolidityLint.FileTree.Replace
import SolidityLint.Lint.Diagnostic
import SolidityLint.Text.Case
import SolidityLint.Text.Quoted
import SolidityLint.Library.Yaml.Parser
import SolidityLint.Library.Yaml.Printer

/-!
# Config — rule sets

A rule set is a name and a list of rule entries.  It is read from JSON or YAML, where an entry has
to have an id and a valid severity and no other fields than the known ones, and it is written in
both.
-/

namespace SolidityLint

/-- A named list of rule entries. -/
structure RuleSet where
  name : String := ""
  /-- Absent when no list was given, which JSON tells from an empty one. -/
  rules? : Option (List RuleEntry) := none
deriving Inhabited

/-- The entries. -/
def RuleSet.rules (rs : RuleSet) : List RuleEntry := rs.rules?.getD []

/-- The rule set of a list of entries. -/
def RuleSet.ofEntries (name : String) (entries : List RuleEntry) : RuleSet := ⟨name, some entries⟩

/-- The format of a file with a rule set. -/
inductive FileFormat where
  | json | yaml
deriving DecidableEq, Repr

/-- The name of a format. -/
def FileFormat.name : FileFormat → String
  | .json => "json"
  | .yaml => "yaml"

/-- The format that the extension of a path tells; JSON if none does. -/
def FileFormat.ofPath (path : String) : FileFormat :=
  let ext := lowerCase (Path.extension path)
  if ext == ".yml" || ext == ".yaml" then .yaml else .json

namespace RuleSet

/-- The first entry of a rule. -/
def entry? (rs : RuleSet) (id : String) : Option RuleEntry := rs.rules.find? (·.id == id)

/-! ### Reading -/

/-- The text of a rule set does not give one. -/
def malformed (cause : Failure) : Failure :=
  .marked .configDeserialization (.within "config deserialization error" cause)

/-- A severity that is none. -/
def badSeverity (text : String) : Failure := .plain ("invalid severity " ++ quoted text)

/-- A value that was read so far.  Fields of a wrong type or an unknown name spoil it, but reading
goes on, as a wrong severity further on is the graver fault. -/
structure Draft (α : Type) where
  value : α
  spoilt : Bool := false

namespace Draft

/-- Reading goes on with a spoilt value. -/
def spoil {α : Type} (d : Draft α) : Draft α := { d with spoilt := true }

/-- A text field. -/
def text {α : Type} (set : α → String → α) (d : Draft α) : Json → Draft α
  | .null => d
  | .str s => { d with value := set d.value s }
  | _ => d.spoil

end Draft

/-- The severity that a JSON value gives. -/
def severityOfJson : Json → Except Failure Severity
  | .null => .error (badSeverity "")
  | .str s => if (Severity.mk s).isValid then .ok ⟨s⟩ else .error (badSeverity s)
  | _ => .error .unreadable

/-- The field that a key names: the one with the same letters, in any case if need be. -/
def fieldOf? (fields : List String) (key : String) : Option String :=
  (fields.find? (· == key)).or (fields.find? (Json.sameKey key))

/-- Reads a field of an entry. -/
def readEntryField (d : Draft RuleEntry) (member : String × Json) :
    Except Failure (Draft RuleEntry) :=
  match fieldOf? ["id", "severity", "data"] member.1 with
  | some "id" => .ok (d.text (fun e s => { e with id := s }) member.2)
  | some "severity" => (severityOfJson member.2).map fun s =>
      { d with value := { d.value with severity := s } }
  | some "data" => match Data.ofJson? member.2 with
    | some data => .ok { d with value := { d.value with data } }
    | none => .ok d.spoil
  | _ => .ok d.spoil

/-- Reads an entry over the one that stood in its place. -/
def readEntry (old : RuleEntry) : Json → Except Failure (Draft RuleEntry)
  | .null => .ok ⟨old, false⟩
  | .obj members => members.foldlM readEntryField ⟨old, false⟩
  | _ => .ok ⟨old, true⟩

/-- Reads entries over those that stood in their places. -/
def readEntries : List RuleEntry → List Json → Except Failure (Draft (List RuleEntry))
  | _, [] => .ok ⟨[], false⟩
  | old, item :: items => do
    let e ← readEntry (old.headD default) item
    let es ← readEntries old.tail items
    .ok ⟨e.value :: es.value, e.spoilt || es.spoilt⟩

/-- Reads a field of a rule set. -/
def readField (d : Draft RuleSet) (member : String × Json) : Except Failure (Draft RuleSet) :=
  match fieldOf? ["name", "rules"] member.1 with
  | some "name" => .ok (d.text (fun rs s => { rs with name := s }) member.2)
  | some "rules" => match member.2 with
    | .null => .ok { d with value := { d.value with rules? := none } }
    | .arr items => (readEntries d.value.rules items).map fun es =>
        ⟨{ d.value with rules? := some es.value }, d.spoilt || es.spoilt⟩
    | _ => .ok d.spoil
  | _ => .ok d.spoil

/-- The rule set that a JSON value gives, if it is not spoilt. -/
def ofJson : Json → Except Failure RuleSet
  | .null => .ok {}
  | .obj members => do
    let d ← members.foldlM readField ⟨{}, false⟩
    if d.spoilt then .error .unreadable else .ok d.value
  | _ => .error .unreadable

/-- The text of a field: any scalar will do. -/
def yamlText {α : Type} (set : α → String → α) (d : Draft α) (n : Yaml.Node) : Draft α :=
  match n with
  | .scalar tag plain text =>
    match Yaml.Node.scalarData? tag plain text with
    | some .null => { d with value := set d.value "" }
    | some _ => { d with value := set d.value text }
    | none => d.spoil
  | _ => d.spoil

/-- The severity that a node gives; none when it is null. -/
def severityOfYaml (n : Yaml.Node) : Except Failure Severity :=
  match n with
  | .scalar tag plain text =>
    match Yaml.Node.scalarData? tag plain text with
    | some .null => .ok .unset
    | some _ => if (Severity.mk text).isValid then .ok ⟨text⟩ else .error (badSeverity text)
    | none => .error .unreadable
  | _ => .error .unreadable

/-- The entries of a map, with those that it takes in behind its own. -/
def ownAndMerged (entries : List (Yaml.Node × Yaml.Node)) : Option (List (Yaml.Node × Yaml.Node)) := do
  let own := entries.filter (!·.1.isMerge)
  let merged ← (entries.filter (·.1.isMerge)).mapM fun (_, v) => match v with
    | .seq items => (items.mapM Yaml.Node.entries?).map List.flatten
    | v => v.entries?
  let more := merged.flatten.filter fun m => !own.any (Yaml.Node.sameKey m.1 ·.1)
  some (own ++ more)

/-- Reads a field of an entry. -/
def readEntryNode (d : Draft RuleEntry) (member : Yaml.Node × Yaml.Node) :
    Except Failure (Draft RuleEntry) :=
  match member.1.text with
  | "id" => .ok (yamlText (fun e s => { e with id := s }) d member.2)
  | "severity" => (severityOfYaml member.2).map fun s =>
      { d with value := { d.value with severity := s } }
  | "data" => match member.2.toData? with
    | some data => .ok { d with value := { d.value with data } }
    | none => .ok d.spoil
  | _ => .ok d.spoil

/-- Reads an entry. -/
def entryOfYaml (n : Yaml.Node) : Except Failure (Draft RuleEntry) :=
  match n with
  | .map entries =>
    match ownAndMerged entries with
    | none => .error .unreadable
    | some ms => ms.foldlM readEntryNode ⟨default, Yaml.Node.hasRepeats entries⟩
  | n => .ok ⟨default, !n.isNull⟩

/-- Reads entries. -/
def entriesOfYaml : List Yaml.Node → Except Failure (Draft (List RuleEntry))
  | [] => .ok ⟨[], false⟩
  | n :: ns => do
    let e ← entryOfYaml n
    let es ← entriesOfYaml ns
    .ok ⟨e.value :: es.value, e.spoilt || es.spoilt⟩

/-- Reads a field of a rule set. -/
def readNode (d : Draft RuleSet) (member : Yaml.Node × Yaml.Node) : Except Failure (Draft RuleSet) :=
  match member.1.text with
  | "name" => .ok (yamlText (fun rs s => { rs with name := s }) d member.2)
  | "rules" => match member.2 with
    | .seq items => (entriesOfYaml items).map fun es =>
        ⟨{ d.value with rules? := some es.value }, d.spoilt || es.spoilt⟩
    | n => .ok (if n.isNull then d else d.spoil)
  | _ => .ok d.spoil

/-- The rule set that a document gives, if it is not spoilt. -/
def ofYaml (n : Yaml.Node) : Except Failure RuleSet :=
  match n with
  | .map entries =>
    match ownAndMerged entries with
    | none => .error .unreadable
    | some ms => do
      let d ← ms.foldlM readNode ⟨{}, Yaml.Node.hasRepeats entries⟩
      if d.spoilt then .error .unreadable else .ok d.value
  | n => if n.isNull then .ok {} else .error .unreadable

/-- Every entry has to have an id and a severity; `i` is the number of the first. -/
def check (i : Nat) : List RuleEntry → Except Failure Unit
  | [] => .ok ()
  | e :: es =>
    let place := "rules[" ++ Nat.repr i ++ "]"
    if e.id == "" then .error (malformed (.plain (place ++ ": missing id")))
    else if !e.severity.isValid then
      .error (malformed (.plain (place ++ " (" ++ e.id ++ "): missing severity")))
    else check (i + 1) es

/-- Reads a rule set. -/
def parse (format : FileFormat) (text : String) : Except Failure RuleSet := do
  let rs ← match format with
    | .json => match Json.parseFirst? text with
      | none => .error (malformed .unreadable)
      | some v => match ofJson v with
        | .ok rs => .ok rs
        | .error e => .error (malformed e)
    | .yaml => match Yaml.parse text with
      | .document root => match ofYaml root with
        | .ok rs => .ok rs
        | .error e => .error (malformed (.within "parse yaml" e))
      | _ => .error (malformed .unreadable)
  check 0 rs.rules
  .ok rs

/-! ### Writing -/

/-- An entry in JSON; options that are null are left out.  `none` when JSON cannot hold them. -/
def entryJson? (e : RuleEntry) : Option Json := do
  let data ← if e.data.isNull then some none else e.data.toJson?.map some
  some (.ofOptional [("id", some (.str e.id)), ("severity", some (.str e.severity.name)), ("data", data)])

/-- The JSON form of a rule set. -/
def toJson? (rs : RuleSet) : Option Json := do
  let rules ← match rs.rules? with
    | some es => (es.mapM entryJson?).map .arr
    | none => some .null
  some (.obj [("name", .str rs.name), ("rules", rules)])

/-- The text of a rule set in JSON.  `none` when JSON cannot hold it, also because it is nested
more deeply than any reader would follow. -/
def renderJson? (rs : RuleSet) : Option String := do
  let j ← rs.toJson?
  if j.depth ≤ Json.maxDepth then some (j.pretty ++ "\n") else none

/-- An entry in YAML. -/
def entryNode (e : RuleEntry) : Yaml.Node :=
  let key (s : String) : Yaml.Node := .scalar "" false s
  .map ([(key "id", key e.id), (key "severity", key e.severity.name)]
    ++ if e.data.isNull then [] else [(key "data", .ofData e.data)])

/-- The text of a rule set in YAML. -/
def renderYaml (rs : RuleSet) : String :=
  Yaml.render (.map [(.scalar "" false "name", .scalar "" false rs.name),
    (.scalar "" false "rules", .seq (rs.rules.map entryNode))])

/-- The text in YAML behind a header and a blank line. -/
def renderYamlUnder (header : String) (rs : RuleSet) : String :=
  if header == "" then rs.renderYaml
  else header ++ (if hasBack "\n" header then "" else "\n") ++ "\n" ++ rs.renderYaml

/-- The text of a rule set in a format. -/
def render? (rs : RuleSet) : FileFormat → Option String
  | .json => rs.renderJson?
  | .yaml => some rs.renderYaml

/-- A copy of a rule set: what its YAML text reads as, or the set itself when that is no rule
set. -/
def clone (rs : RuleSet) : RuleSet :=
  match parse .yaml rs.renderYaml with
  | .ok copy => copy
  | .error _ => rs

/-! ### Files -/

/-- A file with a rule set cannot be read or written. -/
def ioFailure (cause : Failure) : Failure := .marked .configIo (.within "config I/O error" cause)

/-- Reads the rule set of a file. -/
def load (t : FileTree) (path : String) : Except Failure RuleSet :=
  match t.read path with
  | .error e => .error (ioFailure e)
  | .ok content =>
    match parse (.ofPath path) (textOfBytes content) with
    | .ok rs => .ok rs
    | .error e => .error (.within path e)

/-- Writes the text of a rule set, if it has one, to a file: why that failed, if it did, and the files
then. -/
def trySaveText (t : FileTree) (refuse : Refusals) (cancelled : Bool) (path : String) :
    Option String → Except Failure Unit × FileTree
  | none => (.error (.within "encode rule set" .unreadable), t)
  | some text =>
    match t.tryReplace refuse cancelled path (Utf8.encode text) 0 with
    | (.ok (), t) => (.ok (), t)
    | (.error e, t) => (.error (ioFailure e), t)

/-- Writes a rule set to a file: why that failed, if it did, and the files then. -/
def trySave (t : FileTree) (refuse : Refusals) (cancelled : Bool) (path : String) (rs : RuleSet) :
    Except Failure Unit × FileTree :=
  trySaveText t refuse cancelled path (rs.render? (.ofPath path))

/-- Writes a rule set to a file. -/
def save (t : FileTree) (cancelled : Bool) (path : String) (rs : RuleSet) :
    Except Failure FileTree :=
  (settled (trySave t .none cancelled path rs)).map (·.2)

end RuleSet

end SolidityLint
