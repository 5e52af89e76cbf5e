import SolidityLint.Json.Parser
import SolidityLint.Json.Printer
import SolidityLint.Lint.Severity
import SolidityLint.Position.Basic

/-!
# Lint — diagnostics

A diagnostic is one reported finding, or several of one rule on one line: the first with its
range, the others by their ranges only.  `Diagnostic.toJson` and `Diagnostic.ofJson?` are its
form between programs.
-/

namespace SolidityLint

/-- A code that a rule may attach. -/
inductive Code where
  | number (n : Int64)
  | text (s : String)
deriving DecidableEq, Repr

/-- The code as shown. -/
def Code.render : Code → String
  | .number n => Integer.render n
  | .text s => s

/-- A reported finding. -/
structure Diagnostic where
  range : Range := .zero
  severity : Severity := .unset
  code : Option Code := none
  /-- Who found it; empty when it does not say. -/
  source : String := ""
  message : String := ""
  ruleId : String := ""
  uri : String := ""
  /-- The ranges of further findings of the rule on the line. -/
  sameLine : List Range := []
deriving DecidableEq, Repr, Inhabited

namespace Diagnostic

/-- The number of findings that the diagnostic stands for. -/
def occurrences (d : Diagnostic) : Nat := 1 + d.sameLine.length

end Diagnostic

/-! ### The JSON form -/

def Position.toJson (p : Position) : Json :=
  .obj [("line", .int p.line.toInt), ("character", .int p.character.toInt)]

def Range.toJson (r : Range) : Json := .obj [("start", r.start.toJson), ("end", r.stop.toJson)]

def Code.toJson : Code → Json
  | .number n => .int n.toInt
  | .text s => .str s

/-- What is empty is left out. -/
def Diagnostic.toJson (d : Diagnostic) : Json :=
  .ofOptional [("range", some d.range.toJson), ("severity", some (.str d.severity.name)),
    ("code", d.code.map Code.toJson),
    ("source", if d.source.isEmpty then none else some (.str d.source)),
    ("message", some (.str d.message)), ("id", some (.str d.ruleId)), ("uri", some (.str d.uri)),
    ("same_line_ranges",
      if d.sameLine.isEmpty then none else some (.arr (d.sameLine.map Range.toJson)))]

namespace Json

/-- Keys of records are told apart without regard to case; two letters have a look-alike. -/
def foldChar (c : Char) : Char :=
  if c == '\u212A' then 'k' else if c == '\u017F' then 's' else c.toLower

/-- Do two keys name the same field of a record? -/
def sameKey (a b : String) : Bool := a.toList.map foldChar == b.toList.map foldChar

/-- Reads a record: each member whose key is in the table updates the record, null leaves it as
it is where the field says so, other members are passed over. -/
def readRecord? {α : Type} (fields : List (String × (α → Json → Option α))) (start : α) :
    Json → Option α
  | .null => some start
  | .obj members => members.foldlM (fun acc (key, value) =>
      match (fields.find? (·.1 == key)).or (fields.find? (sameKey key ·.1)) with
      | some (_, update) => update acc value
      | none => some acc) start
  | _ => none

/-- A text field; null leaves it. -/
def textField {α : Type} (set : α → String → α) (acc : α) : Json → Option α
  | .null => some acc
  | .str s => some (set acc s)
  | _ => none

/-- An integer field; null leaves it. -/
def intField {α : Type} (set : α → Int64 → α) (acc : α) : Json → Option α
  | .null => some acc
  | .num t => (Integer.read t).toOption.map (set acc)
  | _ => none

end Json

def Position.readInto? (p : Position) : Json → Option Position :=
  Json.readRecord? [("line", Json.intField fun p n => { p with line := n }),
    ("character", Json.intField fun p n => { p with character := n })] p

def Range.readInto? (r : Range) : Json → Option Range :=
  Json.readRecord? [
    ("start", fun r v => (r.start.readInto? v).map fun p => { r with start := p }),
    ("end", fun r v => (r.stop.readInto? v).map fun p => { r with stop := p })] r

def Code.ofJson? : Json → Option Code
  | .num t => (Integer.read t).toOption.map .number
  | .str s => some (.text s)
  | _ => none

/-- Reads a diagnostic.  A severity that is present has to be valid. -/
def Diagnostic.ofJson? : Json → Option Diagnostic :=
  Json.readRecord? [
    ("range", fun d v => (d.range.readInto? v).map fun r => { d with range := r }),
    ("severity", fun d v =>
      match v with
      | .str s => if (Severity.mk s).isValid then some { d with severity := ⟨s⟩ } else none
      | _ => none),
    ("code", fun d v =>
      match v with
      | .null => some { d with code := none }
      | v => (Code.ofJson? v).map fun c => { d with code := some c }),
    ("source", Json.textField fun d s => { d with source := s }),
    ("message", Json.textField fun d s => { d with message := s }),
    ("id", Json.textField fun d s => { d with ruleId := s }),
    ("uri", Json.textField fun d s => { d with uri := s }),
    ("same_line_ranges", fun d v =>
      match v with
      | .null => some { d with sameLine := [] }
      | .arr items => (items.mapM fun v => Range.readInto? .zero v).map fun rs =>
          { d with sameLine := rs }
      | _ => none)] {}

end SolidityLint
