import SolidityLint.Lint.Diagnostic
import SolidityLint.Proofs.Json.RoundTrip

/-!
# Lint — diagnostics between programs

A diagnostic that is written as JSON is read back as itself (`diagnostics_read_back`), on one line
or over several, with or without the characters escaped that are special in a page.  Fields that
are empty are left out, and the reader starts from a diagnostic in which they are; a code keeps its
kind, as a number is written without quotes and a text with them.
-/

namespace SolidityLint

/-! ### Records with members left out -/

/-- What one member does to a record. -/
def Json.updateWith {α : Type} (fields : List (String × (α → Json → Option α))) (acc : α)
    (member : String × Json) : Option α :=
  match (fields.find? (·.1 == member.1)).or (fields.find? (Json.sameKey member.1 ·.1)) with
  | some (_, update) => update acc member.2
  | none => some acc

theorem Json.readRecord?_obj {α : Type} (fields : List (String × (α → Json → Option α))) (start : α)
    (members : List (String × Json)) :
    Json.readRecord? fields start (.obj members) = members.foldlM (Json.updateWith fields) start :=
  rfl

/-- A member that is left out does nothing. -/
theorem Json.readRecord?_ofOptional {α : Type} (fields : List (String × (α → Json → Option α)))
    (start : α) (members : List (String × Option Json)) :
    Json.readRecord? fields start (.ofOptional members) =
      members.foldlM (fun acc m => m.2.elim (some acc) fun v => updateWith fields acc (m.1, v))
        start := by
  rw [Json.ofOptional, Json.readRecord?_obj]
  induction members generalizing start with
  | nil => rfl
  | cons m members ih =>
      obtain ⟨key, value⟩ := m
      cases value with
      | none => simpa using ih start
      | some v => simp [ih]

theorem Json.int_toInt (n : Int64) : Json.int n.toInt = .num (Integer.render n) := rfl

theorem Json.intField_int {α : Type} (set : α → Int64 → α) (acc : α) (n : Int64) :
    Json.intField set acc (.int n.toInt) = some (set acc n) := by
  rw [Json.int_toInt, Json.intField, Integer.read_render]
  rfl

theorem Position.readInto?_toJson (p q : Position) : p.readInto? q.toJson = some q := by
  simp [Position.readInto?, Position.toJson, Json.readRecord?_obj, Json.updateWith,
    Json.intField_int]

theorem Range.readInto?_toJson (r s : Range) : r.readInto? s.toJson = some s := by
  simp [Range.readInto?, Range.toJson, Json.readRecord?_obj, Json.updateWith,
    Position.readInto?_toJson]

theorem mapM_readInto?_toJson (rs : List Range) :
    (rs.map Range.toJson).mapM (fun v => Range.readInto? .zero v) = some rs := by
  induction rs with
  | nil => rfl
  | cons r rs ih => simp only [List.map_cons, List.mapM_cons, Range.readInto?_toJson, ih]; rfl

/-- A diagnostic is read from its JSON form.  Each field is set to what it was, or left out and
then what it is in a new diagnostic. -/
theorem Diagnostic.ofJson?_toJson {d : Diagnostic} (valid : d.severity.isValid = true) :
    Diagnostic.ofJson? d.toJson = some d := by
  obtain ⟨range, severity, code, source, message, ruleId, uri, sameLine⟩ := d
  have known : (Severity.mk severity.name).isValid = true := valid
  rw [Diagnostic.ofJson?, Diagnostic.toJson, Json.readRecord?_ofOptional]
  -- The members that are always there.
  simp only [List.foldlM_cons, List.foldlM_nil, Option.elim_some, Json.updateWith]
  simp only [List.find?_cons, String.reduceBEq, Option.some_or, Range.readInto?_toJson, known,
    if_true, Option.map_some, Option.bind_eq_bind, Option.bind_some, Option.pure_def, Json.textField]
  -- Those that may be left out.
  have ranges := mapM_readInto?_toJson sameLine
  rcases code with _ | ⟨n⟩ | ⟨s⟩ <;> by_cases hs : source = "" <;> by_cases hl : sameLine = [] <;>
    simp [hs, hl, ranges, Code.toJson, Code.ofJson?, Json.int_toInt, Integer.read_render,
      Except.toOption]

/-! ### The text of a diagnostic -/

theorem Position.numerals_toJson (p : Position) : p.toJson.Numerals := by
  simp [Position.toJson, Json.numerals_obj, Json.numerals_int]

theorem Range.numerals_toJson (r : Range) : r.toJson.Numerals := by
  simp [Range.toJson, Json.numerals_obj, Position.numerals_toJson]

theorem Code.numerals_toJson (c : Code) : c.toJson.Numerals := by
  cases c with
  | number n => exact Json.numerals_int n.toInt
  | text s => exact Json.numerals_str s

theorem Diagnostic.numerals_toJson (d : Diagnostic) : d.toJson.Numerals := by
  refine Json.numerals_ofOptional ?_
  simp [Range.numerals_toJson, Json.numerals_str, Code.numerals_toJson, Json.numerals_arr]

theorem Position.depth_toJson (p : Position) : p.toJson.depth = 1 := rfl

theorem Range.depth_toJson (r : Range) : r.toJson.depth = 2 := rfl

theorem Code.depth_toJson (c : Code) : c.toJson.depth = 0 := by
  cases c <;> rfl

/-- The deepest places are those of the ranges on the same line. -/
theorem Diagnostic.depth_toJson_le (d : Diagnostic) : d.toJson.depth ≤ 4 := by
  have ranges : Json.itemsDepth (d.sameLine.map Range.toJson) ≤ 2 := by
    simp [Json.itemsDepth_le_iff, Range.depth_toJson]
  have list : (Json.arr (d.sameLine.map Range.toJson)).depth ≤ 3 := Nat.succ_le_succ ranges
  have text (s : String) : (Json.str s).depth = 0 := rfl
  refine Json.depth_ofOptional_le ?_
  simp [Range.depth_toJson, Code.depth_toJson, text, list]

/-- A text of the units of a diagnostic reads as the diagnostic. -/
theorem Diagnostic.read_of_lexes {d : Diagnostic} (valid : d.severity.isValid = true) {text : String}
    (h : Json.Lexes text.toList d.toJson.tokens) :
    (Json.parse? text).bind Diagnostic.ofJson? = some d := by
  have room : d.toJson.depth ≤ Json.maxDepth := d.depth_toJson_le.trans (by decide)
  rw [Json.parse?_of_lexes h, if_pos room, Option.bind_some, Diagnostic.ofJson?_toJson valid]

/-- **Diagnostics read back.**  The text of a diagnostic with a valid severity, on one line or over
several, reads as that diagnostic: whatever its positions, texts and code are. -/
theorem diagnostics_read_back (d : Diagnostic) (valid : d.severity.isValid = true) (safe : Bool) :
    (Json.parse? (d.toJson.render safe)).bind Diagnostic.ofJson? = some d ∧
    (Json.parse? (d.toJson.pretty safe)).bind Diagnostic.ofJson? = some d := by
  constructor
  · exact Diagnostic.read_of_lexes valid (Json.lexes_render safe d.toJson d.numerals_toJson)
  · exact Diagnostic.read_of_lexes valid (Json.lexes_renderIndented safe 0 d.toJson d.numerals_toJson)

/-- A finding at the edges of what a diagnostic can hold. -/
def extremeDiagnostic : Diagnostic :=
  { range := ⟨⟨Int64.minValue, Int64.maxValue⟩, ⟨-1, 0⟩⟩
    severity := .hint
    code := some (.text "-7")
    source := ""
    message := "a \"quoted\" <b> &\n\t\u2028 \\ 字"
    ruleId := ""
    uri := "file:///a b.sol"
    sameLine := [⟨⟨0, 0⟩, ⟨0, 1⟩⟩, ⟨⟨Int64.maxValue, -1⟩, ⟨0, 0⟩⟩] }

theorem diagnostics_read_back_extreme :
    extremeDiagnostic.severity.isValid = true ∧
    (Json.parse? extremeDiagnostic.toJson.compact).bind Diagnostic.ofJson? = some extremeDiagnostic :=
  ⟨by decide, (diagnostics_read_back extremeDiagnostic (by decide) true).1⟩

end SolidityLint
