import SolidityLint.Config.RuleSet
import SolidityLint.Proofs.Config.DataText

/-!
# Config — rule sets in JSON

What `RuleSet.renderJson?` writes, `RuleSet.parse` reads as the same rule set
(`rule_sets_read_back`): the fields of the set and of its entries are known to the reader under
the names they are written with, an entry without options has none when it is read, and the check
of ids and severities passes again.  The writer gives up where the reader would: three brackets
stand around the options of an entry, so that these may be nested `Json.maxDepth - 3` levels deep
and no deeper (`nestedSet_refused`).
-/

namespace SolidityLint

namespace RuleSet

/-! ### Checking -/

theorem check_eq_ok_iff {es : List RuleEntry} (i : Nat) :
    check i es = .ok () ↔ ∀ e ∈ es, e.id ≠ "" ∧ e.severity.isValid = true := by
  induction es generalizing i with
  | nil => simp [check]
  | cons e es ih =>
      rw [check, List.forall_mem_cons, ← ih (i + 1)]
      by_cases id : e.id = "" <;> by_cases severity : e.severity.isValid = true <;>
        simp [id, severity]

/-! ### Entries -/

section Fields

variable (d : Draft RuleEntry)

theorem readEntryField_id (s : String) : readEntryField d ("id", .str s) =
    .ok { d with value := { d.value with id := s } } :=
  rfl

theorem readEntryField_severity {s : Severity} (valid : s.isValid = true) :
    readEntryField d ("severity", .str s.name) =
      .ok { d with value := { d.value with severity := s } } := by
  have known : severityOfJson (.str s.name) = .ok s := if_pos valid
  have field : readEntryField d ("severity", .str s.name) =
      (severityOfJson (.str s.name)).map fun s =>
        { d with value := { d.value with severity := s } } := rfl
  rw [field, known]
  rfl

theorem readEntryField_data {j : Json} {data : Data} (h : Data.ofJson? j = some data) :
    readEntryField d ("data", j) = .ok { d with value := { d.value with data } } := by
  have field : fieldOf? ["id", "severity", "data"] "data" = some "data" := rfl
  simp only [readEntryField, field, h]

end Fields

/-- The JSON form of an entry with the form of its options. -/
def entryForm (e : RuleEntry) (data : Option Json) : Json :=
  .ofOptional [("id", some (.str e.id)), ("severity", some (.str e.severity.name)), ("data", data)]

theorem numerals_entryForm {e : RuleEntry} {data : Option Json} (h : ∀ j ∈ data, j.Numerals) :
    (entryForm e data).Numerals :=
  Json.numerals_ofOptional (by simpa [Json.numerals_str] using h)

theorem depth_entryForm_le {e : RuleEntry} {data : Option Json} {n : Nat}
    (h : ∀ j ∈ data, j.depth ≤ n) : (entryForm e data).depth ≤ n + 1 :=
  Json.depth_ofOptional_le (by simpa [Json.depth] using h)

/-- An entry has a JSON form, and it reads as the entry with the options that they are read as. -/
theorem entry_read_back {e : RuleEntry} (valid : e.severity.isValid = true) {n : Nat} {j : Json}
    {data : Data} (carried : Data.Carried n e.data j data) :
    ∃ v, entryJson? e = some v ∧ readEntry default v = .ok ⟨{ e with data }, false⟩ ∧
      v.Numerals ∧ v.depth ≤ n + 1 := by
  cases null : e.data.isNull with
  | true =>
      have absent : e.data = .null := by
        revert null
        cases e.data <;> simp [Data.isNull]
      have still : data = .null := absent ▸ carried.settled (absent ▸ .null)
      refine ⟨entryForm e none, by rw [entryJson?, null]; rfl, ?_, numerals_entryForm (by simp),
        depth_entryForm_le (by simp)⟩
      have fields : readEntry default (entryForm e none) =
          (readEntryField ⟨default, false⟩ ("id", .str e.id)).bind fun d =>
            (readEntryField d ("severity", .str e.severity.name)).bind fun d => .ok d := rfl
      rw [fields, readEntryField_id, Except.bind, readEntryField_severity _ valid, still]
      rfl
  | false =>
      refine ⟨entryForm e (some j), ?_, ?_, numerals_entryForm ?_, depth_entryForm_le ?_⟩
      · rw [entryJson?, null, carried.toJson]
        rfl
      · have fields : readEntry default (entryForm e (some j)) =
          (readEntryField ⟨default, false⟩ ("id", .str e.id)).bind fun d =>
            (readEntryField d ("severity", .str e.severity.name)).bind fun d =>
              (readEntryField d ("data", j)).bind fun d => .ok d := rfl
        rw [fields, readEntryField_id, Except.bind, readEntryField_severity _ valid, Except.bind,
          readEntryField_data _ carried.ofJson]
        rfl
      · simpa using carried.numerals
      · simpa using carried.depth

/-- Entries are read one by one where none stood before. -/
theorem readEntries_map {es : List RuleEntry} {f : RuleEntry → Json} {g : RuleEntry → RuleEntry}
    (h : ∀ e ∈ es, readEntry default (f e) = .ok ⟨g e, false⟩) :
    readEntries [] (es.map f) = .ok ⟨es.map g, false⟩ := by
  induction es with
  | nil => rfl
  | cons e es ih =>
      obtain ⟨first, others⟩ := List.forall_mem_cons.mp h
      have next : readEntries [] (f e :: es.map f) =
          (readEntry default (f e)).bind fun e => (readEntries [] (es.map f)).bind fun es =>
            .ok ⟨e.value :: es.value, e.spoilt || es.spoilt⟩ := rfl
      rw [List.map_cons, next, first, ih others]
      rfl

theorem ofJson_obj {name : String} {items : List Json} {es : List RuleEntry}
    (h : readEntries [] items = .ok ⟨es, false⟩) :
    ofJson (.obj [("name", .str name), ("rules", .arr items)]) = .ok ⟨name, some es⟩ := by
  have rules : readField ⟨⟨name, none⟩, false⟩ ("rules", .arr items) =
      .ok ⟨⟨name, some es⟩, false⟩ := by
    have field : readField ⟨⟨name, none⟩, false⟩ ("rules", .arr items) =
        (readEntries [] items).map fun es => ⟨⟨name, some es.value⟩, false || es.spoilt⟩ := rfl
    rw [field, h]
    rfl
  have fields : ofJson (.obj [("name", .str name), ("rules", .arr items)]) =
      ((readField ⟨⟨name, none⟩, false⟩ ("rules", .arr items)).bind .ok).bind fun d =>
        if d.spoilt then .error .unreadable else .ok d.value := rfl
  rw [fields, rules]
  rfl

/-! ### Sets -/

theorem mapM_entryJson? {es : List RuleEntry} {f : RuleEntry → Json}
    (h : ∀ e ∈ es, entryJson? e = some (f e)) : es.mapM entryJson? = some (es.map f) := by
  induction es with
  | nil => rfl
  | cons e es ih =>
      obtain ⟨first, others⟩ := List.forall_mem_cons.mp h
      simp [first, ih others]

/-- The JSON form of a set with the forms of its entries. -/
def setForm (name : String) (items : List Json) : Json :=
  .obj [("name", .str name), ("rules", .arr items)]

theorem toJson?_eq {rs : RuleSet} {es : List RuleEntry} (given : rs.rules? = some es)
    {f : RuleEntry → Json} (h : ∀ e ∈ es, entryJson? e = some (f e)) :
    rs.toJson? = some (setForm rs.name (es.map f)) := by
  have items := mapM_entryJson? h
  simp [toJson?, given, items, setForm]

theorem numerals_setForm (name : String) {items : List Json} (h : ∀ v ∈ items, v.Numerals) :
    (setForm name items).Numerals := by
  simpa [setForm, Json.numerals_obj, Json.numerals_str, Json.numerals_arr] using h

theorem depth_setForm (name : String) (items : List Json) :
    (setForm name items).depth = Json.itemsDepth items + 2 := by
  simp [setForm, Json.depth, Json.membersDepth]

/-- A text over several lines with a line end is read as what was written, if it is not nested too
deeply. -/
theorem parseFirst?_pretty {v : Json} (numerals : v.Numerals) (room : v.depth ≤ Json.maxDepth) :
    Json.parseFirst? (v.pretty ++ "\n") = some v := by
  have text := (Json.lexes_renderIndented true 0 v numerals).append
    (Json.lexes_nil.blank (c := '\n') rfl) (Json.stops_cons.mpr rfl)
  rw [List.append_nil] at text
  rw [Json.parseFirst?_of_lexes (v := v) (by simpa [Json.pretty] using text), if_pos room]

theorem parse_json {text : String} {v : Json} {rs : RuleSet} (first : Json.parseFirst? text = some v)
    (read : ofJson v = .ok rs) (passes : check 0 rs.rules = .ok ()) :
    parse .json text = .ok rs := by
  have checked : parse .json text = (check 0 rs.rules).bind fun _ => .ok rs := by
    simp only [parse, first, read]
    rfl
  rw [checked, passes]
  rfl

end RuleSet

/-- The same entry, with the same options. -/
structure RuleEntry.Same (e e' : RuleEntry) : Prop where
  id : e'.id = e.id
  severity : e'.severity = e.severity
  data : e.data.Same e'.data

/-- **Rule sets read back.**  A rule set that passes the check, with options that JSON holds
without loss and that are nested at most 9997 levels deep, is written, and its text reads as the
same rule set: the same name and the same entries in the same order.  A set that was read from
JSON reads back as it is. -/
theorem rule_sets_read_back (rs : RuleSet) (entries : List RuleEntry)
    (given : rs.rules? = some entries) (passes : RuleSet.check 0 entries = .ok ())
    (plain : ∀ e ∈ entries, e.data.Plain 9997) :
    ∃ text entries', rs.renderJson? = some text ∧
      RuleSet.parse .json text = .ok ⟨rs.name, some entries'⟩ ∧
      List.Forall₂ RuleEntry.Same entries entries' ∧
      ((∀ e ∈ entries, e.data.Settled) → entries' = entries) := by
  have valid := (RuleSet.check_eq_ok_iff 0).mp passes
  have each : ∀ e ∈ entries, ∃ v data j, Data.Carried 9997 e.data j data ∧
      RuleSet.entryJson? e = some v ∧ RuleSet.readEntry default v = .ok ⟨{ e with data }, false⟩ ∧
      v.Numerals ∧ v.depth ≤ 9998 := by
    intro e he
    obtain ⟨j, data, carried⟩ := (plain e he).carried
    obtain ⟨v, entry⟩ := RuleSet.entry_read_back (valid e he).2 carried
    exact ⟨v, data, j, carried, entry⟩
  choose! f data form carried written read numerals depth using each
  have toJson := RuleSet.toJson?_eq given written
  have room : (RuleSet.setForm rs.name (entries.map f)).depth ≤ Json.maxDepth := by
    have items : Json.itemsDepth (entries.map f) ≤ 9998 := by
      rw [Json.itemsDepth_le_iff, List.forall_mem_map]
      exact depth
    rw [RuleSet.depth_setForm, Json.maxDepth]
    omega
  obtain ⟨entries', same⟩ : ∃ entries', entries' = entries.map fun e => { e with data := data e } :=
    ⟨_, rfl⟩
  have reads : RuleSet.ofJson (RuleSet.setForm rs.name (entries.map f)) =
      .ok ⟨rs.name, some entries'⟩ := by
    rw [same]
    exact RuleSet.ofJson_obj (RuleSet.readEntries_map read)
  have numerals := RuleSet.numerals_setForm rs.name (List.forall_mem_map.mpr numerals)
  have passes' : RuleSet.check 0 entries' = .ok () := by
    rw [RuleSet.check_eq_ok_iff, same, List.forall_mem_map]
    exact valid
  have parsed := RuleSet.parse_json (RuleSet.parseFirst?_pretty numerals room) reads passes'
  refine ⟨_, entries', ?_, parsed, ?_, ?_⟩
  · rw [RuleSet.renderJson?, toJson]
    exact if_pos room
  · rw [same, List.forall₂_map_right_iff, List.forall₂_same]
    exact fun e he => ⟨rfl, rfl, (carried e he).same⟩
  · intro settled
    have fixed : entries.map (fun e => { e with data := data e }) = entries.map id :=
      List.map_congr_left fun e he => by rw [(carried e he).settled (settled e he)]; rfl
    rw [same, fixed, List.map_id]

/-- A set with every kind of option, and an entry without any. -/
def mixedSet : RuleSet :=
  .ofEntries "a <mixed> set"
    [⟨"max-lines", .warning, .map [("skip", .list [.null, .str "a\"\\\n&", .bool false]),
      ("limit", .int (2 ^ 53)), ("offset", .float (.ofInt (-7))), ("", .map [])]⟩,
    ⟨"no-tabs", .hint, .null⟩]

theorem rule_sets_read_back_mixed :
    RuleSet.check 0 mixedSet.rules = .ok () ∧ (∀ e ∈ mixedSet.rules, e.data.Plain 9997) ∧
    ∃ text entries', mixedSet.renderJson? = some text ∧
      RuleSet.parse .json text = .ok ⟨"a <mixed> set", some entries'⟩ ∧
      List.Forall₂ RuleEntry.Same mixedSet.rules entries' := by
  have passes : RuleSet.check 0 mixedSet.rules = .ok () := rfl
  have plain : ∀ e ∈ mixedSet.rules, e.data.Plain 9997 := by
    simp only [mixedSet, RuleSet.ofEntries, RuleSet.rules, Option.getD_some, List.forall_mem_cons]
    refine ⟨.map (by decide) ?_, .null, by simp⟩
    simp only [List.forall_mem_cons]
    refine ⟨.list ?_, .int (by decide), .double (by decide), .map (by decide) (by simp), by simp⟩
    simp only [List.forall_mem_cons]
    exact ⟨.null, .str _, .bool _, by simp⟩
  obtain ⟨text, entries', written, read, same, -⟩ :=
    rule_sets_read_back mixedSet mixedSet.rules rfl passes plain
  exact ⟨passes, plain, text, entries', written, read, same⟩

/-! ### Options nested too deeply -/

/-- A list in a list and so on: `n + 1` levels. -/
def nestedLists : Nat → Data
  | 0 => .list []
  | n + 1 => .list [nestedLists n]

/-- Their JSON form. -/
def nestedArrays : Nat → Json
  | 0 => .arr []
  | n + 1 => .arr [nestedArrays n]

theorem plain_nestedLists (n : Nat) : (nestedLists n).Plain (n + 1) := by
  induction n with
  | zero => exact .list (by simp)
  | succ n ih => exact .list (by simpa using ih)

theorem toJson?_nestedLists (n : Nat) : (nestedLists n).toJson? = some (nestedArrays n) := by
  induction n with
  | zero => rfl
  | succ n ih => simp [nestedLists, nestedArrays, Data.toJson?, Data.toJsonItems?, ih]

theorem depth_nestedArrays (n : Nat) : (nestedArrays n).depth = n + 1 := by
  induction n with
  | zero => rfl
  | succ n ih => simp [nestedArrays, Json.depth, Json.itemsDepth, ih]

theorem numerals_nestedArrays (n : Nat) : (nestedArrays n).Numerals := by
  induction n with
  | zero => exact Json.numerals_arr.mpr (by simp)
  | succ n ih => exact Json.numerals_arr.mpr (by simpa using ih)

/-- An entry with nested lists as options. -/
def nestedEntry (n : Nat) : RuleEntry := ⟨"max-lines", .error, nestedLists n⟩

/-- A set with this entry only. -/
def nestedSet (n : Nat) : RuleSet := .ofEntries "nested" [nestedEntry n]

/-- Its JSON form. -/
def nestedForm (n : Nat) : Json :=
  RuleSet.setForm "nested" [RuleSet.entryForm (nestedEntry n) (some (nestedArrays n))]

theorem toJson?_nestedSet (n : Nat) : (nestedSet n).toJson? = some (nestedForm n) := by
  have present : (nestedEntry n).data.isNull = false := by cases n <;> rfl
  have form : (nestedEntry n).data.toJson? = some (nestedArrays n) := toJson?_nestedLists n
  have given : (nestedSet n).rules? = some [nestedEntry n] := rfl
  refine RuleSet.toJson?_eq given (f := fun e => RuleSet.entryForm e (some (nestedArrays n))) ?_
  rw [List.forall_mem_singleton, RuleSet.entryJson?, present, form]
  rfl

theorem depth_nestedForm (n : Nat) : (nestedForm n).depth = n + 4 := by
  simp [nestedForm, RuleSet.depth_setForm, RuleSet.entryForm, Json.ofOptional, Json.itemsDepth,
    Json.depth, Json.membersDepth, depth_nestedArrays]

theorem numerals_nestedForm (n : Nat) : (nestedForm n).Numerals := by
  refine RuleSet.numerals_setForm _ ?_
  rw [List.forall_mem_singleton]
  exact RuleSet.numerals_entryForm (by simpa using numerals_nestedArrays n)

/-- **Too deep.**  Options of more than 9997 levels are neither written nor read. -/
theorem nestedSet_refused {n : Nat} (deep : 9997 ≤ n) :
    (nestedSet n).renderJson? = none ∧
    RuleSet.parse .json (nestedForm n).compact = .error (RuleSet.malformed .unreadable) := by
  have full : ¬ (nestedForm n).depth ≤ Json.maxDepth := by
    rw [depth_nestedForm, Json.maxDepth]
    omega
  have text := Json.lexes_render true (nestedForm n) (numerals_nestedForm n)
  constructor
  · rw [RuleSet.renderJson?, toJson?_nestedSet]
    exact if_neg full
  · have first : Json.parseFirst? (nestedForm n).compact = none :=
      (Json.parseFirst?_of_lexes text).trans (if_neg full)
    simp only [RuleSet.parse, first]
    rfl

theorem nestedSet_not_read_back :
    RuleSet.check 0 [nestedEntry 9997] = .ok () ∧ (nestedEntry 9997).data.Plain 9998 ∧
    (nestedSet 9997).rules? = some [nestedEntry 9997] ∧ (nestedSet 9997).renderJson? = none ∧
    RuleSet.parse .json (nestedForm 9997).compact = .error (RuleSet.malformed .unreadable) := by
  refine ⟨?_, plain_nestedLists 9997, rfl, nestedSet_refused (Nat.le_refl 9997)⟩
  rw [RuleSet.check_eq_ok_iff, List.forall_mem_singleton]
  exact ⟨by decide, by decide⟩

end SolidityLint
