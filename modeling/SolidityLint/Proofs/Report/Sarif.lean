import Mathlib.Data.List.Forall2
import Mathlib.Data.List.Nodup
import SolidityLint.Report.Documents

/-!
# Report — results and the rules that they name

A SARIF document describes each rule once, and a result names its rule by its place among the
descriptions.  The descriptions are written on the way, with the first finding of each rule.

* `SarifRun.Sound.addFinding`: the places stay right as findings are added.
* `SarifRun.writes_addFile`: the results and notes that a file brings.
* `sarif_results_name_rules`: what a reader of the document finds.
-/

namespace SolidityLint

/-! ### Reading a document -/

namespace Json

/-- The items of an array. -/
def items : Json → List Json
  | .arr items => items
  | _ => []

/-- What stands at the end of a chain of keys. -/
def at? (keys : List String) (j : Json) : Option Json := keys.foldlM (fun j key => j.get? key) j

/-- A member of an object whose keys occur once. -/
theorem get?_ofOptional {members : List (String × Option Json)} (once : (members.map (·.1)).Nodup)
    {key : String} {value : Option Json} (h : (key, value) ∈ members) :
    (ofOptional members).get? key = value := by
  have unique {m : String × Option Json} (among : m ∈ members) (same : m.1 = key) :
      m = (key, value) :=
    List.inj_on_of_nodup_map once among h same
  obtain ⟨kept, all, whole⟩ : ∃ kept, ofOptional members = .obj kept ∧
      ∀ j, (key, j) ∈ kept ↔ value = some j := by
    refine ⟨_, rfl, fun j => List.mem_filterMap.trans ?_⟩
    simp only [Option.map_eq_some_iff, Prod.mk.injEq]
    constructor
    · rintro ⟨m, among, _, own, same, rfl⟩
      rw [unique among same] at own
      exact own
    · rintro rfl
      exact ⟨_, h, j, rfl, rfl, rfl⟩
  rw [all, get?]
  cases found : kept.reverse.find? (·.1 == key) with
  | none =>
      cases value with
      | none => rfl
      | some j =>
          have among := List.mem_reverse.mpr ((whole j).mpr rfl)
          exact absurd (beq_self_eq_true key) (List.find?_eq_none.mp found _ among)
  | some p =>
      obtain ⟨k, j⟩ := p
      obtain rfl : k = key := by simpa using List.find?_some found
      exact ((whole j).mp (List.mem_reverse.mp (List.mem_of_find?_eq_some found))).symm

end Json

namespace Report

variable {docs : List Documentation} {shown : String → String} {run run' : SarifRun} {id : String}
  {place : Nat}

/-- The findings that a file brings, each by itself. -/
def reported (f : FileOutcome) : List Diagnostic :=
  if f.error.isSome then [] else unaggregate ((f.result.map (·.diagnostics)).getD [])

/-- The findings of files without an error, with the paths that are shown, in order. -/
def reportedFindings (shown : String → String) (files : List FileOutcome) :
    List (String × Diagnostic) :=
  files.flatMap fun f => (reported f).map (shown f.path, ·)

/-- The notes about the files with an error, in order. -/
def errorNotes (shown : String → String) (files : List FileOutcome) : List Json :=
  files.filterMap fun f => f.error.map (sarifNotification (shown f.path))

/-- The notes of the document's part about a run. -/
def notifications (run : Json) : List Json :=
  ((run.get? "invocations").toList.flatMap Json.items).flatMap fun invocation =>
    (invocation.get? "toolExecutionNotifications").toList.flatMap Json.items

/-- The id of a rule that is described. -/
theorem get?_id_sarifRule (docs : List Documentation) (d : Diagnostic) :
    (sarifRule docs d).get? "id" = some (.str d.ruleId) :=
  Json.get?_ofOptional (by simp) List.mem_cons_self

namespace SarifRun

/-! ### Places -/

/-- The rule at the place has the id. -/
def Names (run : SarifRun) (place : Nat) (id : String) : Prop :=
  ∃ rule, run.rules[place]? = some rule ∧ rule.get? "id" = some (.str id)

theorem names_iff (lt : place < run.rules.size) :
    run.Names place id ↔ run.rules[place].get? "id" = some (.str id) := by
  simp [Names, Array.getElem?_eq_getElem lt]

/-- A rule that is added has the last place. -/
theorem names_push {rule : Json} {own : String} (rules : run'.rules = run.rules.push rule)
    (named : rule.get? "id" = some (.str own)) :
    run'.Names place id ↔ run.Names place id ∨ place = run.rules.size ∧ id = own := by
  unfold Names
  rw [rules, Array.getElem?_push]
  by_cases last : place = run.rules.size
  · simp [last, named, eq_comm]
  · simp [last]

/-- The places are those of the rules, the results name their rules, and each rule has a result. -/
structure Sound (run : SarifRun) : Prop where
  places : ∀ id place, run.places.lookup id = some place ↔ run.Names place id
  described : ∀ place < run.rules.size, ∃ id, run.Names place id
  named : ∀ result ∈ run.results, ∃ place id, result.get? "ruleIndex" = some (.nat place) ∧
    result.get? "ruleId" = some (.str id) ∧ run.Names place id
  used : ∀ place id, run.Names place id → ∃ result ∈ run.results,
    result.get? "ruleIndex" = some (.nat place)

theorem sound_empty : Sound {} where
  places := by simp [Names]
  described := by simp
  named := by simp
  used := by simp [Names]

/-- A finding of a rule that has a place. -/
theorem Sound.known (h : run.Sound) (uri : String) {d : Diagnostic}
    (known : run.places.lookup d.ruleId = some place) :
    Sound { run with results := run.results.push (sarifResult uri place d) } := by
  have names := (h.places _ _).mp known
  refine ⟨h.places, h.described, fun result among => ?_, fun place id names => ?_⟩
  · rcases Array.mem_push.mp among with old | rfl
    · exact h.named result old
    · exact ⟨place, d.ruleId, rfl, rfl, names⟩
  · obtain ⟨result, old, own⟩ := h.used place id names
    exact ⟨result, Array.mem_push_of_mem _ old, own⟩

/-- The first finding of a rule. -/
theorem Sound.first (h : run.Sound) (docs : List Documentation) (uri : String) {d : Diagnostic}
    (unknown : run.places.lookup d.ruleId = none)
    (rules : run'.rules = run.rules.push (sarifRule docs d))
    (places : run'.places = (d.ruleId, run.rules.size) :: run.places)
    (results : run'.results = run.results.push (sarifResult uri run.rules.size d)) : run'.Sound := by
  have now {place : Nat} {id : String} : run'.Names place id ↔
      run.Names place id ∨ place = run.rules.size ∧ id = d.ruleId :=
    names_push rules (get?_id_sarifRule docs d)
  have fresh (place : Nat) : ¬run.Names place d.ruleId := fun names => by
    simpa [unknown] using (h.places _ _).mpr names
  constructor
  case places =>
    intro id place
    rw [places, List.lookup_cons, now]
    by_cases same : id = d.ruleId
    · subst same
      simp [fresh, eq_comm]
    · rw [beq_false_of_ne same, ← h.places]
      simp [same]
  case described =>
    intro place lt
    rw [rules, Array.size_push] at lt
    rcases Nat.lt_succ_iff_lt_or_eq.mp lt with old | rfl
    · obtain ⟨id, names⟩ := h.described place old
      exact ⟨id, now.mpr (.inl names)⟩
    · exact ⟨d.ruleId, now.mpr (.inr ⟨rfl, rfl⟩)⟩
  case named =>
    intro result among
    rw [results] at among
    rcases Array.mem_push.mp among with old | rfl
    · obtain ⟨place, id, index, own, names⟩ := h.named result old
      exact ⟨place, id, index, own, now.mpr (.inl names)⟩
    · exact ⟨run.rules.size, d.ruleId, rfl, rfl, now.mpr (.inr ⟨rfl, rfl⟩)⟩
  case used =>
    intro place id names
    rw [results]
    rcases now.mp names with old | ⟨rfl, rfl⟩
    · obtain ⟨result, among, index⟩ := h.used place id old
      exact ⟨result, Array.mem_push_of_mem _ among, index⟩
    · exact ⟨_, Array.mem_push_self, rfl⟩

/-- **A finding** leaves the places right. -/
theorem Sound.addFinding (h : run.Sound) (docs : List Documentation) (uri : String) (d : Diagnostic) :
    (run.addFinding docs uri d).Sound := by
  rw [SarifRun.addFinding]
  split
  · next known => exact h.known uri known
  · next unknown => exact h.first docs uri unknown rfl rfl rfl

/-- A file leaves the places right. -/
theorem Sound.addFile (h : run.Sound) (docs : List Documentation) (shown : String → String)
    (f : FileOutcome) : (run.addFile docs shown f).Sound := by
  rw [SarifRun.addFile]
  split
  · exact ⟨h.places, h.described, h.named, h.used⟩
  · exact h
  · next r _ _ =>
      generalize unaggregate r.diagnostics = ds
      induction ds generalizing run with
      | nil => exact h
      | cons d ds ih => exact ih (h.addFinding docs _ d)

/-- Each rule is described once. -/
theorem Sound.nodup (h : run.Sound) : (run.rules.toList.map (·.get? "id")).Nodup := by
  rw [List.Nodup, List.pairwise_iff_getElem]
  intro i j hi hj lt same
  simp only [List.length_map, Array.length_toList, List.getElem_map, Array.getElem_toList] at hi hj same
  obtain ⟨id, first⟩ := h.described i hi
  have second : run.Names j id := (names_iff hj).mpr (same ▸ (names_iff hi).mp first)
  have place := ((h.places id i).mpr first).symm.trans ((h.places id j).mpr second)
  exact Nat.ne_of_lt lt (Option.some.inj place)

/-! ### Results and notes -/

/-- What the findings and the notes add to a run. -/
structure Writes (run run' : SarifRun) (found : List (String × Diagnostic)) (notes : List Json) :
    Prop where
  results : ∃ new, run'.results.toList = run.results.toList ++ new ∧
    List.Forall₂ (fun p result => ∃ place, result = sarifResult p.1 place p.2) found new
  notes : run'.notes.toList = run.notes.toList ++ notes

namespace Writes

theorem refl (run : SarifRun) : Writes run run [] [] :=
  ⟨⟨[], (List.append_nil _).symm, .nil⟩, (List.append_nil _).symm⟩

theorem trans {run'' : SarifRun} {found found' : List (String × Diagnostic)} {notes notes' : List Json}
    (h : Writes run run' found notes) (h' : Writes run' run'' found' notes') :
    Writes run run'' (found ++ found') (notes ++ notes') := by
  obtain ⟨new, old, results⟩ := h.results
  obtain ⟨new', old', results'⟩ := h'.results
  refine ⟨⟨new ++ new', ?_, List.rel_append results results'⟩, ?_⟩
  · rw [old', old, List.append_assoc]
  · rw [h'.notes, h.notes, List.append_assoc]

end Writes

theorem writes_addFinding (docs : List Documentation) (uri : String) (run : SarifRun) (d : Diagnostic) :
    Writes run (run.addFinding docs uri d) [(uri, d)] [] := by
  rw [addFinding]
  split
  all_goals
    exact ⟨⟨_, Array.toList_push, .cons ⟨_, rfl⟩ .nil⟩, (List.append_nil _).symm⟩

/-- A file brings a note or its findings. -/
theorem writes_addFile (docs : List Documentation) (shown : String → String) (run : SarifRun)
    (f : FileOutcome) :
    Writes run (run.addFile docs shown f) ((reported f).map (shown f.path, ·))
      (f.error.map (sarifNotification (shown f.path))).toList := by
  rw [addFile, reported]
  cases f.error with
  | some e => exact ⟨⟨[], (List.append_nil _).symm, .nil⟩, Array.toList_push⟩
  | none =>
      cases f.result with
      | none => exact .refl run
      | some r =>
          simp only [Option.isSome_none, Bool.false_eq_true, if_false, Option.map_some,
            Option.getD_some, Option.map_none, Option.toList_none]
          generalize unaggregate r.diagnostics = ds
          induction ds generalizing run with
          | nil => exact .refl run
          | cons d ds ih => exact (writes_addFinding docs _ run d).trans (ih _)

/-! ### The document -/

theorem at?_rules (run : SarifRun) (version : String) :
    (run.toJson version).at? ["tool", "driver", "rules"] = some (.arr run.rules.toList) := by
  have tool : (run.toJson version).get? "tool" = some _ := Json.get?_ofOptional (by simp) (.head _)
  simp only [Json.at?, List.foldlM_cons, tool]
  rfl

theorem get?_results (run : SarifRun) (version : String) :
    (run.toJson version).get? "results" = some (.arr run.results.toList) :=
  Json.get?_ofOptional (by simp) (.tail _ (.head _))

/-- The notes that are read are those that were written. -/
theorem notifications_toJson (run : SarifRun) (version : String) :
    notifications (run.toJson version) = run.notes.toList := by
  have invocations : (run.toJson version).get? "invocations" = _ :=
    Json.get?_ofOptional (by simp) (.tail _ (.tail _ (.head _)))
  have inside : (Json.obj [("executionSuccessful", .bool false),
      ("toolExecutionNotifications", .arr run.notes.toList)]).get? "toolExecutionNotifications" =
        some (.arr run.notes.toList) := rfl
  rw [notifications, invocations]
  split
  · next none => simp [Array.isEmpty_iff.mp none]
  · simp [Json.items, inside]

end SarifRun

/-! ### Every run -/

/-- **Every run**: its places are right, and it has the results of the findings and the notes of the
errors. -/
theorem sound_sarifRun (docs : List Documentation) (shown : String → String) (r : Option RunResult) :
    (sarifRun docs shown r).Sound ∧
      SarifRun.Writes {} (sarifRun docs shown r) (reportedFindings shown ((r.map (·.files)).getD []))
        (errorNotes shown ((r.map (·.files)).getD [])) := by
  rw [sarifRun]
  generalize (r.map (·.files)).getD [] = files
  have whole (run : SarifRun) (h : run.Sound) :
      (files.foldl (SarifRun.addFile docs shown) run).Sound ∧
        SarifRun.Writes run (files.foldl (SarifRun.addFile docs shown) run)
          (reportedFindings shown files) (errorNotes shown files) := by
    induction files generalizing run with
    | nil => exact ⟨h, .refl run⟩
    | cons f files ih =>
        obtain ⟨sound, writes⟩ := ih _ (h.addFile docs shown f)
        refine ⟨sound, ?_⟩
        have both := (SarifRun.writes_addFile docs shown run f).trans writes
        have notes : (f.error.map (sarifNotification (shown f.path))).toList ++ errorNotes shown files =
            errorNotes shown (f :: files) := by
          rw [errorNotes, errorNotes, List.filterMap_cons]
          cases f.error <;> rfl
        rw [notes] at both
        exact both
  exact whole {} SarifRun.sound_empty

/-- **Results name their rules** in the document of every run.  The described rules have different
ids; each result has the place of the rule whose id it gives, and each rule is at the place of some
result.  The results are those of the findings of files without an error, file by file and each
finding by itself, and there is a note for each file with an error, in order. -/
theorem sarif_results_name_rules (version : String) (docs : List Documentation)
    (shown : String → String) (r : Option RunResult) :
    let files := (r.map (·.files)).getD []
    ∃ run rules results,
      (sarifDocument version docs shown r).get? "runs" = some (.arr [run]) ∧
      run.at? ["tool", "driver", "rules"] = some (.arr rules) ∧
      run.get? "results" = some (.arr results) ∧
      (rules.map (·.get? "id")).Nodup ∧
      (∀ result ∈ results, ∃ place rule id, result.get? "ruleIndex" = some (.nat place) ∧
        result.get? "ruleId" = some (.str id) ∧ rules[place]? = some rule ∧
        rule.get? "id" = some (.str id)) ∧
      (∀ place < rules.length, ∃ result ∈ results, result.get? "ruleIndex" = some (.nat place)) ∧
      List.Forall₂ (fun p result => ∃ place, result = sarifResult p.1 place p.2)
        (reportedFindings shown files) results ∧
      notifications run = errorNotes shown files := by
  intro files
  obtain ⟨sound, ⟨results, all, each⟩, notes⟩ := sound_sarifRun docs shown r
  have part : (sarifDocument version docs shown r).get? "runs" =
      some (.arr [(sarifRun docs shown r).toJson version]) := rfl
  generalize sarifRun docs shown r = run at *
  refine ⟨run.toJson version, run.rules.toList, run.results.toList, part, run.at?_rules version,
    run.get?_results version, sound.nodup, fun result among => ?_, fun place lt => ?_, ?_, ?_⟩
  · obtain ⟨place, id, index, own, rule, there, described⟩ :=
      sound.named result (Array.mem_toList_iff.mp among)
    exact ⟨place, rule, id, index, own, by rwa [Array.getElem?_toList], described⟩
  · obtain ⟨id, names⟩ := sound.described place (by rwa [Array.length_toList] at lt)
    obtain ⟨result, among, index⟩ := sound.used place id names
    exact ⟨result, Array.mem_toList_iff.mpr among, index⟩
  · rw [all]
    exact each
  · rw [run.notifications_toJson version, notes]
    rfl

end Report

end SolidityLint
