import Mathlib.Data.List.Find
import Mathlib.Data.List.Forall2
import SolidityLint.Config.Validation
import SolidityLint.Proofs.Json.SortedKeys

/-!
# Lint — what a registry holds

Categories may contribute a rule more than once; the last contribution counts.  The ids that a registry
lists are those that it finds, so the entries for which it creates rules are those that a check of
settings lets pass.

* `get?_eq_some_iff`: what is found under an id.
* `mem_ids_iff`, `ids_pairwise`: which ids are listed, and in which order.
* `pairwise_firstOfName`: the order of the categories.
* `createRules_eq`: which entries become rules.
* `known_of_isValid`: settings that are valid name known rules only.
-/

namespace SolidityLint

namespace Registry

variable {cs : List Category} {id : String} {r : Registry}

/-! ### Contributions -/

/-- What categories contribute, in order. -/
def contributions (cs : List Category) : List (Category × RuleSpec) :=
  cs.flatMap fun c => c.specs.map (c, ·)

/-- A rule as its category contributes it, with the name of the category unless it has one. -/
def filled (p : Category × RuleSpec) : RuleSpec :=
  { p.2 with category := if p.2.category = "" then p.1.name else p.2.category }

/-- The last contribution under an id. -/
def LastContributed (cs : List Category) (id : String) (s : RuleSpec) : Prop :=
  ∃ before p after, contributions cs = before ++ p :: after ∧ p.2.id = id ∧
    (∀ q ∈ after, q.2.id ≠ id) ∧ s = filled p

theorem mem_contributions {p : Category × RuleSpec} :
    p ∈ contributions cs ↔ ∃ c ∈ cs, ∃ s ∈ c.specs, p = (c, s) := by
  simp [contributions, eq_comm]

theorem flatMap_contributed (cs : List Category) :
    cs.flatMap contributed = (contributions cs).map fun p => (p.2.id, filled p) := by
  rw [contributions, List.map_flatMap]
  refine List.flatMap_congr fun c _ => ?_
  rw [contributed, List.map_map]
  refine List.map_congr_left fun s _ => ?_
  by_cases none : s.category = "" <;> simp [filled, none]

theorem get?_ofCategories (cs : List Category) (id : String) : (ofCategories cs).get? id =
    ((contributions cs).reverse.find? fun p => p.2.id == id).map filled := by
  have own : ∀ p ∈ lastOfRun (sortByKey (cs.flatMap contributed)), (p.2.id == id) = (p.1 == id) := by
    intro p hp
    have among := mem_sortByKey.mp (mem_of_mem_lastOfRun hp)
    rw [flatMap_contributed] at among
    obtain ⟨q, -, rfl⟩ := List.mem_map.mp among
    rfl
  rw [get?, ofCategories, List.find?_map]
  simp only [Function.comp_def]
  rw [List.find?_congr own, find?_sorted, flatMap_contributed, ← List.map_reverse, List.find?_map,
    Option.map_map]
  rfl

/-- **What is found under an id** is what was contributed last. -/
theorem get?_eq_some_iff {s : RuleSpec} :
    (ofCategories cs).get? id = some s ↔ LastContributed cs id s := by
  rw [get?_ofCategories, Option.map_eq_some_iff]
  constructor
  · rintro ⟨p, found, rfl⟩
    obtain ⟨own, later, before, split, others⟩ := List.find?_eq_some_iff_append.mp found
    refine ⟨before.reverse, p, later.reverse, ?_, by simpa using own, fun q hq => ?_, rfl⟩
    · simpa using congrArg List.reverse split
    · simpa using others q (List.mem_reverse.mp hq)
  · rintro ⟨before, p, after, split, own, others, rfl⟩
    refine ⟨p, List.find?_eq_some_iff_append.mpr
      ⟨by simpa using own, after.reverse, before.reverse, ?_, ?_⟩, rfl⟩
    · simp [split]
    · intro q hq
      simpa using others q (List.mem_reverse.mp hq)

/-! ### Ids -/

/-- The ids that are listed are those under which something is found. -/
theorem mem_ids_iff_isSome : id ∈ r.ids ↔ (r.get? id).isSome := by
  rw [ids, get?, List.find?_isSome, List.mem_map]
  simp

theorem ids_ofCategories (cs : List Category) : (ofCategories cs).ids =
    (lastOfRun (sortByKey (cs.flatMap contributed))).map (·.1) := by
  rw [ids, ofCategories, List.map_map]
  refine List.map_congr_left fun p hp => ?_
  have among := mem_sortByKey.mp (mem_of_mem_lastOfRun hp)
  rw [flatMap_contributed] at among
  obtain ⟨q, -, rfl⟩ := List.mem_map.mp among
  rfl

/-- **The ids are in order**, each once. -/
theorem ids_pairwise (cs : List Category) : (ofCategories cs).ids.Pairwise (· < ·) :=
  ids_ofCategories cs ▸ sorted_keys _

/-- **The ids are those that were contributed.** -/
theorem mem_ids_iff : id ∈ (ofCategories cs).ids ↔ ∃ c ∈ cs, ∃ s ∈ c.specs, s.id = id := by
  rw [ids_ofCategories, mem_keys_sorted, flatMap_contributed]
  simp only [List.mem_map, exists_exists_and_eq_and, mem_contributions]
  constructor
  · rintro ⟨_, ⟨c, hc, s, hs, rfl⟩, rfl⟩
    exact ⟨c, hc, s, hs, rfl⟩
  · rintro ⟨c, hc, s, hs, rfl⟩
    exact ⟨(c, s), ⟨c, hc, s, hs, rfl⟩, rfl⟩

/-! ### Categories -/

theorem mem_firstOfName {name : String} {names : List String} :
    name ∈ firstOfName names ↔ name ∈ names := by
  induction names with
  | nil => rfl
  | cons first names ih =>
      rw [firstOfName, List.mem_cons, List.mem_filter, ih, List.mem_cons]
      by_cases same : name = first <;> simp [same]

/-- **Names are listed once**, in the order in which they appear first. -/
theorem pairwise_firstOfName (names : List String) :
    (firstOfName names).Pairwise fun a b => names.idxOf a < names.idxOf b := by
  induction names with
  | nil => exact .nil
  | cons first names ih =>
      have later {name : String} (h : name ∈ (firstOfName names).filter (· != first)) :
          (first :: names).idxOf name = names.idxOf name + 1 := by
        have other : (first == name) = false := beq_eq_false_iff_ne.mpr
          (Ne.symm (bne_iff_ne.mp (List.mem_filter.mp h).2))
        rw [List.idxOf_cons, other, cond_false]
      refine .cons (fun name h => ?_) ?_
      · rw [later h, List.idxOf_cons_self]
        exact Nat.zero_lt_succ _
      · refine (ih.sublist List.filter_sublist).imp_of_mem fun ha hb before => ?_
        rw [later ha, later hb]
        exact Nat.succ_lt_succ before

/-! ### Rules -/

/-- **Which entries become rules**, and which do not. -/
theorem createRules_eq (r : Registry) (entries : List RuleEntry) : r.createRules entries =
    (entries.filterMap fun e => (r.get? e.id).map (·.rule e),
      (entries.filter fun e => e.id ∉ r.ids).map (·.id)) := by
  induction entries with
  | nil => rfl
  | cons e entries ih =>
      rw [createRules, ih, createRule]
      cases known : r.get? e.id with
      | none => simp [mem_ids_iff_isSome, known]
      | some s => simp [mem_ids_iff_isSome, known]

/-- The rules are those that the entries configure, one for each. -/
def RulesOf (r : Registry) : List RuleEntry → List Rule → Prop :=
  List.Forall₂ fun e rule => ∃ s, r.get? e.id = some s ∧ rule = s.rule e

/-- **Rules are created** for the entries with known ids. -/
theorem rulesOf_createRules (r : Registry) (entries : List RuleEntry) :
    r.RulesOf (entries.filter fun e => e.id ∈ r.ids) (r.createRules entries).1 := by
  rw [createRules_eq, RulesOf]
  induction entries with
  | nil => exact .nil
  | cons e entries ih =>
      cases known : r.get? e.id with
      | none => simpa [mem_ids_iff_isSome, known] using ih
      | some s => simpa [mem_ids_iff_isSome, known] using ih

end Registry

/-! ### Settings that are valid -/

namespace Validation

variable {v w : Validation}

theorem errors_append : (v ++ w).errors = v.errors ++ w.errors := rfl

theorem errors_foldl (found : List Validation) (v : Validation) :
    (found.foldl (· ++ ·) v).errors = v.errors ++ found.flatMap (·.errors) := by
  induction found generalizing v with
  | nil => simp
  | cons w found ih => rw [List.foldl_cons, ih, errors_append, List.flatMap_cons, List.append_assoc]

end Validation

/-- **Settings that are valid** name known rules only. -/
theorem Settings.known_of_isValid {r : Registry} {s : Settings} (h : (s.validate (some r)).isValid) :
    ∀ e ∈ s.ruleSet.rules, e.id ∈ r.ids := by
  intro e he
  obtain ⟨i, lt, rfl⟩ := List.mem_iff_getElem.mp he
  have none : (Settings.checkEntry (some r) s.ruleSetPath (s.ruleSet.rules.take i) i
      s.ruleSet.rules[i]).errors = [] := by
    have all : (s.validate (some r)).errors = [] := List.isEmpty_iff.mp h
    simp only [validate, Validation.errors_append, List.append_eq_nil_iff, checkRules,
      Validation.errors_foldl, List.flatMap_eq_nil_iff] at all
    exact all.1.2.1.2 _ (List.mem_mapIdx.mpr ⟨i, lt, rfl⟩)
  rw [Settings.checkEntry] at none
  split at none
  · cases none
  · have known := (List.append_eq_nil_iff.mp none).1
    rw [errorIf] at known
    split at known
    · cases known
    · next found =>
        rw [Registry.mem_ids_iff_isSome, Option.isSome_iff_ne_none]
        simpa using found

/-- **A registry holds what was contributed last**, it creates rules for exactly the entries that name
what it holds, and these are all entries of settings that are valid. -/
theorem registry_creates_what_was_contributed (cs : List Category) :
    ((Registry.ofCategories cs).ids.Pairwise (· < ·) ∧
      ∀ id, id ∈ (Registry.ofCategories cs).ids ↔ ∃ c ∈ cs, ∃ s ∈ c.specs, s.id = id) ∧
    (∀ id s, (Registry.ofCategories cs).get? id = some s ↔ Registry.LastContributed cs id s) ∧
    ((∀ name, name ∈ (Registry.ofCategories cs).categories ↔ ∃ c ∈ cs, c.name = name) ∧
      (Registry.ofCategories cs).categories.Pairwise fun a b =>
        (cs.map (·.name)).idxOf a < (cs.map (·.name)).idxOf b) ∧
    ∀ r : Registry,
      (∀ entries, r.RulesOf (entries.filter fun e => e.id ∈ r.ids) (r.createRules entries).1 ∧
        (r.createRules entries).2 = (entries.filter fun e => e.id ∉ r.ids).map (·.id)) ∧
      ∀ settings : Settings, (settings.validate (some r)).isValid →
        Failure.ofUnknown? (r.createRules settings.ruleSet.rules).2 = none ∧
        r.RulesOf settings.ruleSet.rules (r.createRules settings.ruleSet.rules).1 := by
  refine ⟨⟨Registry.ids_pairwise cs, fun _ => Registry.mem_ids_iff⟩,
    fun _ _ => Registry.get?_eq_some_iff, ⟨fun name => ?_, Registry.pairwise_firstOfName _⟩,
    fun r => ⟨fun entries => ⟨r.rulesOf_createRules entries, by rw [r.createRules_eq]⟩,
      fun settings valid => ?_⟩⟩
  · rw [Registry.ofCategories, Registry.mem_firstOfName, List.mem_map]
  · have known := Settings.known_of_isValid valid
    have all : settings.ruleSet.rules.filter (fun e => e.id ∈ r.ids) = settings.ruleSet.rules :=
      List.filter_eq_self.mpr fun e he => decide_eq_true (known e he)
    have none : settings.ruleSet.rules.filter (fun e => e.id ∉ r.ids) = [] :=
      List.filter_eq_nil_iff.mpr fun e he => by simpa using known e he
    have created := r.rulesOf_createRules settings.ruleSet.rules
    rw [all] at created
    refine ⟨?_, created⟩
    rw [r.createRules_eq]
    simp only [none]
    rfl

/-- A rule that two categories contribute. -/
def sharedSpec (severity : Severity) : RuleSpec :=
  { id := "shared", category := "", severity, data := .null
    configure := fun _ => (fun _ _ => some [], true)
    document := fun e => { id := e.id } }

/-- The categories. -/
def sharing : List Category :=
  [⟨"naming", [sharedSpec .warning]⟩, ⟨"security", [sharedSpec .error]⟩]

/-- Settings that use the rule. -/
def usingShared : Settings := .ofRuleSet (.ofEntries "" [⟨"shared", .hint, .null⟩])

theorem lastContributed_sharing :
    Registry.LastContributed sharing "shared" { sharedSpec .error with category := "security" } :=
  ⟨[(⟨"naming", [sharedSpec .warning]⟩, sharedSpec .warning)],
    (⟨"security", [sharedSpec .error]⟩, sharedSpec .error), [], rfl, rfl, nofun, rfl⟩

/-- The category that comes later gives the rule, and it is created from there. -/
theorem registry_creates_what_was_contributed_sharing :
    (usingShared.validate (some (.ofCategories sharing))).isValid ∧
    (Registry.ofCategories sharing).get? "shared" =
      some { sharedSpec .error with category := "security" } ∧
    Failure.ofUnknown? ((Registry.ofCategories sharing).createRules usingShared.ruleSet.rules).2 =
      none ∧
    (Registry.ofCategories sharing).RulesOf usingShared.ruleSet.rules
      ((Registry.ofCategories sharing).createRules usingShared.ruleSet.rules).1 := by
  obtain ⟨-, found, -, creates⟩ := registry_creates_what_was_contributed sharing
  have shared := (found _ _).mpr lastContributed_sharing
  have valid : (usingShared.validate (some (.ofCategories sharing))).isValid := by
    have fields : usingShared.checkFields.errors = [] := List.isEmpty_iff.mp rfl
    have hint : Severity.hint.isValid = true := rfl
    have rules : usingShared.ruleSet.rules = [⟨"shared", .hint, .null⟩] := rfl
    have patterns : usingShared.ignoring = none := rfl
    simp [Validation.isValid, Settings.validate, Validation.errors_append, fields, Settings.checkRules,
      rules, Settings.checkEntry, Settings.errorIf, shared, hint, patterns]
  exact ⟨valid, shared, (creates _).2 usingShared valid⟩

end SolidityLint
