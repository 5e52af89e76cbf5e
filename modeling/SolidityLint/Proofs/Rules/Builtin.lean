import Mathlib
import SolidityLint.Proofs.Ast.Coverage
import SolidityLint.Proofs.Lint.Registry
import SolidityLint.Proofs.Lint.Schedule
import SolidityLint.Proofs.Rules.Readings

/-!
# Rules — the built-in rules and what breaks them

A rule of a registry was contributed by one of its categories (`Registry.exists_contributed`), so a
fact about all built-in rules is one about each specification of the catalog.  The fact here is
which of them can break.  Rules that read what a tree may lack ask first, and a reading that always
asks never breaks (`breaks_reading`); the rule about ordering alone asks every entry of the file for
its kind, those included that the compiler left out.

* `Rules.ordering_eq_none_iff`: it breaks exactly on a file with an entry left out.
* `builtin_rules_break_iff`: no other built-in rule breaks on any file, whatever its options, so
  the result of any selection of rules names that one or none.
-/

namespace SolidityLint

/-! ### What a registry holds -/

namespace Registry

variable {categories : List Category}

/-- **What is found was contributed**, with the configuration that it was contributed with. -/
theorem exists_contributed {id : String} {s : RuleSpec}
    (h : (ofCategories categories).get? id = some s) :
    s.id = id ∧ ∃ c ∈ categories, ∃ t ∈ c.specs, t.id = id ∧ s.configure = t.configure := by
  obtain ⟨before, p, after, split, own, -, rfl⟩ := get?_eq_some_iff.mp h
  obtain ⟨c, hc, t, ht, rfl⟩ := mem_contributions.mp (split ▸ List.mem_append_right _ List.mem_cons_self)
  exact ⟨own, c, hc, t, ht, own, rfl⟩

/-- What was contributed is found. -/
theorem isSome_get? {c : Category} {t : RuleSpec} (hc : c ∈ categories) (ht : t ∈ c.specs) :
    ((ofCategories categories).get? t.id).isSome :=
  mem_ids_iff_isSome.mp (mem_ids_iff.mpr ⟨c, hc, t, ht, rfl⟩)

/-- The rules of entries are those that the registry has for their ids. -/
theorem mem_rules {reg : Registry} {entries : List RuleEntry} {r : Rule} :
    r ∈ reg.rules entries ↔ ∃ e ∈ entries, ∃ s, reg.get? e.id = some s ∧ r = s.rule e := by
  simp only [rules, createRules_eq, List.mem_filterMap, Option.map_eq_some_iff]
  exact exists_congr fun e => and_congr_right fun _ => exists_congr fun s =>
    and_congr_right fun _ => eq_comm

end Registry

/-- The rule has the id of its entry. -/
theorem RuleSpec.id_rule (s : RuleSpec) (e : RuleEntry) : (s.rule e).entry.id = e.id := by
  simp only [RuleSpec.rule]
  split <;> rfl

/-- The check of a rule is the one that its options give. -/
theorem RuleSpec.check_rule (s : RuleSpec) (e : RuleEntry) :
    (s.rule e).check = (s.configure e.data).1 := rfl

theorem Rule.diagnose_eq_none_iff {r : Rule} {f : SourceFile} {files : List SourceFile} :
    r.diagnose f files = none ↔ r.check f files = none :=
  Option.map_eq_none_iff

/-- A list is mapped as a whole unless there is no value for an item. -/
theorem mapM_eq_none_iff {α β : Type} {f : α → Option β} {xs : List α} :
    xs.mapM f = none ↔ ∃ x ∈ xs, f x = none := by
  induction xs with
  | nil => simp
  | cons x xs ih =>
      simp only [List.mapM_cons, List.exists_mem_cons_iff, ← ih]
      cases f x with
      | none => simp
      | some b => cases xs.mapM f <;> simp

namespace Rules

/-- Did the compiler leave out an item of the file? -/
def lacksItem (f : SourceFile) : Bool := (fileItems f).any (·.isNone)

/-- **The rule about ordering** breaks exactly when an item of the file was left out. -/
theorem ordering_eq_none_iff {f : SourceFile} : ordering f = none ↔ lacksItem f := by
  rw [ordering, Option.map_eq_none_iff, mapM_eq_none_iff, lacksItem, List.any_eq_true]
  simp only [Option.isNone_iff_eq_none]

/-- The checks of the specification break on no file but, if they are those about ordering, on one
with an item left out. -/
def BreaksByOrdering (t : RuleSpec) : Prop :=
  ∀ data f files, (t.configure data).1 f files = none ↔ t.id = "ordering" ∧ lacksItem f

section

variable {i : Info} (h : i.id ≠ "ordering")
include h

/-- A reading that has a result on every file never breaks. -/
theorem breaks_reading {read : SourceFile → Option (List Finding)} {find : SourceFile → List Finding}
    (asks : ∀ f, read f = some (find f)) : BreaksByOrdering (i.reading read) := by
  intro data f files
  refine iff_of_false (fun broken => ?_) fun other => h other.1
  exact Option.some_ne_none _ ((asks f).symm.trans broken)

theorem breaks_readingOf {α : Type} {option : Data → α × Bool}
    {read : α → SourceFile → Option (List Finding)} {find : α → SourceFile → List Finding}
    (asks : ∀ value f, read value f = some (find value f)) :
    BreaksByOrdering (i.readingOf option read) := by
  intro data f files
  refine iff_of_false (fun broken => ?_) fun other => h other.1
  exact Option.some_ne_none _ ((asks _ f).symm.trans broken)

theorem breaks_spec {find : SourceFile → List Finding} : BreaksByOrdering (i.spec find) :=
  breaks_reading h fun _ => rfl

theorem breaks_specOf {α : Type} {option : Data → α × Bool} {find : α → SourceFile → List Finding} :
    BreaksByOrdering (i.specOf option find) :=
  breaks_readingOf h fun _ _ => rfl

end

theorem breaks_bestPractices : bestPracticesSpecs.Forall BreaksByOrdering :=
  ⟨breaks_spec (by decide), breaks_specOf (by decide),
    breaks_readingOf (by decide) functionMaxLines?_eq,
    breaks_specOf (by decide), breaks_specOf (by decide),
    breaks_reading (by decide) noConsole?_eq,
    breaks_spec (by decide), breaks_spec (by decide),
    breaks_reading (by decide) oneContractPerFile?_eq,
    breaks_reading (by decide) payableFallback?_eq,
    breaks_readingOf (by decide) reasonString?_eq⟩

theorem breaks_naming : namingSpecs.Forall BreaksByOrdering :=
  ⟨breaks_spec (by decide), breaks_spec (by decide), breaks_spec (by decide),
    breaks_readingOf (by decide) foundryTestFunctions?_eq,
    breaks_spec (by decide), breaks_spec (by decide), breaks_spec (by decide),
    breaks_reading (by decide) namedParametersMapping?_eq,
    breaks_readingOf (by decide) privateVarsLeadingUnderscore?_eq,
    breaks_spec (by decide), breaks_spec (by decide)⟩

theorem breaks_order : orderSpecs.Forall BreaksByOrdering :=
  ⟨breaks_spec (by decide), fun _ _ _ => ordering_eq_none_iff.trans (and_iff_right rfl).symm,
    breaks_reading (by decide) visibilityModifierOrder?_eq⟩

theorem breaks_miscellaneous : miscellaneousSpecs.Forall BreaksByOrdering :=
  fun _ _ _ => iff_of_false (Option.some_ne_none _) fun other => absurd other.1 (by decide)

theorem breaks_security : securitySpecs.Forall BreaksByOrdering :=
  ⟨breaks_spec (by decide), breaks_readingOf (by decide) funcVisibility?_eq, breaks_spec (by decide),
    breaks_spec (by decide), breaks_reading (by decide) stateVisibility?_eq⟩

theorem breaks_categories : categories.Forall fun c => c.specs.Forall BreaksByOrdering :=
  ⟨breaks_bestPractices, breaks_naming, breaks_order, breaks_miscellaneous, breaks_security⟩

/-- **One rule.** -/
theorem diagnose_eq_none_iff {e : RuleEntry} {s : RuleSpec} (h : builtin.get? e.id = some s)
    (f : SourceFile) (files : List SourceFile) :
    (s.rule e).diagnose f files = none ↔ e.id = "ordering" ∧ lacksItem f := by
  obtain ⟨-, c, hc, t, ht, hid, eq⟩ := Registry.exists_contributed h
  have specs := List.forall_iff_forall_mem.mp breaks_categories c hc
  have breaks := List.forall_iff_forall_mem.mp specs t ht
  rw [Rule.diagnose_eq_none_iff, RuleSpec.check_rule, eq, breaks, hid]

theorem order_mem_categories : ⟨order, orderSpecs⟩ ∈ categories := by simp [categories]

theorem ordering_mem_specs :
    orderingInfo.reading ordering ∈ orderSpecs := by
  simp [orderSpecs]

/-- A list in strict order with one member. -/
theorem eq_singleton_of_sorted {x : String} {xs : List String} (sorted : xs.Pairwise (· < ·))
    (h : ∀ y, y ∈ xs ↔ y = x) : xs = [x] := by
  cases xs with
  | nil => exact absurd ((h x).mpr rfl) List.not_mem_nil
  | cons y ys =>
      obtain rfl := (h y).mp List.mem_cons_self
      cases ys with
      | nil => rfl
      | cons z zs =>
          obtain rfl := (h z).mp (by simp)
          exact absurd (List.rel_of_pairwise_cons sorted List.mem_cons_self) (String.lt_irrefl z)

/-- An id is in the result when a rule of that id broke. -/
theorem mem_broken_iff {rules : List Rule} {f : SourceFile} {files : List SourceFile} {id : String} :
    id ∈ brokenRules rules f files ↔ ∃ r ∈ rules, r.entry.id = id ∧ r.diagnose f files = none := by
  simp only [brokenRules, mem_sortedIds, List.mem_map, List.mem_filter, Option.isNone_iff_eq_none]
  constructor
  · rintro ⟨r, ⟨hr, h⟩, hid⟩
    exact ⟨r, hr, hid, h⟩
  · rintro ⟨r, hr, hid, h⟩
    exact ⟨r, ⟨hr, h⟩, hid⟩

/-- What breaks among built-in rules. -/
theorem mem_broken_builtin_iff {entries : List RuleEntry} {f : SourceFile}
    {files : List SourceFile} {id : String} :
    id ∈ brokenRules (builtin.rules entries) f files ↔
      id = "ordering" ∧ lacksItem f ∧ ∃ e ∈ entries, e.id = "ordering" := by
  rw [mem_broken_iff]
  constructor
  · rintro ⟨r, hr, rfl, broken⟩
    obtain ⟨e, he, s, hs, rfl⟩ := Registry.mem_rules.mp hr
    obtain ⟨hid, left⟩ := (diagnose_eq_none_iff hs f files).mp broken
    rw [RuleSpec.id_rule]
    exact ⟨hid, left, e, he, hid⟩
  · rintro ⟨rfl, left, e, he, hid⟩
    obtain ⟨s, hs⟩ : ∃ s, builtin.get? e.id = some s := by
      rw [hid]
      exact Option.isSome_iff_exists.mp (Registry.isSome_get? order_mem_categories ordering_mem_specs)
    refine ⟨s.rule e, Registry.mem_rules.mpr ⟨e, he, s, hs, rfl⟩, ?_, ?_⟩
    · rw [RuleSpec.id_rule, hid]
    · exact (diagnose_eq_none_iff hs f files).mpr ⟨hid, left⟩

/-- The ids of the built-in rules that break: the one about ordering, or none. -/
theorem brokenRules_builtin (entries : List RuleEntry) (f : SourceFile) (files : List SourceFile) :
    brokenRules (builtin.rules entries) f files =
      if lacksItem f ∧ ∃ e ∈ entries, e.id = "ordering" then ["ordering"] else [] := by
  split
  · rename_i breaks
    refine eq_singleton_of_sorted (sorted_keys _) fun id => ?_
    exact mem_broken_builtin_iff.trans (and_iff_left breaks)
  · rename_i holds
    exact List.eq_nil_iff_forall_not_mem.mpr fun id hid =>
      holds (mem_broken_builtin_iff.mp hid).2

end Rules

open Rules

/-- The broken rules of a result.  A file without a tree has no items, and nothing is run on it. -/
theorem broken_lintFile_builtin (entries : List RuleEntry) (f : SourceFile)
    (files : List SourceFile) :
    (lintFile (builtin.rules entries) f files).broken =
      if lacksItem f ∧ ∃ e ∈ entries, e.id = "ordering" then ["ordering"] else [] := by
  unfold lintFile
  cases root : f.root with
  | none => simp [lacksItem, fileItems, root]
  | some n => exact brokenRules_builtin entries f files

/-- **Which built-in rules break.**  With any options, on any file of any project, a built-in rule
breaks exactly when it is the one about ordering and the compiler left out an item of the file; so
the result of any selection of built-in rules names no broken rule unless it selects that one and
the file has such an item. -/
theorem builtin_rules_break_iff (f : SourceFile) (files : List SourceFile) :
    (∀ (e : RuleEntry) (s : RuleSpec), builtin.get? e.id = some s →
      ((s.rule e).diagnose f files = none ↔ e.id = "ordering" ∧ lacksItem f)) ∧
    ∀ entries : List RuleEntry,
      (lintFile (builtin.rules entries) f files).broken =
        if lacksItem f ∧ ∃ e ∈ entries, e.id = "ordering" then ["ordering"] else [] :=
  ⟨fun _ _ hs => diagnose_eq_none_iff hs f files,
    fun entries => broken_lintFile_builtin entries f files⟩

/-! ### A file with an item left out -/

/-- A source unit with a pragma and an item left out. -/
def leftOutTree : Json :=
  .obj [("nodeType", .str "SourceUnit"), ("nodes", .arr [.obj [("nodeType", .str "PragmaDirective"),
    ("src", .str "0:22")], .null]), ("src", .str "0:23")]

def leftOutTreeText : String :=
  "\x7b\"nodeType\":\"SourceUnit\",\"nodes\":[\x7b\"nodeType\":\"PragmaDirective\",\"src\":\"0:22\"\x7d," ++
    "null],\"src\":\"0:23\"\x7d"

theorem parseFirst?_leftOutTreeText : Json.parseFirst? leftOutTreeText = some leftOutTree := by
  have text : leftOutTreeText = leftOutTree.compact := rfl
  rw [text]
  exact Json.parseFirst?_compact (by simp [leftOutTree, Json.numerals_obj, Json.numerals_arr,
    Json.numerals_str, Json.numerals_null]) (by decide)

/-- **The rule about ordering breaks** on a tree that decodes; the rule about imports, which looks at
the same items, does not. -/
theorem ordering_breaks_on_left_out_item :
    ∃ root, Node.decode leftOutTreeText = .ok root ∧
      (lintFile (builtin.rules [⟨"import-on-top", .warning, .null⟩, ⟨"ordering", .warning, .null⟩])
        (.ofBytes "/t.sol" "pragma solidity 0.8.0;\n".toUTF8 (some root)) []).broken =
          ["ordering"] := by
  obtain ⟨root, decoded, lacks⟩ := exists_ofJson_of_build leftOutTree
    (fun n => lacksItem (.ofBytes "/t.sol" "pragma solidity 0.8.0;\n".toUTF8 (some n)))
    rfl rfl rfl
  refine ⟨root, (decode_eq parseFirst?_leftOutTreeText).trans decoded, ?_⟩
  rw [broken_lintFile_builtin, if_pos ⟨lacks, _, List.mem_cons_of_mem _ List.mem_cons_self, rfl⟩]

end SolidityLint
