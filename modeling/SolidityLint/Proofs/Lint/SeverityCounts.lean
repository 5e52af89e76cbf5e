import SolidityLint.Lint.Engine
import SolidityLint.Proofs.Lint.Aggregation

/-!
# Lint — the severities of folded findings

Findings are grouped by rule and line alone, and a group is reported under the severity of its
first finding, its *leader*.  A rule that is listed twice, with two severities, can so have
findings of one severity reported under the other:

* `occurrencesAt_aggregate`: under a severity stand as many findings as have a leader of it.
* `occurrencesAt_eq_iff`: that is the number of findings of the severity exactly when as many
  findings leave it (`lostAt`) as come to it from elsewhere (`gainedAt`).
* `exists_mem_aggregate_iff`: the severities reported are those of the leaders.

`keptFindings` are the findings of a file that no comment silences; where rules of one id have one
severity, every finding has the severity of its leader (`severity_leader`).
-/

namespace SolidityLint

/-- The number of findings that the diagnostics of a severity stand for. -/
def occurrencesAt (s : Severity) (ds : List Diagnostic) : Nat :=
  sumOf ((ds.filter (·.severity = s)).map Diagnostic.occurrences)

/-- The first finding of the group of `d`. -/
def leader (ds : List Diagnostic) (d : Diagnostic) : Diagnostic :=
  (ds.find? (·.key == d.key)).getD d

/-- The number of findings of a severity whose leader has another. -/
def lostAt (s : Severity) (ds : List Diagnostic) : Nat :=
  ds.countP fun d => d.severity = s && !((leader ds d).severity = s)

/-- The number of findings of other severities whose leader has this one. -/
def gainedAt (s : Severity) (ds : List Diagnostic) : Nat :=
  ds.countP fun d => !(d.severity = s) && (leader ds d).severity = s

/-! ### Leaders -/

theorem leader_cons_of_eq {d e : Diagnostic} (h : e.key = d.key) (ds : List Diagnostic) :
    leader (d :: ds) e = d := by
  rw [leader, List.find?_cons_of_pos (by simp [h]), Option.getD_some]

/-- The first finding of another group leads none of its own. -/
theorem leader_cons_of_ne {d e : Diagnostic} (h : e.key ≠ d.key) (ds : List Diagnostic) :
    leader (d :: ds) e = leader (ds.filter fun e => e.key != d.key) e := by
  rw [leader, List.find?_cons_of_neg (by simp [Ne.symm h]), leader, List.find?_filter]
  congr 2
  funext x
  by_cases hx : x.key = e.key
  · simp [hx, h]
  · simp [hx]

theorem key_leader (ds : List Diagnostic) (d : Diagnostic) : (leader ds d).key = d.key := by
  rw [leader]
  cases h : ds.find? (·.key == d.key) with
  | none => rfl
  | some e =>
      have found := List.find?_some h
      exact beq_iff_eq.mp found

theorem leader_mem {ds : List Diagnostic} {d : Diagnostic} (h : d ∈ ds) : leader ds d ∈ ds := by
  rw [leader]
  cases h' : ds.find? (·.key == d.key) with
  | none => exact h
  | some e => exact List.mem_of_find?_eq_some h'

/-! ### Counting -/

theorem occurrencesAt_append (s : Severity) (as bs : List Diagnostic) :
    occurrencesAt s (as ++ bs) = occurrencesAt s as + occurrencesAt s bs := by
  rw [occurrencesAt, List.filter_append, List.map_append, sumOf_append]
  rfl

/-- The members of a folded group are counted under the severity of the first. -/
theorem occurrencesAt_folded (s : Severity) {d : Diagnostic} (h : d.sameLine = [])
    (ms : List Diagnostic) :
    occurrencesAt s (folded (d :: ms)) = if d.severity = s then ms.length + 1 else 0 := by
  by_cases hs : d.severity = s
  · simp [occurrencesAt, folded, hs, h, sumOf, Diagnostic.occurrences, Nat.add_comm]
  · simp [occurrencesAt, folded, hs, sumOf]

theorem countP_groups (p : Diagnostic → Bool) (k : String × Int64) (ds : List Diagnostic) :
    ds.countP p = (groupOf k ds).countP p + (ds.filter fun e => e.key != k).countP p := by
  rw [groupOf, ← List.countP_append]
  exact ((List.filter_append_perm (fun e => e.key == k) ds).countP_eq p).symm

theorem exists_occurrencesAt_pos_iff (s : Severity) (ds : List Diagnostic) :
    0 < occurrencesAt s ds ↔ ∃ g ∈ ds, g.severity = s := by
  rw [occurrencesAt, sumOf_occurrences_pos_iff]
  constructor
  · intro h
    obtain ⟨g, hg⟩ := List.exists_mem_of_ne_nil _ h
    exact ⟨g, (List.mem_filter.mp hg).1, of_decide_eq_true (List.mem_filter.mp hg).2⟩
  · rintro ⟨g, hg, hs⟩
    exact List.ne_nil_of_mem (List.mem_filter.mpr ⟨hg, decide_eq_true hs⟩)

/-- **Findings are counted under their leaders.** -/
theorem occurrencesAt_aggregate (s : Severity) {ds : List Diagnostic} (h : Plain ds) :
    occurrencesAt s (aggregate ds) = ds.countP fun d => (leader ds d).severity = s := by
  induction ds using group_induction with
  | nil => rw [aggregate_nil]; rfl
  | cons d ds ih =>
      -- `d` leads the findings of its group; all others have the leader they have without it.
      have own : (groupOf d.key ds).countP (fun e => (leader (d :: ds) e).severity = s) =
          if d.severity = s then (groupOf d.key ds).length else 0 := by
        have same : ∀ e ∈ groupOf d.key ds, leader (d :: ds) e = d := fun e he =>
          leader_cons_of_eq (beq_iff_eq.mp (List.mem_filter.mp he).2) ds
        split
        · rename_i hs
          exact List.countP_eq_length.mpr fun e he => by simp [same e he, hs]
        · rename_i hs
          exact List.countP_eq_zero.mpr fun e he => by simp [same e he, hs]
      have others : (ds.filter fun e => e.key != d.key).countP
            (fun e => (leader (d :: ds) e).severity = s) =
          (ds.filter fun e => e.key != d.key).countP
            fun e => (leader (ds.filter fun e => e.key != d.key) e).severity = s :=
        List.countP_congr fun e he => by
          rw [leader_cons_of_ne (bne_iff_ne.mp (List.mem_filter.mp he).2)]
      have split := countP_groups (fun e => (leader (d :: ds) e).severity = s) d.key ds
      rw [aggregate_cons, occurrencesAt_append, occurrencesAt_folded s (h d List.mem_cons_self),
        ih (h.tail _), List.countP_cons, leader_cons_of_eq rfl, split, own, others]
      by_cases hs : d.severity = s
      · simp only [hs, if_true, decide_true]
        omega
      · simp [hs]

/-- Two tests of the same things differ in number by what only one of them admits. -/
theorem countP_balance {α : Type} (p q : α → Bool) (xs : List α) :
    xs.countP q + xs.countP (fun x => p x && !q x) =
      xs.countP p + xs.countP (fun x => !p x && q x) := by
  induction xs with
  | nil => rfl
  | cons x xs ih =>
      simp only [List.countP_cons]
      cases p x <;> cases q x <;> simp <;> omega

/-- **When the number of a severity is kept**: as many findings leave it as come to it. -/
theorem occurrencesAt_eq_iff (s : Severity) {ds : List Diagnostic} (h : Plain ds) :
    occurrencesAt s (aggregate ds) = ds.countP (·.severity = s) ↔ lostAt s ds = gainedAt s ds := by
  have balance := countP_balance (fun d : Diagnostic => decide (d.severity = s))
    (fun d => decide ((leader ds d).severity = s)) ds
  rw [occurrencesAt_aggregate s h, lostAt, gainedAt]
  omega

/-- Where findings have the severities of their leaders, every number is kept. -/
theorem occurrencesAt_eq_of_leader (s : Severity) {ds : List Diagnostic} (h : Plain ds)
    (same : ∀ d ∈ ds, (leader ds d).severity = d.severity) :
    occurrencesAt s (aggregate ds) = ds.countP (·.severity = s) := by
  rw [occurrencesAt_aggregate s h]
  exact List.countP_congr fun d hd => by rw [same d hd]

/-- **The severities reported** are those of the leaders. -/
theorem exists_mem_aggregate_iff {ds : List Diagnostic} (h : Plain ds) (P : Severity → Prop) :
    (∃ g ∈ aggregate ds, P g.severity) ↔ ∃ d ∈ ds, P (leader ds d).severity := by
  have pos : ∀ s, (∃ g ∈ aggregate ds, g.severity = s) ↔
      ∃ d ∈ ds, (leader ds d).severity = s := fun s => by
    have hs := occurrencesAt_aggregate s h
    rw [← exists_occurrencesAt_pos_iff, hs, List.countP_pos_iff]
    simp only [decide_eq_true_eq]
  constructor
  · rintro ⟨g, hg, hP⟩
    obtain ⟨d, hd, eq⟩ := (pos g.severity).mp ⟨g, hg, rfl⟩
    exact ⟨d, hd, eq ▸ hP⟩
  · rintro ⟨d, hd, hP⟩
    obtain ⟨g, hg, eq⟩ := (pos (leader ds d).severity).mpr ⟨d, hd, rfl⟩
    exact ⟨g, hg, eq ▸ hP⟩

/-! ### The findings of a file -/

/-- The findings in a file that no comment silences, in the order of the rules; a file without a
tree has none. -/
def keptFindings (rules : List Rule) (file : SourceFile) (files : List SourceFile) :
    List Diagnostic :=
  match file.root with
  | none => []
  | some _ => unsuppressed (directivesOf file.text) (findings rules file files)

theorem diagnostics_lintFile (rules : List Rule) (file : SourceFile) (files : List SourceFile) :
    (lintFile rules file files).diagnostics = aggregate (keptFindings rules file files) := by
  unfold lintFile keptFindings
  cases file.root with
  | none => exact aggregate_nil.symm
  | some _ => rfl

/-- A finding carries the id and the severity of its rule, and stands for itself only. -/
theorem rule_of_mem_keptFindings {rules : List Rule} {file : SourceFile} {files : List SourceFile}
    {d : Diagnostic} (h : d ∈ keptFindings rules file files) :
    ∃ r ∈ rules, d.ruleId = r.entry.id ∧ d.severity = r.entry.severity ∧ d.sameLine = [] := by
  unfold keptFindings at h
  cases hroot : file.root with
  | none => rw [hroot] at h; exact absurd h List.not_mem_nil
  | some _ =>
      rw [hroot] at h
      obtain ⟨r, hr, hd⟩ := List.mem_flatMap.mp (List.mem_filter.mp h).1
      refine ⟨r, hr, ?_⟩
      unfold Rule.diagnose at hd
      cases hc : r.check file files with
      | none => rw [hc] at hd; exact absurd hd List.not_mem_nil
      | some fs =>
          rw [hc] at hd
          obtain ⟨f, -, rfl⟩ := List.mem_map.mp hd
          exact ⟨rfl, rfl, rfl⟩

theorem plain_keptFindings (rules : List Rule) (file : SourceFile) (files : List SourceFile) :
    Plain (keptFindings rules file files) := fun d hd => by
  obtain ⟨-, -, -, -, h⟩ := rule_of_mem_keptFindings hd
  exact h

/-- No rule id stands for two severities. -/
def OneSeverity (rules : List Rule) : Prop :=
  ∀ a ∈ rules, ∀ b ∈ rules, a.entry.id = b.entry.id → a.entry.severity = b.entry.severity

theorem severity_leader {rules : List Rule} (h : OneSeverity rules) {file : SourceFile}
    {files : List SourceFile} {d : Diagnostic} (hd : d ∈ keptFindings rules file files) :
    (leader (keptFindings rules file files) d).severity = d.severity := by
  have key := congrArg Prod.fst (key_leader (keptFindings rules file files) d)
  obtain ⟨a, ha, ida, seva, -⟩ := rule_of_mem_keptFindings (leader_mem hd)
  obtain ⟨b, hb, idb, sevb, -⟩ := rule_of_mem_keptFindings hd
  rw [seva, sevb]
  refine h a ha b hb ?_
  rw [← ida, ← idb]
  exact key

end SolidityLint
