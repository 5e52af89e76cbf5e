import SolidityLint.Lint.Aggregate
import SolidityLint.Number.Sum

/-!
# Lint — aggregation and its inverse

Findings are grouped by rule and start line (`Diagnostic.key`).  `aggregate` folds each group into
its first finding:

* `aggregate_eq_groups`: the result has one diagnostic for each key, in the order in which the keys
  first appear, and it is the group folded (`folded`).
* `aggregate_eq_foldl`: the same result comes from one pass that puts each finding into the entry
  of its group, or behind all entries when the group is new (`place`).
* `unaggregate_eq_groups`: expanding the result lists the groups one after the other, each with the
  ranges of its members and the other fields of its first (`ranged`).

`aggregation_laws` collects what follows for findings that stand for themselves only: one entry
for each key, nothing lost in number, and both ways around end where one aggregation ends.
-/

namespace SolidityLint

/-- What findings are grouped by: the rule and the line on which they start. -/
def Diagnostic.key (d : Diagnostic) : String × Int64 := (d.ruleId, d.range.start.line)

/-- The findings of a key, in order. -/
def groupOf (k : String × Int64) (ds : List Diagnostic) : List Diagnostic :=
  ds.filter fun d => d.key == k

/-- A group as one diagnostic: its first finding with the ranges of the others. -/
def folded : List Diagnostic → List Diagnostic
  | [] => []
  | d :: ds => [{ d with sameLine := d.sameLine ++ ds.map (·.range) }]

/-- A group with the ranges of its members, and all else as in its first. -/
def ranged : List Diagnostic → List Diagnostic
  | [] => []
  | d :: ds => (d :: ds).map fun m => { d with range := m.range }

/-- The findings stand for themselves only. -/
def Plain (ds : List Diagnostic) : Prop := ∀ d ∈ ds, d.sameLine = []

@[simp] theorem Diagnostic.key_withSameLine (d : Diagnostic) (rs : List Range) :
    ({ d with sameLine := rs } : Diagnostic).key = d.key := rfl

theorem sameGroup_eq (a : Diagnostic) : sameGroup a = fun b => b.key == a.key := by
  funext b
  rw [Bool.eq_iff_iff]
  simp only [sameGroup, Diagnostic.key, Bool.and_eq_true, beq_iff_eq, Prod.mk.injEq]
  exact ⟨fun ⟨h₁, h₂⟩ => ⟨h₁.symm, h₂.symm⟩, fun ⟨h₁, h₂⟩ => ⟨h₁.symm, h₂.symm⟩⟩

theorem aggregate_nil : aggregate [] = [] := by rw [aggregate]

/-- The first finding takes its group along; the others are aggregated without it. -/
theorem aggregate_cons (d : Diagnostic) (ds : List Diagnostic) :
    aggregate (d :: ds) =
      folded (d :: groupOf d.key ds) ++ aggregate (ds.filter fun e => e.key != d.key) := by
  rw [aggregate]
  simp only [folded, groupOf, sameGroup_eq, List.cons_append, List.nil_append, bne]

/-- Induction along the groups: a finding, and the findings of other keys behind it. -/
theorem group_induction {P : List Diagnostic → Prop} (nil : P [])
    (cons : ∀ d ds, P (ds.filter fun e => e.key != d.key) → P (d :: ds)) : ∀ ds, P ds
  | [] => nil
  | d :: ds => cons d ds (group_induction nil cons (ds.filter fun e => e.key != d.key))
termination_by ds => ds.length
decreasing_by exact Nat.lt_succ_of_le (List.length_filter_le _ _)

/-! ### The groups -/

theorem groupOf_cons_self (d : Diagnostic) (ds : List Diagnostic) :
    groupOf d.key (d :: ds) = d :: groupOf d.key ds := by
  simp [groupOf]

theorem groupOf_cons_ne {k : String × Int64} {d : Diagnostic} (h : k ≠ d.key)
    (ds : List Diagnostic) :
    groupOf k (d :: ds) = groupOf k (ds.filter fun e => e.key != d.key) := by
  have hd : (d.key == k) = false := beq_eq_false_iff_ne.mpr h.symm
  rw [groupOf, List.filter_cons_of_neg (by simp [hd]), groupOf, List.filter_filter]
  refine List.filter_congr fun e _ => ?_
  by_cases he : e.key = k
  · simp [he, h]
  · simp [he]

/-- The keys in order of first appearance, at a first finding. -/
theorem keys_cons (d : Diagnostic) (ds : List Diagnostic) :
    ((d :: ds).map Diagnostic.key).eraseDups =
      d.key :: ((ds.filter fun e => e.key != d.key).map Diagnostic.key).eraseDups := by
  rw [List.map_cons, List.eraseDups_cons, List.filter_map]
  rfl

theorem ne_of_mem_keys {d : Diagnostic} {ds : List Diagnostic} {k : String × Int64}
    (h : k ∈ ((ds.filter fun e => e.key != d.key).map Diagnostic.key).eraseDups) : k ≠ d.key := by
  rw [List.mem_eraseDups] at h
  obtain ⟨e, he, rfl⟩ := List.mem_map.mp h
  exact bne_iff_ne.mp (List.mem_filter.mp he).2

/-- A function of the groups, collected over the keys, at a first finding. -/
theorem flatMap_groups_cons (f : List Diagnostic → List Diagnostic) (d : Diagnostic)
    (ds : List Diagnostic) :
    (((d :: ds).map Diagnostic.key).eraseDups.flatMap fun k => f (groupOf k (d :: ds))) =
      f (d :: groupOf d.key ds) ++
        (((ds.filter fun e => e.key != d.key).map Diagnostic.key).eraseDups.flatMap fun k =>
          f (groupOf k (ds.filter fun e => e.key != d.key))) := by
  rw [keys_cons, List.flatMap_cons, groupOf_cons_self]
  congr 1
  simp only [List.flatMap_def]
  congr 1
  refine List.map_congr_left fun k hk => ?_
  rw [groupOf_cons_ne (ne_of_mem_keys hk)]

/-- **Aggregation by groups.**  One diagnostic for each key, in the order in which the keys first
appear. -/
theorem aggregate_eq_groups (ds : List Diagnostic) :
    aggregate ds = (ds.map Diagnostic.key).eraseDups.flatMap fun k => folded (groupOf k ds) := by
  induction ds using group_induction with
  | nil => rw [aggregate_nil]; rfl
  | cons d ds ih => rw [aggregate_cons, ih, flatMap_groups_cons]

/-! ### One entry for each key -/

/-- The entries have the keys of the findings, in the order of their first appearance. -/
theorem keys_aggregate (ds : List Diagnostic) :
    (aggregate ds).map Diagnostic.key = (ds.map Diagnostic.key).eraseDups := by
  induction ds using group_induction with
  | nil => rw [aggregate_nil]; rfl
  | cons d ds ih => rw [aggregate_cons, List.map_append, ih, keys_cons]; rfl

theorem keys_nodup (ds : List Diagnostic) : (ds.map Diagnostic.key).eraseDups.Nodup := by
  induction ds using group_induction with
  | nil => exact List.nodup_nil
  | cons d ds ih =>
      rw [keys_cons, List.nodup_cons]
      exact ⟨fun h => ne_of_mem_keys h rfl, ih⟩

/-- Where no key repeats there is nothing to fold. -/
theorem aggregate_of_nodup {ds : List Diagnostic} (h : (ds.map Diagnostic.key).Nodup) :
    aggregate ds = ds := by
  induction ds with
  | nil => exact aggregate_nil
  | cons d ds ih =>
      obtain ⟨hd, hds⟩ := List.nodup_cons.mp h
      have other : ∀ e ∈ ds, e.key ≠ d.key := fun e he eq =>
        hd (eq ▸ List.mem_map_of_mem he)
      have none_same : groupOf d.key ds = [] :=
        List.filter_eq_nil_iff.mpr fun e he => by simpa using other e he
      have all_other : (ds.filter fun e => e.key != d.key) = ds :=
        List.filter_eq_self.mpr fun e he => by simpa using other e he
      rw [aggregate_cons, none_same, all_other, ih hds]
      simp [folded]

/-! ### Expanding the groups -/

instance (ds : List Diagnostic) : Decidable (Plain ds) :=
  inferInstanceAs (Decidable (∀ d ∈ ds, d.sameLine = []))

theorem Plain.tail {d : Diagnostic} {ds : List Diagnostic} (h : Plain (d :: ds))
    (p : Diagnostic → Bool) : Plain (ds.filter p) :=
  fun e he => h e (List.mem_cons_of_mem d (List.mem_filter.mp he).1)

/-- A folded group expands to its ranges. -/
theorem unaggregate_folded {d : Diagnostic} (h : d.sameLine = []) (ms : List Diagnostic) :
    unaggregate (folded (d :: ms)) = ranged (d :: ms) := by
  simp only [unaggregate, folded, List.flatMap_cons, List.flatMap_nil, List.append_nil,
    Diagnostic.expand, ranged, h, List.nil_append, List.map_cons, List.map_map, Function.comp_def]

theorem unaggregate_append (as bs : List Diagnostic) :
    unaggregate (as ++ bs) = unaggregate as ++ unaggregate bs :=
  List.flatMap_append

theorem unaggregate_aggregate_cons {d : Diagnostic} {ds : List Diagnostic} (h : Plain (d :: ds)) :
    unaggregate (aggregate (d :: ds)) =
      ranged (d :: groupOf d.key ds) ++
        unaggregate (aggregate (ds.filter fun e => e.key != d.key)) := by
  rw [aggregate_cons, unaggregate_append, unaggregate_folded (h d List.mem_cons_self)]

/-- **The way back, by groups.**  Group after group in the order of their first findings, each
member with its own range and all else of the first. -/
theorem unaggregate_eq_groups {ds : List Diagnostic} (h : Plain ds) :
    unaggregate (aggregate ds) =
      (ds.map Diagnostic.key).eraseDups.flatMap fun k => ranged (groupOf k ds) := by
  induction ds using group_induction with
  | nil => rw [aggregate_nil]; rfl
  | cons d ds ih =>
      rw [unaggregate_aggregate_cons h, ih (h.tail _), flatMap_groups_cons]

/-- A group whose members differ in their ranges only is listed as it was. -/
theorem ranged_of_agree {d : Diagnostic} {ms : List Diagnostic}
    (h : ∀ m ∈ ms, { d with range := m.range } = m) : ranged (d :: ms) = d :: ms := by
  rw [ranged, List.map_cons, List.map_congr_left h, List.map_id']

/-- **Nothing is lost where groups agree.**  If the findings of a group differ in their ranges only,
the way back gives all findings again, up to their order. -/
theorem unaggregate_aggregate_perm {ds : List Diagnostic} (h : Plain ds)
    (agree : ∀ a ∈ ds, ∀ b ∈ ds, a.key = b.key → { a with range := b.range } = b) :
    (unaggregate (aggregate ds)).Perm ds := by
  induction ds using group_induction with
  | nil => rw [aggregate_nil]; exact List.Perm.nil
  | cons d ds ih =>
      have same : ranged (d :: groupOf d.key ds) = d :: groupOf d.key ds :=
        ranged_of_agree fun m hm => by
          obtain ⟨hm, hk⟩ := List.mem_filter.mp hm
          exact agree d List.mem_cons_self m (List.mem_cons_of_mem d hm) (beq_iff_eq.mp hk).symm
      have rest := ih (h.tail _) fun a ha b hb => agree
        a (List.mem_cons_of_mem d (List.mem_filter.mp ha).1)
        b (List.mem_cons_of_mem d (List.mem_filter.mp hb).1)
      rw [unaggregate_aggregate_cons h, same, List.cons_append]
      -- What is left of the list are the members of the group and the others, in two pieces.
      refine List.Perm.cons d (.trans (rest.append_left _) ?_)
      exact List.filter_append_perm (fun e => e.key == d.key) ds

/-- Every finding is counted once. -/
theorem sumOf_occurrences_aggregate {ds : List Diagnostic} (h : Plain ds) :
    sumOf ((aggregate ds).map Diagnostic.occurrences) = ds.length := by
  induction ds using group_induction with
  | nil => rw [aggregate_nil]; rfl
  | cons d ds ih =>
      -- Each further finding is folded into `d` or aggregated with the others.
      have split := (List.filter_append_perm (fun e => e.key == d.key) ds).length_eq
      have hd : d.sameLine = [] := h d List.mem_cons_self
      rw [aggregate_cons, List.map_append, sumOf_append, ih (h.tail _)]
      simp only [folded, groupOf, List.map_cons, List.map_nil, sumOf, Diagnostic.occurrences, hd,
        List.nil_append, List.length_map, List.length_cons, List.length_append, bne] at split ⊢
      omega

theorem sumOf_occurrences_pos_iff (ds : List Diagnostic) :
    0 < sumOf (ds.map Diagnostic.occurrences) ↔ ds ≠ [] := by
  cases ds with
  | nil => simp [sumOf]
  | cons d ds =>
      simp only [List.map_cons, sumOf, Diagnostic.occurrences, ne_eq, reduceCtorEq,
        not_false_eq_true, iff_true]
      omega

/-! ### Aggregating what was expanded -/

/-- The further ranges of a diagnostic start on its own line. -/
def Diagnostic.OneLine (d : Diagnostic) : Prop :=
  ∀ r ∈ d.sameLine, r.start.line = d.range.start.line

theorem oneLine_aggregate {ds : List Diagnostic} (h : Plain ds) :
    ∀ g ∈ aggregate ds, g.OneLine := by
  induction ds using group_induction with
  | nil => rw [aggregate_nil]; exact fun g hg => absurd hg List.not_mem_nil
  | cons d ds ih =>
      intro g hg
      rw [aggregate_cons] at hg
      rcases List.mem_append.mp hg with hg | hg
      · obtain rfl := List.mem_singleton.mp hg
        intro r hr
        simp only [h d List.mem_cons_self, List.nil_append, List.mem_map] at hr
        obtain ⟨m, hm, rfl⟩ := hr
        exact congrArg Prod.snd (beq_iff_eq.mp (List.mem_filter.mp hm).2)
      · exact ih (h.tail _) g hg

/-- All that a diagnostic stands for has its key. -/
theorem key_of_mem_expand {g e : Diagnostic} (hg : g.OneLine) (he : e ∈ g.expand) :
    e.key = g.key := by
  rcases List.mem_cons.mp he with rfl | he
  · rfl
  · obtain ⟨r, hr, rfl⟩ := List.mem_map.mp he
    exact congrArg (Prod.mk g.ruleId) (hg r hr)

/-- A diagnostic that was expanded in front of other groups is put together again. -/
theorem aggregate_expand_append {g : Diagnostic} (hg : g.OneLine) {rest : List Diagnostic}
    (hrest : ∀ e ∈ rest, e.key ≠ g.key) :
    aggregate (g.expand ++ rest) = g :: aggregate rest := by
  have copies : ∀ e ∈ g.sameLine.map fun r => { g with sameLine := [], range := r },
      e.key = g.key := fun e he => key_of_mem_expand hg (List.mem_cons_of_mem _ he)
  have same :
      groupOf g.key ((g.sameLine.map fun r => { g with sameLine := [], range := r }) ++ rest)
        = g.sameLine.map fun r => { g with sameLine := [], range := r } := by
    rw [groupOf, List.filter_append, List.filter_eq_self.mpr fun e he => by simpa using copies e he,
      List.filter_eq_nil_iff.mpr fun e he => by simpa using hrest e he, List.append_nil]
  have others : (((g.sameLine.map fun r => { g with sameLine := [], range := r }) ++ rest).filter
      fun e => e.key != g.key) = rest := by
    rw [List.filter_append, List.filter_eq_nil_iff.mpr fun e he => by simpa using copies e he,
      List.filter_eq_self.mpr fun e he => by simpa using hrest e he, List.nil_append]
  rw [Diagnostic.expand, List.cons_append, aggregate_cons]
  simp only [Diagnostic.key_withSameLine, same, others]
  simp [folded, Function.comp_def]

/-- **The way there and back.**  Entries of different keys, each on one line, are expanded and
aggregated to themselves. -/
theorem aggregate_unaggregate {gs : List Diagnostic} (nodup : (gs.map Diagnostic.key).Nodup)
    (lines : ∀ g ∈ gs, g.OneLine) : aggregate (unaggregate gs) = gs := by
  induction gs with
  | nil => exact aggregate_nil
  | cons g gs ih =>
      obtain ⟨hg, hgs⟩ := List.nodup_cons.mp nodup
      have lines' : ∀ g' ∈ gs, g'.OneLine := fun g' h => lines g' (List.mem_cons_of_mem g h)
      have others : ∀ e ∈ unaggregate gs, e.key ≠ g.key := by
        intro e he eq
        obtain ⟨g', hg', he'⟩ := List.mem_flatMap.mp he
        rw [key_of_mem_expand (lines' g' hg') he'] at eq
        exact hg (eq ▸ List.mem_map_of_mem hg')
      rw [unaggregate, List.flatMap_cons]
      change aggregate (g.expand ++ unaggregate gs) = _
      rw [aggregate_expand_append (lines g List.mem_cons_self) others, ih hgs lines']

/-! ### One pass -/

/-- Puts a finding into the entry of its key, or behind all entries when there is none. -/
def place : List Diagnostic → Diagnostic → List Diagnostic
  | [], d => [d]
  | g :: gs, d =>
    if d.key = g.key then { g with sameLine := g.sameLine ++ [d.range] } :: gs else g :: place gs d

/-- The first entry takes up what has its key; the rest of the pass does not see it. -/
theorem foldl_place_cons (ds : List Diagnostic) : ∀ (g : Diagnostic) (gs : List Diagnostic),
    ds.foldl place (g :: gs) =
      { g with sameLine := g.sameLine ++ (groupOf g.key ds).map (·.range) } ::
        (ds.filter fun e => e.key != g.key).foldl place gs := by
  induction ds with
  | nil => intro g gs; simp [groupOf]
  | cons d ds ih =>
      intro g gs
      rw [List.foldl_cons, place]
      by_cases h : d.key = g.key
      · rw [if_pos h, ih]
        simp [groupOf, h]
      · rw [if_neg h, ih]
        simp [groupOf, h]

/-- **Aggregation in one pass.** -/
theorem aggregate_eq_foldl (ds : List Diagnostic) : aggregate ds = ds.foldl place [] := by
  induction ds using group_induction with
  | nil => rw [aggregate_nil]; rfl
  | cons d ds ih => rw [aggregate_cons, ih, List.foldl_cons, place, foldl_place_cons]; rfl

/-! ### The laws -/

/-- **Aggregation and its inverse.**  For findings that stand for themselves only: the result has
each key once, in the order of first appearance, with its group folded, and comes from one pass;
the way back lists the groups in that order, each member with its range and all else of the first,
which is all findings again where the members of a group differ in their ranges only; every finding
is counted once; and aggregating again, or expanding and aggregating, changes nothing. -/
theorem aggregation_laws {ds : List Diagnostic} (h : Plain ds) :
    ((aggregate ds).map Diagnostic.key).Nodup ∧
    (aggregate ds).map Diagnostic.key = (ds.map Diagnostic.key).eraseDups ∧
    aggregate ds = ((ds.map Diagnostic.key).eraseDups.flatMap fun k => folded (groupOf k ds)) ∧
    aggregate ds = ds.foldl place [] ∧
    unaggregate (aggregate ds) =
      ((ds.map Diagnostic.key).eraseDups.flatMap fun k => ranged (groupOf k ds)) ∧
    ((∀ a ∈ ds, ∀ b ∈ ds, a.key = b.key → { a with range := b.range } = b) →
      (unaggregate (aggregate ds)).Perm ds) ∧
    sumOf ((aggregate ds).map Diagnostic.occurrences) = ds.length ∧
    aggregate (unaggregate (aggregate ds)) = aggregate ds ∧
    aggregate (aggregate ds) = aggregate ds := by
  have keys := keys_aggregate ds
  have nodup : ((aggregate ds).map Diagnostic.key).Nodup := keys ▸ keys_nodup ds
  exact ⟨nodup, keys, aggregate_eq_groups ds, aggregate_eq_foldl ds, unaggregate_eq_groups h,
    unaggregate_aggregate_perm h, sumOf_occurrences_aggregate h,
    aggregate_unaggregate nodup (oneLine_aggregate h), aggregate_of_nodup nodup⟩

/-- Two rules on one line, where the first of them finds something again behind the second. -/
def interleaved : List Diagnostic := [
  { range := ⟨⟨3, 1⟩, ⟨3, 2⟩⟩, ruleId := "ordering", message := "a" },
  { range := ⟨⟨3, 1⟩, ⟨3, 2⟩⟩, ruleId := "no-console", message := "b" },
  { range := ⟨⟨3, 5⟩, ⟨3, 6⟩⟩, ruleId := "ordering", message := "a" }]

theorem aggregation_laws_interleaved :
    Plain interleaved ∧ (unaggregate (aggregate interleaved)).Perm interleaved ∧
      sumOf ((aggregate interleaved).map Diagnostic.occurrences) = 3 ∧
      aggregate (unaggregate (aggregate interleaved)) = aggregate interleaved := by
  have plain : Plain interleaved := by decide
  obtain ⟨-, -, -, -, -, perm, count, back, -⟩ := aggregation_laws plain
  exact ⟨plain, perm (by decide), count, back⟩

end SolidityLint
