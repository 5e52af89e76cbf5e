import SolidityLint.Json.Basic

/-!
# Json — the order of keys

`sortByKey` orders pairs by their keys and `lastOfRun` keeps one pair of each key.  Together they
keep every key (`mem_keys_sorted`), once and in order (`sorted_keys`), with the pair that came last
(`find?_sorted`).  On keys that occur once sorting is all there is to it (`lastOfRun_of_nodup`), and
it commutes with giving the keys new values (`map_sortByKey`).
-/

namespace SolidityLint

variable {α : Type}

theorem mem_sortByKey {p : String × α} {ps : List (String × α)} : p ∈ sortByKey ps ↔ p ∈ ps :=
  List.mem_mergeSort

theorem keys_trans (a b c : String × α) (h₁ : decide (a.1 ≤ b.1) = true)
    (h₂ : decide (b.1 ≤ c.1) = true) : decide (a.1 ≤ c.1) = true :=
  decide_eq_true (String.le_trans (of_decide_eq_true h₁) (of_decide_eq_true h₂))

theorem keys_total (a b : String × α) : (decide (a.1 ≤ b.1) || decide (b.1 ≤ a.1)) = true := by
  simpa using String.le_total a.1 b.1

theorem sortByKey_pairwise (ps : List (String × α)) :
    (sortByKey ps).Pairwise fun a b => a.1 ≤ b.1 :=
  (List.pairwise_mergeSort keys_trans keys_total ps).imp of_decide_eq_true

/-- A pair that is kept was there. -/
theorem mem_of_mem_lastOfRun {p : String × α} {ps : List (String × α)} (h : p ∈ lastOfRun ps) :
    p ∈ ps := by
  fun_induction lastOfRun ps with
  | case1 => exact h
  | case2 => exact h
  | case3 q r rest same ih => exact List.mem_cons_of_mem q (ih h)
  | case4 q r rest other ih =>
      rcases List.mem_cons.mp h with rfl | h
      · exact List.mem_cons_self
      · exact List.mem_cons_of_mem q (ih h)

/-- Every key is kept. -/
theorem mem_keys_lastOfRun {k : String} {ps : List (String × α)} :
    k ∈ (lastOfRun ps).map (·.1) ↔ k ∈ ps.map (·.1) := by
  fun_induction lastOfRun ps with
  | case1 => rfl
  | case2 => rfl
  | case3 q r rest same ih =>
      have eq : q.1 = r.1 := beq_iff_eq.mp same
      rw [ih, List.map_cons, List.map_cons, List.map_cons, eq]
      simp
  | case4 q r rest other ih =>
      rw [List.map_cons, List.mem_cons, ih, ← List.mem_cons, ← List.map_cons]

/-- Of pairs in order, each key is kept once. -/
theorem lastOfRun_pairwise {ps : List (String × α)} (h : ps.Pairwise fun a b => a.1 ≤ b.1) :
    (lastOfRun ps).Pairwise fun a b => a.1 < b.1 := by
  fun_induction lastOfRun ps with
  | case1 => exact .nil
  | case2 p => exact List.pairwise_singleton _ p
  | case3 q r rest same ih => exact ih h.of_cons
  | case4 q r rest other ih =>
      refine .cons (fun p hp => ?_) (ih h.of_cons)
      -- `q` is below the next key, and that is not above any that is kept behind it.
      have first : q.1 ≤ r.1 := List.rel_of_pairwise_cons h List.mem_cons_self
      have below : q.1 < r.1 := String.not_le.mp fun le =>
        other (beq_iff_eq.mpr (String.le_antisymm first le))
      rcases List.mem_cons.mp (mem_of_mem_lastOfRun hp) with rfl | hp
      · exact below
      · exact String.not_le.mp fun le => String.not_le.mpr below
          (String.le_trans (List.rel_of_pairwise_cons h.of_cons hp) le)

/-- **The keys in order.**  Sorting and dropping repetitions keeps every key. -/
theorem mem_keys_sorted {k : String} {ps : List (String × α)} :
    k ∈ (lastOfRun (sortByKey ps)).map (·.1) ↔ k ∈ ps.map (·.1) := by
  rw [mem_keys_lastOfRun, List.mem_map, List.mem_map]
  exact exists_congr fun p => and_congr_left fun _ => mem_sortByKey

/-- Sorting and dropping repetitions leaves the keys in order, each once. -/
theorem sorted_keys (ps : List (String × α)) :
    ((lastOfRun (sortByKey ps)).map (·.1)).Pairwise (· < ·) :=
  List.pairwise_map.mpr (lastOfRun_pairwise (sortByKey_pairwise ps))

/-! ### Keys that are in order already -/

theorem sortByKey_perm (ps : List (String × α)) : (sortByKey ps).Perm ps :=
  List.mergeSort_perm ps _

/-- New values commute with sorting by the keys. -/
theorem map_sortByKey {β : Type} (f : String × α → β) (ps : List (String × α)) :
    (sortByKey ps).map (fun p => (p.1, f p)) = sortByKey (ps.map fun p => (p.1, f p)) :=
  List.map_mergeSort fun _ _ _ _ => rfl

theorem sortByKey_of_pairwise {ps : List (String × α)} (h : ps.Pairwise fun a b => a.1 ≤ b.1) :
    sortByKey ps = ps :=
  List.mergeSort_of_pairwise (h.imp decide_eq_true)

/-- Keys that occur once are kept. -/
theorem lastOfRun_of_nodup {ps : List (String × α)} (h : (ps.map (·.1)).Nodup) :
    lastOfRun ps = ps := by
  fun_induction lastOfRun ps with
  | case1 => rfl
  | case2 => rfl
  | case3 p q rest same ih =>
      rw [List.map_cons, List.map_cons, List.nodup_cons] at h
      exact absurd (beq_iff_eq.mp same ▸ List.mem_cons_self) h.1
  | case4 p q rest other ih =>
      rw [List.map_cons, List.nodup_cons] at h
      rw [ih h.2]

/-! ### The pair that is kept -/

/-- Pairs of one key stay in their order. -/
theorem filter_sortByKey (k : String) (ps : List (String × α)) :
    (sortByKey ps).filter (·.1 == k) = ps.filter (·.1 == k) := by
  have alike : (ps.filter (·.1 == k)).Pairwise fun a b => decide (a.1 ≤ b.1) = true :=
    List.pairwise_of_forall_mem_list fun a ha b hb => by
      have own : a.1 = k := by simpa using (List.mem_filter.mp ha).2
      have own' : b.1 = k := by simpa using (List.mem_filter.mp hb).2
      exact decide_eq_true (own ▸ own' ▸ String.le_refl _)
  have among : (ps.filter (·.1 == k)).Sublist ((sortByKey ps).filter (·.1 == k)) := by
    simpa [sortByKey] using
      (List.sublist_mergeSort keys_trans keys_total alike List.filter_sublist).filter (·.1 == k)
  exact (among.eq_of_length ((sortByKey_perm ps).symm.filter _).length_eq).symm

/-- Of pairs in order, the last of each key is kept. -/
theorem find?_lastOfRun (k : String) {ps : List (String × α)} (h : ps.Pairwise fun a b => a.1 ≤ b.1) :
    (lastOfRun ps).find? (·.1 == k) = (ps.filter (·.1 == k)).getLast? := by
  fun_induction lastOfRun ps with
  | case1 => rfl
  | case2 p => cases own : p.1 == k <;> simp [own]
  | case3 p q rest same ih =>
      have eq : p.1 = q.1 := beq_iff_eq.mp same
      rw [ih h.of_cons]
      cases own : q.1 == k <;> simp [eq, own]
  | case4 p q rest other ih =>
      have first : p.1 ≤ q.1 := List.rel_of_pairwise_cons h List.mem_cons_self
      have below : p.1 < q.1 := String.not_le.mp fun le =>
        other (beq_iff_eq.mpr (String.le_antisymm first le))
      rw [List.find?_cons, List.filter_cons]
      cases own : p.1 == k with
      | false => simpa using ih h.of_cons
      | true =>
          -- The keys behind are greater, so none is this one.
          have none : (q :: rest).filter (·.1 == k) = [] := by
            refine List.filter_eq_nil_iff.mpr fun r hr same => ?_
            have eq : r.1 = p.1 := (beq_iff_eq.mp same).trans (beq_iff_eq.mp own).symm
            rcases List.mem_cons.mp hr with rfl | hr
            · exact other (beq_iff_eq.mpr eq.symm)
            · exact String.not_le.mpr below (eq ▸ List.rel_of_pairwise_cons h.of_cons hr)
          simp [none]

/-- **Of each key the last pair is kept.** -/
theorem find?_sorted (k : String) (ps : List (String × α)) :
    (lastOfRun (sortByKey ps)).find? (·.1 == k) = ps.reverse.find? (·.1 == k) := by
  rw [find?_lastOfRun k (sortByKey_pairwise ps), filter_sortByKey, List.getLast?_filter]

end SolidityLint
