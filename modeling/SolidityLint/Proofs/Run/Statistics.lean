import SolidityLint.Proofs.Lint.Aggregation
import SolidityLint.Run.Outcome

/-!
# Run — what the statistics count

A tally by severity keeps its entries in the order of their names, each name once
(`SeverityTally.Sorted`); then adding to one severity changes the number of that severity alone
(`count_add`), and a tally of diagnostics has for each severity the number of findings that the
diagnostics counted under it stand for (`count_addAll`).

The statistics of a run are those of its outcomes taken one after the other.  The diagnostics that
reach the tally are those of the outcomes that were linted (`FileOutcome.counted`), and with every
diagnostic that is counted under a severity the number of that severity is positive
(`count_ofOutcomes_pos_iff`).
-/

namespace SolidityLint

namespace SeverityTally

/-- The entries stand in the order of their names, and no name stands twice. -/
def Sorted (t : SeverityTally) : Prop := t.Pairwise fun a b => a.1.name < b.1.name

theorem count_cons (k s : Severity) (m : Nat) (t : SeverityTally) :
    count ((k, m) :: t) s = if s = k then m else count t s := by
  unfold count
  by_cases h : s = k
  · subst h; simp
  · rw [List.lookup_cons, beq_eq_false_iff_ne.mpr h, if_neg h]

/-- A severity in front of all entries is not counted yet. -/
theorem count_eq_zero {s : Severity} {t : SeverityTally} (h : ∀ e ∈ t, s.name < e.1.name) :
    count t s = 0 := by
  induction t with
  | nil => rfl
  | cons e t ih =>
      have ne : s ≠ e.1 := fun eq => String.lt_irrefl _ (eq ▸ h e List.mem_cons_self)
      rw [count_cons, if_neg ne]
      exact ih fun e' he' => h e' (List.mem_cons_of_mem e he')

/-- Severities are told apart by their names, which are ordered. -/
theorem name_lt_of_not_lt {k s : Severity} (ne : k ≠ s) (h : ¬ s.name < k.name) :
    k.name < s.name := by
  refine String.not_le.mp fun h' => ne ?_
  have eq : k.name = s.name := String.le_antisymm (String.not_lt.mp h) h'
  cases k
  cases s
  exact congrArg Severity.mk eq

theorem mem_add {s : Severity} {n : Nat} {t : SeverityTally} {e : Severity × Nat}
    (h : e ∈ add s n t) : e.1 = s ∨ ∃ e' ∈ t, e'.1 = e.1 := by
  induction t with
  | nil =>
      obtain rfl := List.mem_singleton.mp h
      exact Or.inl rfl
  | cons e' t ih =>
      simp only [add] at h
      split at h
      · rcases List.mem_cons.mp h with rfl | h
        · exact Or.inr ⟨e', List.mem_cons_self, rfl⟩
        · exact Or.inr ⟨e, List.mem_cons_of_mem e' h, rfl⟩
      · split at h
        · rcases List.mem_cons.mp h with rfl | h
          · exact Or.inl rfl
          · exact Or.inr ⟨e, h, rfl⟩
        · rcases List.mem_cons.mp h with rfl | h
          · exact Or.inr ⟨_, List.mem_cons_self, rfl⟩
          · rcases ih h with h | ⟨e'', he'', eq⟩
            · exact Or.inl h
            · exact Or.inr ⟨e'', List.mem_cons_of_mem e' he'', eq⟩

theorem sorted_add {t : SeverityTally} (h : Sorted t) (s : Severity) (n : Nat) :
    Sorted (add s n t) := by
  induction t with
  | nil => exact List.pairwise_singleton _ _
  | cons e t ih =>
      obtain ⟨he, ht⟩ := List.pairwise_cons.mp h
      rw [add]
      split
      · exact List.pairwise_cons.mpr ⟨he, ht⟩
      · rename_i ne
        split
        · rename_i lt
          refine List.pairwise_cons.mpr ⟨fun e' he' => ?_, h⟩
          rcases List.mem_cons.mp he' with rfl | he'
          · exact lt
          · exact String.lt_trans lt (he e' he')
        · rename_i nlt
          refine List.pairwise_cons.mpr ⟨fun e' he' => ?_, ih ht⟩
          rcases mem_add he' with eq | ⟨e'', he'', eq⟩
          · rw [eq]; exact name_lt_of_not_lt ne nlt
          · rw [← eq]; exact he e'' he''

/-- **One severity at a time.**  Adding to a severity changes its number and no other. -/
theorem count_add {t : SeverityTally} (h : Sorted t) (s : Severity) (n : Nat) (s' : Severity) :
    count (add s n t) s' = count t s' + if s' = s then n else 0 := by
  induction t with
  | nil => rw [add, count_cons]; simp [count]
  | cons e t ih =>
      obtain ⟨he, ht⟩ := List.pairwise_cons.mp h
      obtain ⟨k, m⟩ := e
      rw [add]
      split
      · rename_i eq
        subst eq
        rw [count_cons, count_cons]
        by_cases h' : s' = k
        · simp [h']
        · simp [h']
      · rename_i ne
        split
        · rename_i lt
          -- The entry goes in front of all others, so the severity had no number yet.
          have fresh : count ((k, m) :: t) s = 0 := count_eq_zero fun e' he' => by
            rcases List.mem_cons.mp he' with rfl | he'
            · exact lt
            · exact String.lt_trans lt (he e' he')
          rw [count_cons]
          by_cases h' : s' = s
          · subst h'; simp [fresh]
          · simp [h']
        · rw [count_cons, count_cons, ih ht]
          by_cases h' : s' = k
          · simp [h', ne]
          · simp [h']

/-- Counts diagnostics, each under its severity. -/
def addAll (ds : List Diagnostic) (t : SeverityTally) : SeverityTally :=
  ds.foldl (fun t d => t.add d.countedAs d.occurrences) t

/-- **A tally of diagnostics.** -/
theorem count_addAll (s : Severity) (ds : List Diagnostic) : ∀ {t : SeverityTally}, Sorted t →
    count (addAll ds t) s =
      count t s + sumOf ((ds.filter (·.countedAs = s)).map Diagnostic.occurrences) := by
  induction ds with
  | nil => intro t _; rfl
  | cons d ds ih =>
      intro t h
      rw [addAll, List.foldl_cons]
      change count (addAll ds _) s = _
      rw [ih (sorted_add h _ _), count_add h]
      by_cases h' : d.countedAs = s
      · simp [h', sumOf, Nat.add_assoc]
      · simp [h', Ne.symm h']

end SeverityTally

/-! ### The tally of a run -/

/-- The diagnostics of an outcome that the statistics count: those of a file that was linted. -/
def FileOutcome.counted (o : FileOutcome) : List Diagnostic :=
  if o.error.isSome || o.skipped || o.excluded then []
  else ((o.result.map (·.diagnostics)).getD [])

theorem Stats.bySeverity_addOutcome (s : Stats) (o : FileOutcome) :
    (s.addOutcome o).bySeverity = s.bySeverity.addAll o.counted := by
  unfold Stats.addOutcome FileOutcome.counted
  cases o.error with
  | some e => rfl
  | none =>
      cases o.skipped with
      | true => rfl
      | false =>
          cases o.excluded with
          | true => rfl
          | false => cases o.result <;> rfl

theorem Stats.bySeverity_foldl (os : List FileOutcome) : ∀ s : Stats,
    (os.foldl Stats.addOutcome s).bySeverity =
      s.bySeverity.addAll (os.flatMap FileOutcome.counted) := by
  induction os with
  | nil => intro s; rfl
  | cons o os ih =>
      intro s
      rw [List.foldl_cons, ih, Stats.bySeverity_addOutcome, SeverityTally.addAll,
        SeverityTally.addAll, SeverityTally.addAll, List.flatMap_cons, List.foldl_append]

/-- **A severity has a number** exactly when a diagnostic of a linted file is counted under it. -/
theorem count_ofOutcomes_pos_iff (os : List FileOutcome) (s : Severity) :
    0 < (RunResult.ofOutcomes os).stats.bySeverity.count s ↔
      ∃ o ∈ os, ∃ d ∈ o.counted, d.countedAs = s := by
  have sorted : SeverityTally.Sorted [] := List.Pairwise.nil
  rw [RunResult.ofOutcomes, Stats.bySeverity_foldl, SeverityTally.count_addAll s _ sorted]
  simp only [SeverityTally.count, List.lookup_nil, Option.getD_none, Nat.zero_add]
  rw [sumOf_occurrences_pos_iff]
  constructor
  · intro h
    obtain ⟨d, hd⟩ := List.exists_mem_of_ne_nil _ h
    obtain ⟨hd, hs⟩ := List.mem_filter.mp hd
    obtain ⟨o, ho, hd⟩ := List.mem_flatMap.mp hd
    exact ⟨o, ho, d, hd, of_decide_eq_true hs⟩
  · rintro ⟨o, ho, d, hd, hs⟩
    exact List.ne_nil_of_mem
      (List.mem_filter.mpr ⟨List.mem_flatMap.mpr ⟨o, ho, hd⟩, decide_eq_true hs⟩)

end SolidityLint
