import Mathlib.Algebra.BigOperators.Group.List.Lemmas
import SolidityLint.Proofs.Report.Agreement

/-!
# Analysis — views are determined by the findings

The rows of a view are gathered by name, in whatever order the names come, and then sorted.  Here a
view is said without its making: `View` lists what the rows have to say of the findings and how they
have to stand.

* `view_iff`: there is exactly one such list, and it is the one that the analysis gives.
* `View.perm`: what a view says depends on the findings but not on their order.
* `View.sumOf_issues`: the rows of a view share the findings out among them.
* `views_determined_by_findings`: this for the views and the sums of every run, in every order.
-/

namespace SolidityLint

/-! ### The order of rows -/

/-- The larger number comes first, and a tie is decided by `tie`. -/
def LargerFirst (x y : Nat) (tie : Prop) : Prop := y < x ∨ x = y ∧ tie

namespace LargerFirst

variable {x y z : Nat} {p q r : Prop}

theorem imp (h : LargerFirst x y p) (tie : p → q) : LargerFirst x y q :=
  h.imp_right fun h => ⟨h.1, tie h.2⟩

theorem trans (h : LargerFirst x y p) (h' : LargerFirst y z q) (tie : p → q → r) :
    LargerFirst x z r := by
  rcases h with h | ⟨rfl, hp⟩
  · rcases h' with h' | ⟨rfl, -⟩
    · exact .inl (Nat.lt_trans h' h)
    · exact .inl h
  · exact h'.imp (tie hp)

theorem asymm (h : LargerFirst x y p) (tie : p → ¬ q) : ¬ LargerFirst y x q := by
  rintro (h' | ⟨rfl, hq⟩)
  · rcases h with h | ⟨rfl, -⟩
    · exact Nat.lt_asymm h h'
    · exact Nat.lt_irrefl _ h'
  · rcases h with h | ⟨-, hp⟩
    · exact Nat.lt_irrefl _ h
    · exact tie hp hq

theorem total (x y : Nat) (tie : p ∨ q) : LargerFirst x y p ∨ LargerFirst y x q := by
  rcases Nat.lt_trichotomy x y with h | rfl | h
  · exact .inr (.inl h)
  · exact tie.imp (fun h => .inr ⟨rfl, h⟩) fun h => .inr ⟨rfl, h⟩
  · exact .inl (.inl h)

/-- The test that a sort makes. -/
theorem of_ite {tie : Bool} :
    (if x ≠ y then decide (y < x) else tie) = true ↔ LargerFirst x y (tie = true) := by
  by_cases h : x = y
  · simp [LargerFirst, h]
  · simp [LargerFirst, h]

end LargerFirst

namespace GroupSummary

/-- Does a row stand before another?  By name; or by the number of findings in the direction asked
for; or with more errors, then more warnings, then more findings.  `tie` compares the names. -/
def Ranks (tie : String → String → Prop) (sort : SortField) (descending : Bool)
    (a b : GroupSummary) : Prop :=
  match sort with
  | .alpha => tie a.name b.name
  | .count =>
    if descending then LargerFirst a.issues b.issues (tie a.name b.name)
    else LargerFirst b.issues a.issues (tie a.name b.name)
  | .severity =>
    LargerFirst a.counts.errors b.counts.errors
      (LargerFirst a.counts.warnings b.counts.warnings
        (LargerFirst a.issues b.issues (tie a.name b.name)))

/-- The order of the rows of a view: rows that rank the same stand by their names. -/
abbrev Precedes : SortField → Bool → GroupSummary → GroupSummary → Prop := Ranks (· < ·)

variable {sort : SortField} {descending : Bool} {a b c : GroupSummary}

theorem Ranks.imp {p q : String → String → Prop} (h : Ranks p sort descending a b)
    (tie : p a.name b.name → q a.name b.name) : Ranks q sort descending a b := by
  cases sort with
  | alpha => exact tie h
  | count =>
      cases descending with
      | true => exact LargerFirst.imp h tie
      | false => exact LargerFirst.imp h tie
  | severity => exact LargerFirst.imp h fun h => h.imp fun h => h.imp tie

theorem Precedes.asymm (h : Precedes sort descending a b) : ¬ Precedes sort descending b a := by
  have names : a.name < b.name → ¬ b.name < a.name := String.lt_asymm
  cases sort with
  | alpha => exact names h
  | count =>
      cases descending with
      | true => exact LargerFirst.asymm h names
      | false => exact LargerFirst.asymm h names
  | severity => exact LargerFirst.asymm h fun h => h.asymm fun h => h.asymm names

/-- What the sort compares rows by. -/
theorem before_iff : before sort descending a b = true ↔ Ranks (· ≤ ·) sort descending a b := by
  cases sort with
  | alpha => simp [before, Ranks]
  | count =>
      cases descending with
      | true =>
          refine LargerFirst.of_ite.trans ?_
          simp [Ranks]
      | false =>
          have swap : (if a.issues ≠ b.issues then decide (a.issues < b.issues)
              else decide (a.name ≤ b.name)) = (if b.issues ≠ a.issues then
                decide (a.issues < b.issues) else decide (a.name ≤ b.name)) := by
            simp only [ne_comm]
          simp only [before, Bool.false_eq_true, if_false, swap]
          refine LargerFirst.of_ite.trans ?_
          simp [Ranks]
  | severity =>
      simp only [before, LargerFirst.of_ite, decide_eq_true_eq, Ranks]

theorem before_trans (h : before sort descending a b = true) (h' : before sort descending b c = true) :
    before sort descending a c = true := by
  rw [before_iff] at h h' ⊢
  have names : a.name ≤ b.name → b.name ≤ c.name → a.name ≤ c.name := String.le_trans
  cases sort with
  | alpha => exact names h h'
  | count =>
      cases descending with
      | true => exact LargerFirst.trans h h' names
      | false => exact LargerFirst.trans h' h fun h' h => names h h'
  | severity => exact LargerFirst.trans h h' fun h h' => h.trans h' fun h h' => h.trans h' names

theorem before_total (a b : GroupSummary) :
    (before sort descending a b || before sort descending b a) = true := by
  rw [Bool.or_eq_true, before_iff, before_iff]
  have names := String.le_total a.name b.name
  cases sort with
  | alpha => exact names
  | count =>
      cases descending with
      | true => exact LargerFirst.total _ _ names
      | false => exact (LargerFirst.total _ _ names.symm).symm
  | severity => exact LargerFirst.total _ _ (LargerFirst.total _ _ (LargerFirst.total _ _ names))

end GroupSummary

/-! ### What a view says -/

/-- Findings under the paths by which they are shown. -/
abbrev Findings := List (String × Diagnostic)

/-- What a row says of the findings whose key is its name. -/
structure GroupSummary.Sums (key other : String × Diagnostic → String) (found : Findings)
    (g : GroupSummary) : Prop where
  issues : g.issues = found.countP fun f => key f = g.name
  errors : g.counts.errors = found.countP fun f => key f = g.name ∧ f.2.severity = .error
  /-- What is no error, info or hint. -/
  warnings : g.counts.warnings = found.countP fun f => key f = g.name ∧
    ¬ f.2.severity = .error ∧ ¬ f.2.severity = .info ∧ ¬ f.2.severity = .hint
  infos : g.counts.infos = found.countP fun f => key f = g.name ∧ f.2.severity = .info
  hints : g.counts.hints = found.countP fun f => key f = g.name ∧ f.2.severity = .hint
  /-- The other names are in order, each once. -/
  others : g.others.Pairwise (· < ·)
  mem_others : ∀ name, name ∈ g.others ↔ ∃ f ∈ found, key f = g.name ∧ other f = name

/-- The rows of findings by a key: one for each key, in order. -/
structure View (sort : SortField) (descending : Bool) (key other : String × Diagnostic → String)
    (found : Findings) (rows : List GroupSummary) : Prop where
  names : ∀ name, name ∈ rows.map (·.name) ↔ ∃ f ∈ found, key f = name
  once : (rows.map (·.name)).Nodup
  sums : ∀ g ∈ rows, g.Sums key other found
  ordered : rows.Pairwise (GroupSummary.Precedes sort descending)

section Views

variable {sort : SortField} {descending : Bool} {key other : String × Diagnostic → String}
  {found : Findings} {rows : List GroupSummary}

/-- The findings leave nothing open about the row of a name. -/
theorem GroupSummary.Sums.unique {g g' : GroupSummary} (h : g.Sums key other found)
    (h' : g'.Sums key other found) (name : g.name = g'.name) : g = g' := by
  have others : g.others = g'.others := h.others.eq_of_mem_iff h'.others fun x => by
    rw [h.mem_others, h'.mem_others, name]
  obtain ⟨issues, errors, warnings, infos, hints, -, -⟩ := h
  obtain ⟨issues', errors', warnings', infos', hints', -, -⟩ := h'
  rw [name] at issues errors warnings infos hints
  obtain ⟨n, ⟨e, w, i, hi⟩, is, os⟩ := g
  obtain ⟨n', ⟨e', w', i', hi'⟩, is', os'⟩ := g'
  simp only at name others issues errors warnings infos hints issues' errors' warnings' infos' hints'
  rw [name, others, issues, issues', errors, errors', warnings, warnings', infos, infos', hints, hints']

/-- The findings of a name at some severities. -/
theorem countP_own (name : String) (p : Diagnostic → Bool) :
    ((found.filter (key · == name)).map (·.2)).countP p =
      found.countP fun f => key f = name ∧ p f.2 = true := by
  rw [List.countP_map, List.countP_filter]
  exact List.countP_congr fun f _ => by simp [and_comm]

/-- The row that is made for a name. -/
theorem sums_of_mem_groupBy {g : GroupSummary} (h : g ∈ groupBy key other found) :
    g.Sums key other found := by
  obtain ⟨name, -, rfl⟩ := List.mem_map.mp h
  have counts : SeverityCounts.ofList ((found.filter (key · == name)).map (·.2)) = _ :=
    SeverityCounts.foldl_add _ {}
  simp only [countP_own, Nat.zero_add] at counts
  constructor
  · rw [List.countP_eq_length_filter]
    simp [beq_eq_decide]
  · simp [counts]
  · simp [counts, and_assoc]
  · simp [counts]
  · simp [counts]
  · exact sorted_keys _
  · intro x
    simp [mem_sortedIds, and_assoc]

theorem names_groupBy : (groupBy key other found).map (·.name) = sortedIds (found.map key) := by
  rw [groupBy, List.map_map]
  exact List.map_id _

/-- Rows with different names that the sort leaves in an order are strictly in that order. -/
theorem pairwise_precedes_sort (once : (rows.map (·.name)).Nodup) :
    (rows.mergeSort (GroupSummary.before sort descending)).Pairwise
      (GroupSummary.Precedes sort descending) := by
  have perm := List.mergeSort_perm rows (GroupSummary.before sort descending)
  have once' := (perm.map (·.name)).nodup_iff.mpr once
  have sorted := @List.pairwise_mergeSort _ (GroupSummary.before sort descending)
    (fun _ _ _ => GroupSummary.before_trans) GroupSummary.before_total rows
  refine (sorted.and (List.pairwise_map.mp once')).imp fun {a b} h => ?_
  refine (GroupSummary.before_iff.mp h.1).imp fun le => ?_
  exact String.not_le.mp fun le' => h.2 (String.le_antisymm le le')

/-- The sorted rows are a view. -/
theorem view_groupBy :
    View sort descending key other found
      ((groupBy key other found).mergeSort (GroupSummary.before sort descending)) := by
  have perm := List.mergeSort_perm (groupBy key other found) (GroupSummary.before sort descending)
  have once : ((groupBy key other found).map (·.name)).Nodup := by
    rw [names_groupBy]
    exact (sorted_keys _).imp fun h => String.ne_of_lt h
  have names := perm.map (·.name)
  refine ⟨fun name => ?_, names.nodup_iff.mpr once,
    fun g hg => sums_of_mem_groupBy (perm.mem_iff.mp hg), pairwise_precedes_sort once⟩
  rw [names.mem_iff, names_groupBy, mem_sortedIds, List.mem_map]

/-- **One view.**  What is said of a view determines it, and it is what the sort gives. -/
theorem view_iff :
    View sort descending key other found rows ↔
      rows = (groupBy key other found).mergeSort (GroupSummary.before sort descending) := by
  constructor
  · intro h
    have h' : View sort descending key other found _ := view_groupBy
    generalize (groupBy key other found).mergeSort (GroupSummary.before sort descending) = rows' at h'
    have sub {rows rows' : List GroupSummary} (h : View sort descending key other found rows)
        (h' : View sort descending key other found rows') {g : GroupSummary} (hg : g ∈ rows) :
        g ∈ rows' := by
      have named := (h'.names g.name).mpr ((h.names g.name).mp (List.mem_map_of_mem hg))
      obtain ⟨g', hg', name⟩ := List.mem_map.mp named
      exact (h'.sums g' hg').unique (h.sums g hg) name ▸ hg'
    have perm : rows.Perm rows' :=
      (List.perm_ext_iff_of_nodup h.once.of_map h'.once.of_map).mpr fun g => ⟨sub h h', sub h' h⟩
    exact perm.eq_of_pairwise (fun _ _ _ _ lt lt' => absurd lt' lt.asymm) h.ordered h'.ordered
  · rintro rfl
    exact view_groupBy

/-- The order of the findings does not matter. -/
theorem View.perm {found' : Findings} (h : View sort descending key other found rows)
    (perm : found.Perm found') : View sort descending key other found' rows := by
  obtain ⟨names, once, sums, ordered⟩ := h
  refine ⟨fun name => ?_, once, fun g hg => ?_, ordered⟩
  · simp only [names, perm.mem_iff]
  · obtain ⟨issues, errors, warnings, infos, hints, others, mem_others⟩ := sums g hg
    refine ⟨?_, ?_, ?_, ?_, ?_, others, fun name => ?_⟩
    · rw [issues, perm.countP_eq]
    · rw [errors, perm.countP_eq]
    · rw [warnings, perm.countP_eq]
    · rw [infos, perm.countP_eq]
    · rw [hints, perm.countP_eq]
    · simp only [mem_others, perm.mem_iff]

/-- Sorting the rows of a view in any order gives the view. -/
theorem View.sort_perm (h : View sort descending key other found rows) {emitted : List GroupSummary}
    (perm : emitted.Perm rows) : emitted.mergeSort (GroupSummary.before sort descending) = rows := by
  have once := (perm.map (·.name)).nodup_iff.mpr h.once
  have perm' := (List.mergeSort_perm emitted (GroupSummary.before sort descending)).trans perm
  exact perm'.eq_of_pairwise (fun _ _ _ _ lt lt' => absurd lt' lt.asymm) (pairwise_precedes_sort once)
    h.ordered

/-- The rows of a view share the findings out among them. -/
theorem View.sumOf_issues (h : View sort descending key other found rows) :
    sumOf (rows.map (·.issues)) = found.length := by
  have counts : rows.map (·.issues) = (rows.map (·.name)).map fun name => (found.map key).count name := by
    rw [List.map_map]
    refine List.map_congr_left fun g hg => ?_
    rw [(h.sums g hg).issues, Function.comp, List.count, List.countP_map]
    exact List.countP_congr fun f _ => by simp
  have names : (rows.map (·.name)).Perm (found.map key).dedup :=
    (List.perm_ext_iff_of_nodup h.once (List.nodup_dedup _)).mpr fun name => by
      rw [h.names, List.mem_dedup, List.mem_map]
  rw [sumOf_eq_sum, counts, (names.map _).sum_eq, List.sum_map_count_dedup_eq_length, List.length_map]

end Views

/-! ### Every run -/

/-- The number of findings at all severities. -/
def SeverityCounts.total (c : SeverityCounts) : Nat := c.errors + c.warnings + c.infos + c.hints

theorem SeverityCounts.total_add (c : SeverityCounts) (s : Severity) : (c.add s).total = c.total + 1 := by
  unfold add total
  split
  · simp only; omega
  · split
    · simp only; omega
    · split
      · simp only; omega
      · simp only; omega

/-- Every finding is counted at one severity. -/
theorem SeverityCounts.total_ofList (ds : List Diagnostic) : (ofList ds).total = ds.length := by
  have step (c : SeverityCounts) :
      (ds.foldl (fun c d => c.add d.severity) c).total = c.total + ds.length := by
    induction ds generalizing c with
    | nil => rfl
    | cons d ds ih => rw [List.foldl_cons, ih, total_add, List.length_cons]; omega
  exact (step {}).trans (Nat.zero_add _)

theorem total_counts_of_mem_groupBy {key other : String × Diagnostic → String} {found : Findings}
    {g : GroupSummary} (h : g ∈ groupBy key other found) : g.counts.total = g.issues := by
  obtain ⟨name, -, rfl⟩ := List.mem_map.mp h
  rw [SeverityCounts.total_ofList, List.length_map]

/-- The sums of outcomes do not depend on their order. -/
theorem totalsOf_perm {files files' : List FileOutcome} (hfiles : files.Perm files')
    {found found' : Findings} (hfound : found.Perm found') :
    totalsOf files found = totalsOf files' found' := by
  have counts : SeverityCounts.ofList (found.map (·.2)) = .ofList (found'.map (·.2)) := by
    have perm := hfound.map (·.2)
    rw [SeverityCounts.ofList, SeverityCounts.ofList, SeverityCounts.foldl_add,
      SeverityCounts.foldl_add, perm.countP_eq, perm.countP_eq, perm.countP_eq, perm.countP_eq]
  have checked := hfiles.filterMap fun f =>
    if f.error.isSome || f.excluded || f.skipped then none else f.result
  simp only [totalsOf, counts, sumOf_eq_sum, checked.length_eq, (checked.filter _).length_eq,
    hfound.length_eq, (hfiles.filter _).length_eq, (checked.map _).sum_eq]

/-- **Views are determined by the findings.**  For every run, whatever the order of its files: the
sums and both views stay the same when the files are put in another order, and a view stays the same
when its rows come to the sort in another order.  A view that is asked for is the one list that has
a row for each rule id, or each shown path, with findings, says of them what is to be said, and has
its rows strictly in the order asked for.  The rows of a view, and the list of findings, add up to
the findings of the run, and each of these numbers is split by severity. -/
theorem views_determined_by_findings (o : AnalysisOptions) (result : RunResult) :
    let report := analyze o (some result)
    let found := countedFindings o.workingDir result.files
    (∀ result' : RunResult, result'.files.Perm result.files →
      (analyze o (some result')).totals = report.totals ∧
      (analyze o (some result')).byRule = report.byRule ∧
      (analyze o (some result')).byFile = report.byFile) ∧
    (o.byRule → (∀ rows, View o.sort o.descending (·.2.ruleId) (·.1) found rows ↔ rows = report.byRule) ∧
      (∀ emitted : List GroupSummary, emitted.Perm report.byRule →
        emitted.mergeSort (GroupSummary.before o.sort o.descending) = report.byRule) ∧
      sumOf (report.byRule.map (·.issues)) = report.totals.issues) ∧
    (o.byFile → (∀ rows, View o.sort o.descending (·.1) (·.2.ruleId) found rows ↔ rows = report.byFile) ∧
      (∀ emitted : List GroupSummary, emitted.Perm report.byFile →
        emitted.mergeSort (GroupSummary.before o.sort o.descending) = report.byFile) ∧
      sumOf (report.byFile.map (·.issues)) = report.totals.issues) ∧
    (o.diagnostics → report.diagnostics.length = report.totals.issues) ∧
    (∀ g, g ∈ report.byRule ∨ g ∈ report.byFile → g.counts.total = g.issues) ∧
    report.totals.counts.total = report.totals.issues := by
  intro report found
  have byRule (wanted : o.byRule) : report.byRule =
      (groupBy (·.2.ruleId) (·.1) found).mergeSort (GroupSummary.before o.sort o.descending) :=
    if_pos wanted
  have byFile (wanted : o.byFile) : report.byFile =
      (groupBy (·.1) (·.2.ruleId) found).mergeSort (GroupSummary.before o.sort o.descending) :=
    if_pos wanted
  refine ⟨fun result' perm => ?_, fun wanted => ?_, fun wanted => ?_, fun wanted => ?_, ?_, ?_⟩
  · have perm' : (countedFindings o.workingDir result'.files).Perm found := perm.flatMap_right _
    have view (key other : String × Diagnostic → String) :
        View o.sort o.descending key other (countedFindings o.workingDir result'.files) _ :=
      view_groupBy
    have same {key other : String × Diagnostic → String} :=
      view_iff.mp ((view key other).perm perm')
    refine ⟨totalsOf_perm perm perm', ?_, ?_⟩
    · simp only [report, analyze, same, found]
    · simp only [report, analyze, same, found]
  · rw [byRule wanted]
    exact ⟨fun rows => view_iff, fun emitted => view_groupBy.sort_perm, view_groupBy.sumOf_issues⟩
  · rw [byFile wanted]
    exact ⟨fun rows => view_iff, fun emitted => view_groupBy.sort_perm, view_groupBy.sumOf_issues⟩
  · have entries : report.diagnostics = found.map entryOfFinding := if_pos wanted
    rw [entries, List.length_map]
    rfl
  · have row {wanted : Bool} {key other : String × Diagnostic → String} {g : GroupSummary}
        (hg : g ∈ if wanted then (groupBy key other found).mergeSort
          (GroupSummary.before o.sort o.descending) else []) : g.counts.total = g.issues := by
      cases wanted with
      | true => exact total_counts_of_mem_groupBy (List.mem_mergeSort.mp hg)
      | false => cases hg
    rintro g (hg | hg)
    · exact row hg
    · exact row hg
  · change (SeverityCounts.ofList (found.map (·.2))).total = found.length
    rw [SeverityCounts.total_ofList, List.length_map]

/-- A finding of a rule on the first line. -/
def findingOf (ruleId : String) (severity : Severity) (sameLine : List Range) : Diagnostic :=
  { range := ⟨⟨1, 1⟩, ⟨1, 2⟩⟩, severity, message := "", ruleId, sameLine }

/-- A run over two files: three findings in one of them, two of which are folded into one
diagnostic, and one in the other. -/
def twoFilesRun : RunResult := .ofOutcomes [
  { path := "/B.sol", result := some { diagnostics := [findingOf "ordering" .hint []] } },
  { path := "/A.sol", result := some { diagnostics := [findingOf "ordering" .error [⟨⟨1, 5⟩, ⟨1, 6⟩⟩],
      findingOf "max-line-length" .warning []] } }]

/-- The views of the two files, in either order: the rule of three of the four findings has a row
that says so. -/
theorem views_determined_by_findings_twoFiles :
    let report := analyze { workingDir := "/" } (some twoFilesRun)
    let swapped := analyze { workingDir := "/" } (some { files := twoFilesRun.files.reverse })
    swapped.byRule = report.byRule ∧ swapped.byFile = report.byFile ∧
    (∃ g ∈ report.byRule, g.name = "ordering" ∧ g.issues = 3 ∧ g.counts.errors = 2 ∧
      g.counts.hints = 1 ∧ "B.sol" ∈ g.others) ∧
    sumOf (report.byRule.map (·.issues)) = report.totals.issues ∧ report.totals.issues = 4 := by
  intro report swapped
  obtain ⟨perm, rules, files, -⟩ := views_determined_by_findings { workingDir := "/" } twoFilesRun
  obtain ⟨-, sameRules, sameFiles⟩ := perm { files := twoFilesRun.files.reverse } (List.reverse_perm _)
  obtain ⟨views, -, sum⟩ := rules rfl
  obtain ⟨names, -, sums, -⟩ := (views report.byRule).mpr rfl
  obtain ⟨g, hg, name⟩ := List.mem_map.mp ((names "ordering").mpr
    ⟨("B.sol", findingOf "ordering" .hint []), by decide, rfl⟩)
  obtain ⟨issues, errors, -, -, hints, -, others⟩ := sums g hg
  rw [name] at issues errors hints
  refine ⟨sameRules, sameFiles, ⟨g, hg, name, issues.trans rfl,
    errors.trans rfl, hints.trans rfl, ?_⟩, sum, rfl⟩
  exact (others "B.sol").mpr ⟨("B.sol", findingOf "ordering" .hint []), by decide, name.symm, rfl⟩

end SolidityLint
