import SolidityLint.Proofs.Report.Sarif
import SolidityLint.Proofs.Rules.Builtin
import SolidityLint.Proofs.Run.Failure
import SolidityLint.Proofs.Run.Outcomes
import SolidityLint.Proofs.Library.Text.Width
import SolidityLint.Report.Basic

/-!
# Report — reports against the statistics of their run

The statistics of a run, its views and its five reports count the same outcomes in folds of their
own, some before and some after findings of one line are expanded.

* `lintedResults` is what all of them count; each fold is brought to it.
* `Report.write_count`: the number of findings that a report gives is that of the statistics.
* `Report.write_summary_eq_none_iff`: the overview breaks off exactly on a file with findings whose
  path is too wide for its cell but has too few characters to be cut.
* `reports_agree_with_statistics`: this for every run, with the numbers of the document and of the
  views.
-/

namespace SolidityLint

/-! ### Sums -/

theorem sumOf_eq_sum (ns : List Nat) : sumOf ns = ns.sum := by
  induction ns with
  | nil => rfl
  | cons n ns ih => rw [sumOf, ih, List.sum_cons]

theorem length_expand (d : Diagnostic) : d.expand.length = d.occurrences := by
  simp [Diagnostic.expand, Diagnostic.occurrences, Nat.add_comm]

/-- Expanding gives a diagnostic for each finding. -/
theorem length_unaggregate (ds : List Diagnostic) :
    (unaggregate ds).length = sumOf (ds.map Diagnostic.occurrences) := by
  rw [unaggregate, List.length_flatMap, sumOf_eq_sum]
  simp only [length_expand]

/-- The findings of one outcome. -/
def FileOutcome.issues (o : FileOutcome) : Nat := (o.linted?.map (·.issueCount)).getD 0

theorem sumOf_issues (os : List FileOutcome) :
    sumOf ((lintedResults os).map (·.issueCount)) = sumOf (os.map FileOutcome.issues) := by
  induction os with
  | nil => rfl
  | cons o os ih =>
      unfold lintedResults at ih ⊢
      rw [List.filterMap_cons, List.map_cons, sumOf, FileOutcome.issues, ← ih]
      cases o.linted? with
      | none => simp
      | some r => simp [sumOf]

/-! ### What the statistics say -/

/-- Every file is counted once. -/
theorem length_eq_of_concluded {os : List FileOutcome} (h : ∀ o ∈ os, o.Concluded) :
    os.length = (lintedResults os).length + os.countP (fun o => o.error.isNone && o.skipped)
      + os.countP (fun o => o.error.isNone && !o.skipped && o.excluded)
      + os.countP (·.error.isSome) := by
  induction os with
  | nil => rfl
  | cons o os ih =>
      have rest := ih fun o ho => h o (List.mem_cons_of_mem _ ho)
      cases h o List.mem_cons_self <;>
        simp [lintedResults, FileOutcome.linted?] at rest ⊢ <;> omega

namespace SeverityTally

theorem sumOf_add (s : Severity) (n : Nat) (t : SeverityTally) :
    sumOf ((add s n t).map (·.2)) = sumOf (t.map (·.2)) + n := by
  induction t with
  | nil => simp [add, sumOf]
  | cons e t ih =>
      rw [add]
      split
      · simp only [List.map_cons, sumOf]; omega
      · split
        · simp only [List.map_cons, sumOf]; omega
        · simp only [List.map_cons, sumOf, ih]; omega

/-- A tally counts every finding under some severity. -/
theorem sumOf_addAll (ds : List Diagnostic) (t : SeverityTally) :
    sumOf ((t.addAll ds).map (·.2)) =
      sumOf (t.map (·.2)) + sumOf (ds.map Diagnostic.occurrences) := by
  induction ds generalizing t with
  | nil => rfl
  | cons d ds ih =>
      change sumOf (((t.add d.countedAs d.occurrences).addAll ds).map (·.2)) = _
      rw [ih, sumOf_add, List.map_cons, sumOf, Nat.add_assoc]

end SeverityTally

/-- The findings of results are those of their diagnostics. -/
theorem sumOf_occurrences_flatMap (rs : List FileResult) :
    sumOf ((rs.flatMap (·.diagnostics)).map Diagnostic.occurrences) =
      sumOf (rs.map (·.issueCount)) := by
  induction rs with
  | nil => rfl
  | cons r rs ih => rw [List.flatMap_cons, List.map_append, sumOf_append, ih]; rfl

/-! ### The numbers of reports -/

namespace Report

theorem count_textFile (o : ReportOptions) {f : FileOutcome} (h : f.Concluded) :
    (textFile o f).count = f.issues := by
  cases h with
  | refused path e => rfl
  | foreign path => rfl
  | ignored path file => rfl
  | linted path r =>
      by_cases hr : r.hasIssues
      · simp [textFile, hr, FileOutcome.issues, FileOutcome.linted?]
      · have none : r.diagnostics = [] := by simpa [FileResult.hasIssues] using hr
        simp [textFile, hr, FileOutcome.issues, FileOutcome.linted?, FileResult.issueCount, none, sumOf]

theorem jsonResults_eq (os : List FileOutcome) :
    (os.filter (!·.skipped)).filterMap checkedResult? = lintedResults os := by
  rw [List.filterMap_filter]
  refine List.filterMap_congr fun o _ => ?_
  rw [checkedResult?, FileOutcome.linted?]
  cases o.skipped <;> cases o.error.isSome <;> cases o.excluded <;> rfl

theorem length_reportedFindings (shown : String → String) {os : List FileOutcome}
    (h : ∀ o ∈ os, o.Concluded) :
    (reportedFindings shown os).length = sumOf (os.map FileOutcome.issues) := by
  rw [reportedFindings, List.length_flatMap, sumOf_eq_sum]
  congr 1
  refine List.map_congr_left fun o ho => ?_
  cases h o ho with
  | refused path e => rfl
  | foreign path => rfl
  | ignored path file => rfl
  | linted path r =>
      simp [reported, FileOutcome.issues, FileOutcome.linted?, FileResult.issueCount,
        length_unaggregate]

/-- A run has a result for each finding. -/
theorem size_results_sarifRun (docs : List Documentation) (shown : String → String)
    (r : Option RunResult) : (sarifRun docs shown r).results.size =
      (reportedFindings shown ((r.map (·.files)).getD [])).length := by
  obtain ⟨-, ⟨results, all, each⟩, -⟩ := sound_sarifRun docs shown r
  rw [← Array.length_toList, all, each.length_eq]
  rfl

end Report

theorem countedFindings_eq (workingDir : String) (os : List FileOutcome) :
    countedFindings workingDir os = os.flatMap fun o =>
      (unaggregate o.counted).map fun d => (Path.relativeTo workingDir o.path, d) := by
  refine List.flatMap_congr fun o _ => ?_
  unfold FileOutcome.counted
  cases o.error.isSome <;> cases o.skipped <;> cases o.excluded <;> cases o.result <;> rfl

theorem counted_eq (o : FileOutcome) :
    o.counted = (o.linted?.map (·.diagnostics)).getD [] := by
  unfold FileOutcome.counted FileOutcome.linted?
  split <;> rfl

theorem length_countedFindings (workingDir : String) (os : List FileOutcome) :
    (countedFindings workingDir os).length = sumOf (os.map FileOutcome.issues) := by
  rw [countedFindings_eq, List.length_flatMap, sumOf_eq_sum]
  congr 1
  refine List.map_congr_left fun o _ => ?_
  rw [List.length_map, length_unaggregate, counted_eq, FileOutcome.issues]
  cases o.linted? <;> rfl

theorem stats_ofOutcomes (os : List FileOutcome) :
    (RunResult.ofOutcomes os).stats = Stats.over os { discovered := os.length } :=
  Stats.foldl_addOutcome os _

theorem total_ofOutcomes (os : List FileOutcome) :
    (RunResult.ofOutcomes os).stats.total = sumOf (os.map FileOutcome.issues) := by
  rw [stats_ofOutcomes, ← sumOf_issues]
  exact Nat.zero_add _

/-- **The number of findings** in every report but the overview. -/
theorem Report.write_count {o : ReportOptions} (hf : o.format ≠ .summary) {os : List FileOutcome}
    (h : ∀ f ∈ os, f.Concluded) :
    (Report.write o (some (.ofOutcomes os))).map (·.count) =
      some (RunResult.ofOutcomes os).stats.total := by
  have empty : os = [] → (RunResult.ofOutcomes os).stats.total = 0 := by rintro rfl; rfl
  unfold Report.write
  cases hformat : o.format with
  | text =>
      simp only [Option.map_some, Option.getD_some, Option.some.injEq]
      unfold writeText
      split
      · rename_i none
        exact (empty (List.isEmpty_iff.mp none)).symm
      · rw [total_ofOutcomes]
        refine congrArg sumOf ((List.map_map ..).trans ?_)
        exact List.map_congr_left fun f hf => count_textFile o (h f hf)
  | table =>
      simp only [Option.map_some, Option.getD_some, Option.some.injEq]
      unfold writeTable
      split
      · rename_i none
        exact (empty (List.isEmpty_iff.mp none)).symm
      · split
        · rename_i zero; exact zero.symm
        · rfl
  | json =>
      simp only [Option.map_some, Option.some.injEq]
      rw [jsonIssueCount, total_ofOutcomes, ← sumOf_issues]
      exact congrArg (fun rs => sumOf (rs.map FileResult.issueCount)) (jsonResults_eq os)
  | sarif =>
      simp only [Option.map_some, Option.some.injEq]
      rw [total_ofOutcomes, size_results_sarifRun]
      exact length_reportedFindings _ h
  | summary => exact absurd hformat hf

/-! ### The overview -/

theorem Styles.groupTable_eq_none_iff {s : Styles} {title label : String} {width : Nat}
    {cell? : String → Option String} {groups : List GroupSummary} :
    s.groupTable title label width cell? groups = none ↔ ∃ g ∈ groups, cell? g.name = none := by
  unfold Styles.groupTable
  split
  · rename_i none
    simp [List.isEmpty_iff.mp none]
  · simp only [Option.map_eq_none_iff, mapM_eq_none_iff]

/-- The overview breaks off by a path without a cell. -/
theorem Styles.overview_eq_none_iff {s : Styles} {order : OverviewOrder} {r : AnalysisReport} :
    s.overview order r = none ↔
      r.totals.issues ≠ 0 ∧ ∃ g ∈ r.byFile, Overview.fileCell? g.name = none := by
  unfold Styles.overview
  split
  · rename_i zero
    simp [zero]
  · rename_i some
    have rules : s.groupTable "Rules Summary" "Rule" 36 (fun id => .some (Overview.ruleCell id))
        r.byRule ≠ none := by
      rw [Ne, groupTable_eq_none_iff]
      simp
    obtain ⟨rules, hrules⟩ := Option.ne_none_iff_exists'.mp rules
    have files : s.groupTable "Files Summary" "File" 54 Overview.fileCell? r.byFile = none ↔ _ :=
      groupTable_eq_none_iff
    rw [hrules, ← files]
    cases s.groupTable "Files Summary" "File" 54 Overview.fileCell? r.byFile <;> simp [some]

/-- The names of groups are the keys of what is grouped. -/
theorem exists_mem_groupBy_iff (P : String → Prop) {key other : String × Diagnostic → String}
    {found : List (String × Diagnostic)} :
    (∃ g ∈ groupBy key other found, P g.name) ↔ ∃ p ∈ found, P (key p) := by
  simp only [groupBy, List.mem_map, exists_exists_and_eq_and, mem_sortedIds]

/-- The files with findings that count. -/
theorem exists_mem_countedFindings_iff (P : String → Prop) {workingDir : String}
    {os : List FileOutcome} :
    (∃ p ∈ countedFindings workingDir os, P p.1) ↔
      ∃ o ∈ os, o.counted ≠ [] ∧ P (Path.relativeTo workingDir o.path) := by
  have expands (ds : List Diagnostic) : ds ≠ [] ↔ ∃ d, d ∈ unaggregate ds := by
    cases ds with
    | nil => simp [unaggregate]
    | cons d ds => simp [unaggregate, Diagnostic.expand]
  simp only [countedFindings_eq, List.mem_flatMap, List.mem_map, expands]
  constructor
  · rintro ⟨p, ⟨o, ho, d, hd, rfl⟩, hP⟩
    exact ⟨o, ho, ⟨d, hd⟩, hP⟩
  · rintro ⟨o, ho, ⟨d, hd⟩, hP⟩
    exact ⟨_, ⟨o, ho, d, hd, rfl⟩, hP⟩

/-- **When the overview breaks off**: a file with findings has a path without a cell. -/
theorem Report.write_summary_eq_none_iff {o : ReportOptions} (hf : o.format = .summary)
    (os : List FileOutcome) :
    Report.write o (some (.ofOutcomes os)) = none ↔
      ∃ f ∈ os, f.counted ≠ [] ∧ Overview.fileCell? (shownPath o f.path) = none := by
  have groups (found : List (String × Diagnostic)) :
      (∃ g ∈ (groupBy (·.1) (·.2.ruleId) found).mergeSort (GroupSummary.before o.sort true),
        Overview.fileCell? g.name = none) ↔ ∃ p ∈ found, Overview.fileCell? p.1 = none := by
    simp only [List.mem_mergeSort]
    exact exists_mem_groupBy_iff fun name => Overview.fileCell? name = none
  have breaks : Report.write o (some (.ofOutcomes os)) = none ↔
      (countedFindings o.workingDir os).length ≠ 0 ∧
        ∃ p ∈ countedFindings o.workingDir os, Overview.fileCell? p.1 = none := by
    rw [← groups, Report.write, hf]
    simp only [Option.map_eq_none_iff, Styles.overview_eq_none_iff]
    rfl
  rw [breaks]
  have nonempty : (∃ p ∈ countedFindings o.workingDir os, Overview.fileCell? p.1 = none) →
      (countedFindings o.workingDir os).length ≠ 0 := by
    rintro ⟨p, hp, -⟩ zero
    exact List.ne_nil_of_mem hp (List.length_eq_zero_iff.mp zero)
  rw [and_iff_right_of_imp nonempty]
  exact exists_mem_countedFindings_iff fun name => Overview.fileCell? name = none

theorem Report.count_of_write_summary {o : ReportOptions} (hf : o.format = .summary)
    (os : List FileOutcome) {w : WrittenReport} (hw : Report.write o (some (.ofOutcomes os)) = some w) :
    w.count = (RunResult.ofOutcomes os).stats.total := by
  rw [Report.write, hf] at hw
  obtain ⟨text, -, rfl⟩ := Option.map_eq_some_iff.mp hw
  rw [total_ofOutcomes]
  exact length_countedFindings o.workingDir os

/-! ### Views and documents -/

/-- The findings that count all have one of the four severities. -/
def RunResult.Graded (r : RunResult) : Prop := ∀ o ∈ r.files, ∀ d ∈ o.counted, d.severity.isValid

namespace SeverityCounts

theorem foldl_add (ds : List Diagnostic) (c : SeverityCounts) :
    ds.foldl (fun c d => c.add d.severity) c =
      ⟨c.errors + ds.countP (·.severity = .error),
        c.warnings + ds.countP fun d =>
          !(d.severity = .error) && !(d.severity = .info) && !(d.severity = .hint),
        c.infos + ds.countP (·.severity = .info), c.hints + ds.countP (·.severity = .hint)⟩ := by
  induction ds generalizing c with
  | nil => rfl
  | cons d ds ih =>
      have ei : ¬ Severity.error = .info := by decide
      have eh : ¬ Severity.error = .hint := by decide
      have ih' : ¬ Severity.info = .hint := by decide
      rw [List.foldl_cons, ih, add]
      -- Each of the four ways to count the finding adds to one number.
      split
      · rename_i e
        simp [e, ei, eh]; omega
      · split
        · rename_i e i
          simp [i, Ne.symm ei, ih']; omega
        · split
          · rename_i e i h
            simp [h, Ne.symm eh, Ne.symm ih']; omega
          · rename_i e i h
            simp [e, i, h]; omega

end SeverityCounts

theorem countP_expand (s : Severity) (d : Diagnostic) :
    d.expand.countP (·.severity = s) = if d.severity = s then d.occurrences else 0 := by
  by_cases h : d.severity = s <;>
    simp [Diagnostic.expand, h, Diagnostic.occurrences, Nat.add_comm, List.countP_map, Function.comp_def]

/-- Expanding keeps the number of findings at each severity. -/
theorem countP_unaggregate (s : Severity) (ds : List Diagnostic) :
    (unaggregate ds).countP (·.severity = s) = occurrencesAt s ds := by
  induction ds with
  | nil => rfl
  | cons d ds ih =>
      have cons : d :: ds = [d] ++ ds := rfl
      rw [unaggregate, List.flatMap_cons, List.countP_append, countP_expand]
      change _ + (unaggregate ds).countP _ = _
      rw [ih, cons, occurrencesAt_append]
      by_cases h : d.severity = s <;> simp [occurrencesAt, h, sumOf]

theorem countedAs_of_isValid {d : Diagnostic} (h : d.severity.isValid) :
    d.countedAs = d.severity := by
  have named : ∀ s ∈ Severity.all, s.name.isEmpty = false := by decide
  rw [Diagnostic.countedAs, named _ (List.contains_iff_mem.mp h)]
  rfl

theorem severity_of_mem_expand {d e : Diagnostic} (h : e ∈ d.expand) : e.severity = d.severity := by
  rcases List.mem_cons.mp h with rfl | h
  · rfl
  · obtain ⟨r, -, rfl⟩ := List.mem_map.mp h
    rfl

theorem flatMap_counted (os : List FileOutcome) :
    os.flatMap FileOutcome.counted = (lintedResults os).flatMap (·.diagnostics) := by
  induction os with
  | nil => rfl
  | cons o os ih =>
      rw [List.flatMap_cons, ih, counted_eq, lintedResults, lintedResults, List.filterMap_cons]
      cases o.linted? <;> rfl

/-- The diagnostics that a view counts are those of the statistics, expanded. -/
theorem map_countedFindings (workingDir : String) (os : List FileOutcome) :
    (countedFindings workingDir os).map (·.2) =
      unaggregate ((lintedResults os).flatMap (·.diagnostics)) := by
  rw [countedFindings_eq, List.map_flatMap, ← flatMap_counted, unaggregate, List.flatMap_assoc]
  refine List.flatMap_congr fun o _ => ?_
  rw [List.map_map]
  exact List.map_id _

theorem hasIssues_eq (r : FileResult) : r.hasIssues = decide (0 < r.issueCount) := by
  rw [FileResult.issueCount, Bool.eq_iff_iff, decide_eq_true_eq, sumOf_occurrences_pos_iff,
    FileResult.hasIssues]
  simp

namespace SeverityTally

/-- The same numbers under the lower case names. -/
def lower (t : SeverityTally) : SeverityTally := t.map fun e => (⟨lowerCase e.1.name⟩, e.2)

/-- The four names are told apart and ordered in lower case as they are. -/
theorem lower_names : ∀ k ∈ Severity.all, ∀ s ∈ Severity.all,
    ((⟨lowerCase k.name⟩ : Severity) = ⟨lowerCase s.name⟩ ↔ k = s) ∧
      (lowerCase s.name < lowerCase k.name ↔ s.name < k.name) := by
  decide +kernel

theorem lower_add {t : SeverityTally} (ht : ∀ e ∈ t, e.1 ∈ Severity.all) {s : Severity}
    (hs : s ∈ Severity.all) (n : Nat) :
    add ⟨lowerCase s.name⟩ n t.lower = (add s n t).lower := by
  induction t with
  | nil => rfl
  | cons e t ih =>
      obtain ⟨same, order⟩ := lower_names e.1 (ht e List.mem_cons_self) s hs
      have rest := ih fun e he => ht e (List.mem_cons_of_mem _ he)
      change add _ n ((⟨lowerCase e.1.name⟩, e.2) :: lower t) = _
      rw [add, add]
      simp only [same, order, rest]
      split
      · rfl
      · split <;> rfl

/-- A tally in lower case is the tally of the names in lower case. -/
theorem lower_addAll {ds : List Diagnostic} (hds : ∀ d ∈ ds, d.countedAs ∈ Severity.all)
    {t : SeverityTally} (ht : ∀ e ∈ t, e.1 ∈ Severity.all) :
    ds.foldl (fun (t : SeverityTally) d => t.add ⟨lowerCase d.countedAs.name⟩ d.occurrences) t.lower
      = (t.addAll ds).lower := by
  induction ds generalizing t with
  | nil => rfl
  | cons d ds ih =>
      have hd := hds d List.mem_cons_self
      rw [List.foldl_cons, lower_add ht hd]
      refine ih (fun d hd => hds d (List.mem_cons_of_mem _ hd)) fun e he => ?_
      rcases mem_add he with eq | ⟨e', he', eq⟩
      · exact eq ▸ hd
      · exact eq ▸ ht e' he'

end SeverityTally

section Graded

variable {os : List FileOutcome} (graded : (RunResult.ofOutcomes os).Graded)
include graded

theorem isValid_of_graded {d : Diagnostic}
    (h : d ∈ (lintedResults os).flatMap (·.diagnostics)) : d.severity.isValid := by
  rw [← flatMap_counted] at h
  obtain ⟨o, ho, hd⟩ := List.mem_flatMap.mp h
  exact graded o ho d hd

/-- The tally of a run has the findings at each severity. -/
theorem count_bySeverity (s : Severity) :
    (RunResult.ofOutcomes os).stats.bySeverity.count s =
      occurrencesAt s ((lintedResults os).flatMap (·.diagnostics)) := by
  have sorted : SeverityTally.Sorted [] := List.Pairwise.nil
  rw [stats_ofOutcomes]
  refine (SeverityTally.count_addAll s _ sorted).trans ?_
  have same : ((lintedResults os).flatMap (·.diagnostics)).filter (·.countedAs = s) =
      ((lintedResults os).flatMap (·.diagnostics)).filter (·.severity = s) :=
    List.filter_congr fun d hd => by rw [countedAs_of_isValid (isValid_of_graded graded hd)]
  rw [same]
  exact Nat.zero_add _

/-- The numbers of the views by severity. -/
theorem counts_eq (workingDir : String) :
    SeverityCounts.ofList ((countedFindings workingDir os).map (·.2)) =
      let t := (RunResult.ofOutcomes os).stats.bySeverity
      ⟨t.count .error, t.count .warning, t.count .info, t.count .hint⟩ := by
  have warnings : (unaggregate ((lintedResults os).flatMap (·.diagnostics))).countP (fun d =>
        !(d.severity = .error) && !(d.severity = .info) && !(d.severity = .hint)) =
      (unaggregate ((lintedResults os).flatMap (·.diagnostics))).countP (·.severity = .warning) := by
    refine List.countP_congr fun d hd => ?_
    obtain ⟨e, he, hd⟩ := List.mem_flatMap.mp hd
    have valid := isValid_of_graded graded he
    rw [← severity_of_mem_expand hd] at valid
    have all : ∀ s ∈ Severity.all, (!(decide (s = .error)) && !(decide (s = .info)) &&
      !(decide (s = .hint))) = decide (s = .warning) := by decide
    rw [all _ (List.contains_iff_mem.mp valid)]
  simp only [count_bySeverity graded, ← countP_unaggregate]
  rw [map_countedFindings, SeverityCounts.ofList, SeverityCounts.foldl_add, warnings]
  simp only [Nat.zero_add]

/-- **The sums of the views** are the numbers of the statistics. -/
theorem totals_eq (concluded : ∀ o ∈ os, o.Concluded) (o : AnalysisOptions) :
    (analyze o (some (.ofOutcomes os))).totals =
      let s := (RunResult.ofOutcomes os).stats
      { counts := ⟨s.bySeverity.count .error, s.bySeverity.count .warning,
          s.bySeverity.count .info, s.bySeverity.count .hint⟩
        files := s.parsed
        filesWithIssues := s.withIssues
        issues := s.total
        parseFailures := s.failures
        excluded := s.excluded
        suppressed := s.suppressed } := by
  have checked : (os.filterMap fun f =>
      if f.error.isSome || f.excluded || f.skipped then none else f.result) = lintedResults os :=
    List.filterMap_congr fun f _ => by
      rw [FileOutcome.linted?]
      cases f.error.isSome <;> cases f.skipped <;> cases f.excluded <;> rfl
  have excluded : (os.filter fun f => f.error.isNone && f.excluded).length =
      os.countP fun f => f.error.isNone && !f.skipped && f.excluded := by
    rw [← List.countP_eq_length_filter]
    refine List.countP_congr fun f hf => ?_
    cases concluded f hf <;> rfl
  change totalsOf os (countedFindings o.workingDir os) = _
  rw [totalsOf]
  simp only [counts_eq graded, checked, excluded, length_countedFindings, hasIssues_eq]
  rw [total_ofOutcomes, stats_ofOutcomes]
  simp [Stats.over, List.countP_eq_length_filter]

/-- **The numbers of the document** are those of the statistics. -/
theorem Report.jsonDocument_eq (concluded : ∀ o ∈ os, o.Concluded) (version : String)
    (shown : String → String) :
    let s := (RunResult.ofOutcomes os).stats
    Report.jsonDocument version shown (some (.ofOutcomes os)) =
      .obj [("version", .str version),
        ("files", .arr ((os.filter (!·.skipped)).map (Report.jsonFile shown))),
        ("summary", .obj [("filesChecked", .nat s.parsed), ("filesWithIssues", .nat s.withIssues),
          ("filesErrored", .nat s.failures), ("filesExcluded", .nat s.excluded),
          ("totalIssues", .nat s.total), ("suppressed", .nat s.suppressed),
          ("bySeverity", .obj (s.bySeverity.map fun e => (lowerCase e.1.name, .nat e.2)))])] := by
  intro s
  have tally : tallyByName ((lintedResults os).flatMap (·.diagnostics)) =
      s.bySeverity.map fun e => (lowerCase e.1.name, e.2) := by
    have valid : ∀ d ∈ (lintedResults os).flatMap (·.diagnostics), d.countedAs ∈ Severity.all := by
      intro d hd
      have h := isValid_of_graded graded hd
      exact countedAs_of_isValid h ▸ List.contains_iff_mem.mp h
    have lower := SeverityTally.lower_addAll valid (t := []) (by simp)
    rw [tallyByName]
    refine (congrArg _ lower).trans ?_
    simp only [s, stats_ofOutcomes, Stats.over, SeverityTally.lower, List.map_map]
    rfl
  have errored : ((os.filter (!·.skipped)).filter (·.error.isSome)).length = s.failures := by
    simp only [s, stats_ofOutcomes, Stats.over, List.filter_filter, Nat.zero_add,
      ← List.countP_eq_length_filter]
    refine List.countP_congr fun f hf => ?_
    cases concluded f hf <;> simp
  have excluded : ((os.filter (!·.skipped)).filter fun f => f.error.isNone && f.excluded).length =
      s.excluded := by
    simp only [s, stats_ofOutcomes, Stats.over, List.filter_filter, Nat.zero_add,
      ← List.countP_eq_length_filter]
    refine List.countP_congr fun f hf => ?_
    cases concluded f hf <;> simp
  have total : sumOf ((lintedResults os).map (·.issueCount)) = s.total := by
    rw [total_ofOutcomes, sumOf_issues]
  have numbers : (lintedResults os).length = s.parsed ∧
      ((lintedResults os).filter (0 < ·.issueCount)).length = s.withIssues ∧
      sumOf ((lintedResults os).map (·.suppressed)) = s.suppressed := by
    simp [s, stats_ofOutcomes, Stats.over, List.countP_eq_length_filter]
  have files : (RunResult.ofOutcomes os).files = os := rfl
  obtain ⟨parsed, withIssues, suppressed⟩ := numbers
  simp only [jsonDocument, Option.map_some, Option.getD_some, files, jsonResults_eq, tally, errored,
    excluded, total, parsed, withIssues, suppressed, List.map_map, Function.comp_def]

end Graded

/-! ### Every run -/

/-- **Reports agree with the statistics** of every run of every runner.  Each file is counted once;
the findings are those of the severities together and of the linted files together; every report
that is written gives their number, and the only report that is not written is an overview of a run
where a file with findings has a path that is too wide for its cell but too short to be cut.  When
all findings have one of the four severities, the numbers in the document and the sums of the views
are those of the statistics. -/
theorem reports_agree_with_statistics {r : Runner} (hr : r.Reached) {c : RunContext}
    {cancelled : Bool} {res : RunResult} (hrun : (r.run c cancelled).result = .ok res) :
    let s := res.stats
    s.discovered = s.parsed + s.skipped + s.excluded + s.failures ∧
    s.total = sumOf (s.bySeverity.map (·.2)) ∧
    s.total = sumOf ((lintedResults res.files).map (·.issueCount)) ∧
    (∀ o : ReportOptions,
      (∀ w, Report.write o (some res) = some w → w.count = s.total) ∧
      (Report.write o (some res) = none ↔ o.format = .summary ∧
        ∃ f ∈ res.files, f.counted ≠ [] ∧
          Overview.fileCell? (Report.shownPath o f.path) = none)) ∧
    (res.Graded →
      (∀ version shown, Report.jsonDocument version shown (some res) =
        .obj [("version", .str version),
          ("files", .arr ((res.files.filter (!·.skipped)).map (Report.jsonFile shown))),
          ("summary", .obj [("filesChecked", .nat s.parsed), ("filesWithIssues", .nat s.withIssues),
            ("filesErrored", .nat s.failures), ("filesExcluded", .nat s.excluded),
            ("totalIssues", .nat s.total), ("suppressed", .nat s.suppressed),
            ("bySeverity", .obj (s.bySeverity.map fun e => (lowerCase e.1.name, .nat e.2)))])]) ∧
      ∀ o : AnalysisOptions, (analyze o (some res)).totals =
        { counts := ⟨s.bySeverity.count .error, s.bySeverity.count .warning,
            s.bySeverity.count .info, s.bySeverity.count .hint⟩
          files := s.parsed
          filesWithIssues := s.withIssues
          issues := s.total
          parseFailures := s.failures
          excluded := s.excluded
          suppressed := s.suppressed }) := by
  obtain ⟨os, rfl, concluded⟩ := (hr.tidy.run c cancelled).2 res hrun
  intro s
  have total : s.total = sumOf ((lintedResults os).map (·.issueCount)) := by
    rw [total_ofOutcomes, sumOf_issues]
  refine ⟨?_, ?_, total, fun o => ⟨fun w hw => ?_, ?_⟩, fun graded =>
    ⟨Report.jsonDocument_eq graded concluded, totals_eq graded concluded⟩⟩
  · have once := length_eq_of_concluded concluded
    simp only [s, stats_ofOutcomes, Stats.over, Nat.zero_add]
    exact once
  · rw [total, ← sumOf_occurrences_flatMap]
    simp only [s, stats_ofOutcomes, Stats.over]
    rw [SeverityTally.sumOf_addAll]
    exact (Nat.zero_add _).symm
  · by_cases hf : o.format = .summary
    · exact Report.count_of_write_summary hf os hw
    · have count := Report.write_count hf concluded
      rw [hw] at count
      exact Option.some.inj count
  · by_cases hf : o.format = .summary
    · rw [Report.write_summary_eq_none_iff hf, and_iff_right hf]
      rfl
    · have count := Report.write_count hf concluded
      constructor
      · intro none
        rw [none] at count
        cases count
      · exact fun h => absurd h.1 hf

/-- The run over an empty contract has two warnings, in one diagnostic, and the document says so. -/
theorem reports_agree_with_statistics_overEmptyContract :
    ∃ res, (Runner.run { session := { rules := warningAndError } } overEmptyContract false).result
        = .ok res ∧ res.stats.total = 2 ∧
      ∃ w, Report.write { format := .json } (some res) = some w ∧ w.count = 2 := by
  obtain ⟨report, run, -, -, result⟩ := run_overEmptyContract
  obtain ⟨-, -, -, writes, -⟩ := reports_agree_with_statistics (.start { rules := warningAndError })
    (run ▸ result)
  obtain ⟨count, -⟩ := writes { format := .json }
  rw [run, result]
  exact ⟨_, rfl, by decide +kernel, _, rfl, (count _ rfl).trans (by decide +kernel)⟩

/-! ### A path without a cell -/

/-- A path of thirty-five characters, thirty of which are two columns wide. -/
def widePath : String := "/字字字字字字字字字字字字字字字字字字字字字字字字字字字字字字.sol"

/-- The source file of an empty contract under that path. -/
def wideFile : SourceFile := .ofBytes widePath emptyContract.content emptyContract.root

/-- A run over that file alone. -/
def overWidePath : RunContext where
  workspace := { files := { root := .dir [("字字字字字字字字字字字字字字字字字字字字字字字字字字字字字字.sol", .file { content := wideFile.content })] } }
  options := { paths := [widePath], ignoreFile := "-", skipDetection := true }
  parser := fun path content => .ok (.ofBytes path content wideFile.root)

/-- The characters of its name.  What is said of the path is shown on them: a text with characters
of several bytes is slow to take apart. -/
def wideChars : List Char := List.replicate 30 '字' ++ ".sol".toList

theorem toList_widePath : widePath.toList = '/' :: wideChars := String.toList_ofList

theorem names_wideChars : Path.Names [String.ofList wideChars] := by
  refine List.forall_mem_singleton.mpr ⟨?_, ?_, ?_, ?_⟩
  · rw [ne_eq, ← String.toList_inj, String.toList_ofList]
    decide
  · rw [String.toList_ofList]
    decide
  · rw [ne_eq, ← String.toList_inj, String.toList_ofList]
    decide
  · rw [ne_eq, ← String.toList_inj, String.toList_ofList]
    decide

theorem widePath_eq : widePath = Path.ofComponents true [String.ofList wideChars] := by
  rw [← String.toList_inj, Path.toList_ofComponents, toList_widePath]
  simp

theorem relativeTo_widePath : Path.relativeTo "/" widePath = String.ofList wideChars := by
  have way : Path.relative? "/" widePath = some (String.ofList wideChars) := by
    have root : "/" = Path.ofComponents true [] := rfl
    rw [root, widePath_eq, Path.relative?_ofComponents (by decide) names_wideChars]
    simp [Path.dropCommon]
  have plain : hasFront ".." (String.ofList wideChars) = false := by
    rw [hasFront, String.toList_ofList]
    rfl
  rw [Path.relativeTo, way]
  simp [plain]

/-- The name takes sixty-four columns in thirty-four characters. -/
theorem fileCell?_wideChars : Overview.fileCell? (String.ofList wideChars) = none := by
  have columns : Grapheme.classOf '字' = .other ∧ columnsOf '字' = 2 ∧ widthOf ".sol".toList = 4 ∧
      (".sol".toList).takeWhile Grapheme.attaches = [] := by decide +kernel
  obtain ⟨ordinary, two, four, apart⟩ := columns
  have wide : widthOf wideChars = 64 := by
    rw [wideChars, widthOf_replicate_append ordinary apart, two, four]
  rw [Overview.fileCell?, displayWidth, String.toList_ofList, wide]
  rfl

/-- The run lints the file. -/
theorem run_overWidePath :
    (Runner.run { session := { rules := warningAndError } } overWidePath false).result =
      .ok (.ofOutcomes [
        { path := widePath, result := some (lintFile warningAndError wideFile [wideFile]) }]) := by
  have there : overWidePath.workspace.files.stat widePath =
      .ok (.file { content := wideFile.content }) :=
    FileTree.stat_of_steps [String.ofList wideChars]
      (widePath_eq ▸ Path.steps_ofComponents names_wideChars) names_wideChars rfl nofun
  have whole : Path.absolute "/" widePath = widePath := by
    rw [Path.absolute, widePath_eq, if_pos (Path.isAbsolute_ofComponents _),
      Path.clean_ofComponents names_wideChars]
  have extension : Path.extension widePath = ".sol" := by
    rw [Path.extension, toList_widePath]
    rfl
  have taken : (Filter.ofOptions "/" overWidePath.options).takes widePath = true := by
    rw [Filter.takes, RunOptions.hasExtension, extension]
    rfl
  have found : overWidePath.found false = .ok ([widePath], {}) :=
    RunContext.found_of_file rfl rfl whole there taken rfl
  have read : overWidePath.workspace.files.readSnapshot false widePath =
      .ok (wideFile.content, ⟨widePath, 0, 14, sha256 wideFile.content⟩) := by
    rw [FileTree.readSnapshot, there]
    rfl
  obtain ⟨report, run, -, -, result⟩ := Runner.run_of_parsed found read rfl rfl rfl
  exact (congrArg RunReport.result run).trans result

/-- **An overview that breaks off**: the run has findings and the document is written, but the path
as shown is sixty-four columns wide and has no fifty-one characters to keep. -/
theorem overview_breaks_on_wide_path :
    ∃ res, (Runner.run { session := { rules := warningAndError } } overWidePath false).result = .ok res ∧
      res.stats.total = 2 ∧ Report.write { format := .summary, workingDir := "/" } (some res) = none := by
  refine ⟨_, run_overWidePath, by decide +kernel, ?_⟩
  rw [Report.write_summary_eq_none_iff rfl]
  refine ⟨_, List.mem_singleton_self _, by decide +kernel, ?_⟩
  rw [Report.shownPath, relativeTo_widePath]
  exact fileCell?_wideChars

end SolidityLint
