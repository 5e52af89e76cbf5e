import Mathlib
import SolidityLint.Proofs.Lint.SeverityCounts
import SolidityLint.Proofs.Run.Look
import SolidityLint.Proofs.Run.Statistics
import SolidityLint.Rules.BestPractices

/-!
# Run — when a run fails

A run in which all files parse fails by the severities of its findings (`Severity.Fails`): an error
fails it, and in strict mode a warning does.  The statistics see diagnostics, not findings, so what
decides is the severity of the first finding of each rule on each line (`hasFailures_run_iff`).

* `Looks.uncounted`: an outcome that a look at a file leaves without a tree is not counted.
* `exists_counted_iff_linted`: what the statistics of a run count are its linted files.
* `folding_keeps_severities_iff`: how far folding the findings of one line keeps the number of
  findings at each severity and the failure of the run, and that it keeps both when no rule is
  listed with two severities.
-/

namespace SolidityLint

/-- The severity fails a run.  Without a severity a finding counts as a warning. -/
def Severity.Fails (strict : Bool) (s : Severity) : Prop :=
  s = .error ∨ strict = true ∧ (s = .warning ∨ s = .unset)

/-! ### The statistics of a run -/

theorem countedAs_eq_error_iff (d : Diagnostic) : d.countedAs = .error ↔ d.severity = .error := by
  unfold Diagnostic.countedAs
  split
  · rename_i h
    constructor
    · intro h'; exact absurd h' (by decide)
    · intro h'; rw [h'] at h; exact absurd h (by decide)
  · exact Iff.rfl

theorem countedAs_eq_warning_iff (d : Diagnostic) :
    d.countedAs = .warning ↔ d.severity = .warning ∨ d.severity = .unset := by
  unfold Diagnostic.countedAs
  split
  · rename_i h
    have unset : d.severity = .unset := by
      cases hs : d.severity with
      | mk name => rw [hs, String.isEmpty_iff] at h; exact congrArg Severity.mk h
    simp [unset]
  · rename_i h
    constructor
    · exact Or.inl
    · rintro (h' | h')
      · exact h'
      · rw [h'] at h; exact absurd rfl h

/-- **Failure by diagnostics.**  Without files that failed to parse, a run fails by a diagnostic of
a linted file. -/
theorem hasFailures_ofOutcomes_iff {os : List FileOutcome} (strict : Bool)
    (h : (RunResult.ofOutcomes os).stats.failures = 0) :
    (RunResult.ofOutcomes os).hasFailures strict = true ↔
      ∃ o ∈ os, ∃ d ∈ o.counted, d.severity.Fails strict := by
  have error := count_ofOutcomes_pos_iff os .error
  have warning := count_ofOutcomes_pos_iff os .warning
  simp only [countedAs_eq_error_iff] at error
  simp only [countedAs_eq_warning_iff] at warning
  simp only [RunResult.hasFailures, h, Nat.lt_irrefl, decide_false, Bool.false_or, Bool.or_eq_true,
    Bool.and_eq_true, decide_eq_true_eq, error, warning]
  constructor
  · rintro (⟨o, ho, d, hd, hs⟩ | ⟨hstrict, o, ho, d, hd, hs⟩)
    · exact ⟨o, ho, d, hd, Or.inl hs⟩
    · exact ⟨o, ho, d, hd, Or.inr ⟨hstrict, hs⟩⟩
  · rintro ⟨o, ho, d, hd, hs | ⟨hstrict, hs⟩⟩
    · exact Or.inl ⟨o, ho, d, hd, hs⟩
    · exact Or.inr ⟨hstrict, o, ho, d, hd, hs⟩

/-! ### The files of a run -/

/-- The findings in a file of the session that no comment silences. -/
def Session.findingsIn (s : Session) (f : SourceFile) : List Diagnostic :=
  keptFindings s.rules f s.files

/-- The run linted the file: it has an outcome with the result of linting it, and the statistics
count that. -/
def Session.Linted (s : Session) (res : RunResult) (f : SourceFile) : Prop :=
  ∃ o ∈ res.files, o.error = none ∧ o.skipped = false ∧ o.excluded = false ∧
    o.result = some (lintFile s.rules f s.files)

/-- The outcome does not reach the statistics of findings. -/
def FileOutcome.Uncounted (o : FileOutcome) : Prop :=
  o.error.isSome = true ∨ o.skipped = true ∨ o.excluded = true

theorem FileOutcome.counted_eq_nil {o : FileOutcome} (h : o.Uncounted) : o.counted = [] := by
  rw [FileOutcome.counted, if_pos]
  rcases h with h | h | h <;> simp [h]

/-- What is reused without a tree was not parsed when it was read. -/
theorem Runner.uncounted_of_reuse {r : Runner} {t : FileTree} {cancelled : Bool} {path : String}
    {o : FileOutcome} (h : r.reuse? t cancelled path = some (o, none)) : o.Uncounted := by
  unfold Runner.reuse? at h
  split at h
  · cases h
  · split at h
    · split at h
      · rename_i hk
        cases h
        rcases (Bool.or_eq_true _ _).mp hk with hk | hk
        · exact Or.inl hk
        · exact Or.inr (Or.inl hk)
      · obtain ⟨f, -, hf⟩ := Option.map_eq_some_iff.mp h
        cases hf
    · cases h

/-- **One file.**  A look that gives no tree gives an outcome that is not counted. -/
theorem Looks.uncounted {c : RunContext} {s s' : RunState} {path : String} {o : FileOutcome}
    {f : Option SourceFile} (h : Looks c s path o f s') (hf : f = none) : o.Uncounted := by
  cases h with
  | ignored => exact Or.inr (Or.inr rfl)
  | reused _ hr => subst hf; exact Runner.uncounted_of_reuse hr
  | unreadable => exact Or.inl rfl
  | foreign => exact Or.inr (Or.inl rfl)
  | refused => exact Or.inl rfl
  | parsed => cases hf

/-- The outcomes that count are those of the files that the run linted. -/
theorem exists_counted_iff_linted {r : Runner} {c : RunContext} {cancelled : Bool}
    {res : RunResult} (h : (r.run c cancelled).result = .ok res) (P : Diagnostic → Prop) :
    (∃ o ∈ res.files, ∃ d ∈ o.counted, P d) ↔
      ∃ f, (r.run c cancelled).runner.session.Linted res f ∧
        ∃ d ∈ aggregate ((r.run c cancelled).runner.session.findingsIn f), P d := by
  obtain ⟨outcomes, hres, looks⟩ := Runner.run_ok h
  constructor
  · rintro ⟨o, ho, d, hd, hP⟩
    have ho' := ho
    rw [hres] at ho'
    obtain ⟨⟨o₁, tree⟩, hp, rfl⟩ := List.mem_map.mp ho'
    obtain ⟨c', s₁, s₂, path, look⟩ := looks _ hp
    cases tree with
    -- Without a tree the outcome is not linted, and its look left it uncounted.
    | none =>
        have nil := FileOutcome.counted_eq_nil (look.uncounted rfl)
        rw [Runner.lintOutcome, nil] at hd
        exact absurd hd List.not_mem_nil
    | some f =>
        unfold FileOutcome.counted at hd
        split at hd
        · exact absurd hd List.not_mem_nil
        · rename_i hc
          simp only [Bool.not_eq_true, Bool.or_eq_false_iff, Option.isSome_eq_false_iff,
            Option.isNone_iff_eq_none] at hc
          refine ⟨f, ⟨_, ho, hc.1.1, hc.1.2, hc.2, rfl⟩, d, ?_, hP⟩
          rw [Session.findingsIn, ← diagnostics_lintFile]
          exact hd
  · rintro ⟨f, ⟨o, ho, he, hs, hx, hr⟩, d, hd, hP⟩
    refine ⟨o, ho, d, ?_, hP⟩
    rw [Session.findingsIn, ← diagnostics_lintFile] at hd
    rw [FileOutcome.counted, he, hs, hx, hr]
    exact hd

/-- Some finding of a linted file fails the run. -/
def Session.FailsByFinding (s : Session) (res : RunResult) (strict : Bool) : Prop :=
  ∃ f, s.Linted res f ∧ ∃ d ∈ s.findingsIn f, d.severity.Fails strict

/-- Some finding that is the first of its rule on its line fails the run. -/
def Session.FailsByLeader (s : Session) (res : RunResult) (strict : Bool) : Prop :=
  ∃ f, s.Linted res f ∧ ∃ d ∈ s.findingsIn f, (leader (s.findingsIn f) d).severity.Fails strict

/-- **Failure by leaders.**  A run without files that failed to parse fails exactly when the first
finding of some rule on some line has a severity that fails it. -/
theorem hasFailures_run_iff {r : Runner} {c : RunContext} {cancelled : Bool} {res : RunResult}
    (h : (r.run c cancelled).result = .ok res) (hparsed : res.stats.failures = 0) (strict : Bool) :
    res.hasFailures strict = true ↔
      (r.run c cancelled).runner.session.FailsByLeader res strict := by
  have linted := exists_counted_iff_linted h fun d => d.severity.Fails strict
  obtain ⟨outcomes, hres, -⟩ := Runner.run_ok h
  have files : res = .ofOutcomes res.files := by rw [hres]; rfl
  have stats := hasFailures_ofOutcomes_iff strict (files ▸ hparsed)
  rw [← files, linted] at stats
  rw [stats]
  refine exists_congr fun f => and_congr_right fun _ => ?_
  exact exists_mem_aggregate_iff (plain_keptFindings _ _ _) (Severity.Fails strict)

/-! ### Findings and what is reported of them -/

theorem Session.FailsByLeader.byFinding {s : Session} {res : RunResult} {strict : Bool}
    (h : s.FailsByLeader res strict) : s.FailsByFinding res strict := by
  obtain ⟨f, hf, d, hd, hs⟩ := h
  exact ⟨f, hf, leader (s.findingsIn f) d, leader_mem hd, hs⟩

theorem Session.FailsByFinding.byLeader {s : Session} {res : RunResult} {strict : Bool}
    (one : OneSeverity s.rules) (h : s.FailsByFinding res strict) : s.FailsByLeader res strict := by
  obtain ⟨f, hf, d, hd, hs⟩ := h
  exact ⟨f, hf, d, hd, (severity_leader one hd).symm ▸ hs⟩

/-- **How far folding keeps severities.**  In every file, the diagnostics of a severity stand for as
many findings as have a leader of it, and that is the number of findings of the severity exactly
when as many are lost to other severities as are gained from them.  A run in which all files parse
fails exactly when a leader fails it, so it fails exactly when a finding does unless findings that
fail it are all folded into leaders that do not.  Both are kept when no rule has two severities. -/
theorem folding_keeps_severities_iff (rules : List Rule) (file : SourceFile)
    (files : List SourceFile) :
    (∀ s : Severity,
      occurrencesAt s (lintFile rules file files).diagnostics =
        (keptFindings rules file files).countP
          (fun d => (leader (keptFindings rules file files) d).severity = s) ∧
      (occurrencesAt s (lintFile rules file files).diagnostics =
          (keptFindings rules file files).countP (·.severity = s) ↔
        lostAt s (keptFindings rules file files) = gainedAt s (keptFindings rules file files)) ∧
      (OneSeverity rules →
        occurrencesAt s (lintFile rules file files).diagnostics =
          (keptFindings rules file files).countP (·.severity = s))) ∧
    ∀ (r : Runner) (c : RunContext) (cancelled strict : Bool) (res : RunResult),
      (r.run c cancelled).result = .ok res → res.stats.failures = 0 →
      (res.hasFailures strict = true ↔
        (r.run c cancelled).runner.session.FailsByLeader res strict) ∧
      ((res.hasFailures strict = true ↔
          (r.run c cancelled).runner.session.FailsByFinding res strict) ↔
        ((r.run c cancelled).runner.session.FailsByFinding res strict →
          (r.run c cancelled).runner.session.FailsByLeader res strict)) ∧
      (OneSeverity (r.run c cancelled).runner.session.rules →
        (res.hasFailures strict = true ↔
          (r.run c cancelled).runner.session.FailsByFinding res strict)) := by
  have plain := plain_keptFindings rules file files
  refine ⟨fun s => ?_, fun r c cancelled strict res hrun hparsed => ?_⟩
  · rw [diagnostics_lintFile]
    exact ⟨occurrencesAt_aggregate s plain, occurrencesAt_eq_iff s plain,
      fun one => occurrencesAt_eq_of_leader s plain fun d hd => severity_leader one hd⟩
  · have byLeader := hasFailures_run_iff hrun hparsed strict
    refine ⟨byLeader, ⟨fun h b => byLeader.mp (h.mpr b), fun h => ?_⟩, fun one => ?_⟩
    · exact ⟨fun a => (byLeader.mp a).byFinding, fun b => byLeader.mpr (h b)⟩
    · exact ⟨fun a => (byLeader.mp a).byFinding, fun b => byLeader.mpr (b.byLeader one)⟩

/-! ### A rule with two severities -/

/-- A file with an empty contract. -/
def emptyContract : SourceFile :=
  .ofBytes "/t.sol" "contract T \x7b\x7d\n".toUTF8
    (some (.mk ⟨1, "SourceUnit", ⟨0, 14, 0⟩, [], []⟩
      [.mk ⟨2, "ContractDefinition", ⟨0, 13, 0⟩, [], []⟩ []]))

/-- The rule about empty blocks as a warning, and once more as an error. -/
def warningAndError : List Rule :=
  [.warning, .error].map fun severity =>
    (Rules.noEmptyBlockInfo.spec Rules.noEmptyBlock).rule ⟨"no-empty-block", severity, .null⟩

/-- A run over that file alone. -/
def overEmptyContract : RunContext where
  workspace := { files := { root := .dir [("t.sol", .file { content := emptyContract.content })] } }
  options := { paths := ["/t.sol"], ignoreFile := "-", skipDetection := true }
  parser := fun path content => .ok (.ofBytes path content emptyContract.root)

/-- The run lints the file, with the two rules, in a session that holds it alone. -/
theorem run_overEmptyContract :
    ∃ report, Runner.run { session := { rules := warningAndError } } overEmptyContract false =
        report ∧
      report.runner.session.rules = warningAndError ∧
      report.runner.session.files = [emptyContract] ∧
      report.result = .ok (.ofOutcomes [
        { path := "/t.sol",
          result := some (lintFile warningAndError emptyContract [emptyContract]) }]) := by
  have there : overEmptyContract.workspace.files.stat "/t.sol" =
      .ok (.file { content := emptyContract.content }) :=
    FileTree.stat_of_steps ["t.sol"] rfl (by decide) rfl nofun
  have found : overEmptyContract.found false = .ok (["/t.sol"], {}) :=
    RunContext.found_of_file rfl rfl rfl there rfl rfl
  have read : overEmptyContract.workspace.files.readSnapshot false "/t.sol" =
      .ok (emptyContract.content, ⟨"/t.sol", 0, 14, sha256 emptyContract.content⟩) := by
    rw [FileTree.readSnapshot, there]
    rfl
  exact Runner.run_of_parsed found read rfl rfl rfl

/-- **An error that does not fail the run.**  The error is folded into the warning on its line: no
diagnostic is an error, and the run passes although a finding fails it. -/
theorem error_folded_into_warning :
    (keptFindings warningAndError emptyContract [emptyContract]).countP (·.severity = .error) = 1 ∧
    occurrencesAt .error (lintFile warningAndError emptyContract [emptyContract]).diagnostics = 0 ∧
    ∃ report res,
      Runner.run { session := { rules := warningAndError } } overEmptyContract false = report ∧
      report.result = .ok res ∧ res.stats.failures = 0 ∧
      report.runner.session.FailsByFinding res false ∧ res.hasFailures false = false := by
  obtain ⟨report, run, rules, files, result⟩ := run_overEmptyContract
  have error : ∃ d ∈ keptFindings warningAndError emptyContract [emptyContract],
      d.severity = .error := by decide +kernel
  obtain ⟨d, hd, hs⟩ := error
  refine ⟨by decide +kernel, by decide +kernel, report, _, run, result, by decide +kernel,
    ⟨emptyContract, ⟨_, List.mem_singleton_self _, rfl, rfl, rfl, ?_⟩, d, ?_, Or.inl hs⟩,
    by decide +kernel⟩
  · rw [rules, files]
  · rw [Session.findingsIn, rules, files]; exact hd

end SolidityLint
