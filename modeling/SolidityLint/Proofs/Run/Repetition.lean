import Mathlib
import SolidityLint.Proofs.Run.Memory

/-!
# Run — runs one after the other

One runner makes runs over a tree that changes in between.  A file is reused when its size, its time
and its digest are those of the last look.  If different contents have different digests
(`NoCollision`) and all runs take contents up alike, what is reused is what a fresh look comes to
(`knownLook_eq_freshLook`), so every run comes to what a new runner would come to
(`repeated_run_as_fresh`).
-/

namespace SolidityLint

/-! ### Files that have not changed -/

namespace FileTree

variable {t : FileTree} {path : String} {content : ByteArray} {info : Snapshot}

theorem readSnapshot_ok (h : t.readSnapshot false path = .ok (content, info)) :
    ∃ data : FileData, t.stat path = .ok (.file data) ∧ data.content = content ∧
      content.size ≤ maxFileSize ∧ info = ⟨path, data.modified, content.size, sha256 content⟩ := by
  simp only [readSnapshot, Bool.false_eq_true, if_false] at h
  split at h
  · cases h
  · cases h
  · rename_i data stat
    split at h
    · cases h
    · rename_i small
      cases h
      exact ⟨data, stat, rfl, Nat.not_lt.mp small, rfl⟩
  · cases h

theorem unchanged (h : t.changed false (some info) = .ok false) :
    ∃ data : FileData, t.stat info.path = .ok (.file data) ∧ data.content.size = info.size ∧
      data.modified = info.modified ∧ sha256 data.content = info.digest := by
  simp only [changed, Bool.false_eq_true, if_false] at h
  split at h
  · cases h
  · cases h
  · rename_i data stat
    simp only [Except.ok.injEq, Bool.or_eq_false_iff, bne_eq_false_iff_eq] at h
    exact ⟨data, stat, h.1.1, h.1.2, h.2⟩
  · cases h

/-- A file that has not changed since it was read in another tree is read again, with the same
digest. -/
theorem readSnapshot_of_unchanged {t' : FileTree}
    (read : t'.readSnapshot false path = .ok (content, info))
    (same : t.changed false (some info) = .ok false) :
    ∃ content', t.readSnapshot false path = .ok (content', info) ∧
      sha256 content' = sha256 content := by
  obtain ⟨before, -, -, small, rfl⟩ := readSnapshot_ok read
  obtain ⟨data, stat, size, modified, digest⟩ := unchanged same
  have fits : ¬ maxFileSize < content.size := Nat.not_lt.mpr small
  refine ⟨data.content, ?_, digest⟩
  simp only [readSnapshot, Bool.false_eq_true, if_false, stat, size, modified, digest, if_neg fits]

end FileTree

/-! ### Recollection without collisions -/

/-- The content is that of a file that the run finds. -/
def RunContext.Reads (c : RunContext) (content : ByteArray) : Prop :=
  ∃ files ignored path info, c.found false = .ok (files, ignored) ∧ path ∈ files ∧
    c.workspace.files.readSnapshot false path = .ok (content, info)

/-- Among the files that the runs find, different contents have different digests. -/
def NoCollision (cs : List RunContext) : Prop :=
  ∀ a b, (∃ c ∈ cs, c.Reads a) → (∃ c ∈ cs, c.Reads b) → sha256 a = sha256 b → a = b

/-- Contents are taken up alike by one parser and with one answer on whether languages are told
apart. -/
theorem takeUp_congr {c c' : RunContext} (parser : c.parser = c'.parser)
    (detection : c.options.skipDetection = c'.options.skipDetection) (path : String)
    (content : ByteArray) : c.takeUp path content = c'.takeUp path content := by
  unfold RunContext.takeUp
  rw [parser, detection]

/-- **What is recalled is what is there.** -/
theorem knownLook_eq_freshLook {c : RunContext} {past : List RunContext} {r : Runner}
    (remembers : Remembers past r)
    (alike : ∀ c' ∈ past, c'.parser = c.parser ∧
      c'.options.skipDetection = c.options.skipDetection)
    (distinct : NoCollision (c :: past)) {files : List String} {ignored : IgnoreRules}
    (found : c.found false = .ok (files, ignored)) {path : String} (listed : path ∈ files) :
    r.knownLook { c with ignored } path = ({ c with ignored } : RunContext).freshLook path := by
  unfold Runner.knownLook
  split
  · rfl
  · rename_i seen
    cases hr : r.reuse? c.workspace.files false path with
    | none => rfl
    | some look =>
        -- The file was read in the past, and its digest is still the same; so is its content.
        obtain ⟨c', hc', files', ignored', content, info, found', listed', read, same, made, -⟩ :=
          (remembers.recalled path).of_reuse? hr
        obtain ⟨content', again, digest⟩ := FileTree.readSnapshot_of_unchanged read same
        have eq : content' = content := distinct content' content
          ⟨c, List.mem_cons_self, files, ignored, path, info, found, listed, again⟩
          ⟨c', List.mem_cons_of_mem c hc', files', ignored', path, info, found', listed', read⟩
          digest
        obtain ⟨parser, detection⟩ := alike c' hc'
        have fresh : c.takeUp path content' = look := by
          rw [eq, ← takeUp_congr parser detection, made]
        exact ((@RunContext.freshLook_of_read { c with ignored } path (eq_false_of_ne_true seen) _ _
          again).trans fresh).symm

/-! ### Runs one after the other -/

namespace Runner

/-- The runner after runs one after the other. -/
def after (r : Runner) (cs : List RunContext) : Runner :=
  cs.foldl (fun r c => (r.run c false).runner) r

/-- **One run** leaves a runner that remembers it, with the same rules. -/
theorem remembers_run {c : RunContext} {past : List RunContext} {r : Runner} (calm : c.Calm)
    (names : KeepsPaths c.parser) (remembers : Remembers past r) :
    Remembers (c :: past) (r.run c false).runner ∧
      (r.run c false).runner.session.rules = r.session.rules := by
  cases found : c.found false with
  | error e =>
      rw [run_of_not_found found]
      exact ⟨remembers.mono fun _ => List.mem_cons_of_mem c, rfl⟩
  | ok found' =>
      obtain ⟨files, ignored⟩ := found'
      obtain ⟨-, -, rules, -, remembers'⟩ := run_of_found calm names remembers found
      exact ⟨remembers', rules⟩

/-- A run leaves its look at a file to later runs, which reuse it as long as the file is
unchanged. -/
theorem reuse?_after_run {c : RunContext} {past : List RunContext} {r : Runner} (calm : c.Calm)
    (names : KeepsPaths c.parser) (remembers : Remembers past r) {files : List String}
    {ignored : IgnoreRules} (found : c.found false = .ok (files, ignored)) {path : String}
    (listed : path ∈ files) (seen : ignored.ignores path = false) {content : ByteArray}
    {info : Snapshot} (read : c.workspace.files.readSnapshot false path = .ok (content, info))
    {t : FileTree} (same : t.changed false (some info) = .ok false) :
    (r.run c false).runner.reuse? t false path = some (r.knownLook { c with ignored } path) := by
  obtain ⟨-, -, -, looked, -⟩ := run_of_found calm names remembers found
  refine reuse?_of_memory ((looked path listed).trans ?_)
    (settled_knownLook (remembers.recalled path) (by simp [seen])) same
  unfold remembered knownLook
  simp only [seen, Bool.false_eq_true, if_false]
  cases hr : r.reuse? c.workspace.files false path with
  | none => simp [RunContext.freshLook, seen, read]
  | some look =>
      -- The file was known already, and has the snapshot of that time.
      obtain ⟨_, _, _, _, _, _, _, _, read', same', _, known⟩ :=
        (remembers.recalled path).of_reuse? hr
      obtain ⟨_, again, -⟩ := FileTree.readSnapshot_of_unchanged read' same'
      cases read.symm.trans again
      exact known

/-- **Any runs** leave a runner that remembers them, with the same rules. -/
theorem remembers_after {cs : List RunContext} (calm : ∀ c ∈ cs, c.Calm)
    (names : ∀ c ∈ cs, KeepsPaths c.parser) :
    ∀ {past : List RunContext} {r : Runner}, Remembers past r →
      Remembers (past ++ cs) (r.after cs) ∧ (r.after cs).session.rules = r.session.rules := by
  induction cs with
  | nil =>
      intro past r remembers
      exact ⟨remembers.mono fun _ h => List.mem_append_left [] h, rfl⟩
  | cons c cs ih =>
      intro past r remembers
      obtain ⟨remembers', rules⟩ :=
        remembers_run (calm c List.mem_cons_self) (names c List.mem_cons_self) remembers
      obtain ⟨final, rules'⟩ := ih (fun c' h => calm c' (List.mem_cons_of_mem c h))
        (fun c' h => names c' (List.mem_cons_of_mem c h)) remembers'
      refine ⟨final.mono fun c' h => ?_, rules'.trans rules⟩
      exact List.perm_middle.symm.mem_iff.mp h

end Runner

/-- A run over a workspace with the given options, not called off. -/
def contextOf (parser : SourceParser) (step : Workspace × RunOptions) : RunContext where
  workspace := step.1
  options := step.2
  parser := parser

/-- The runner that has made the given runs. -/
def runnerAfter (rules : List Rule) (parser : SourceParser) (past : List (Workspace × RunOptions)) :
    Runner :=
  (newRunner rules).after (past.map (contextOf parser))

/-- What the next run of that runner comes to. -/
def reportAfter (rules : List Rule) (parser : SourceParser) (past : List (Workspace × RunOptions))
    (now : Workspace × RunOptions) : RunReport :=
  (runnerAfter rules parser past).run (contextOf parser now) false

/-- **Every run is like the first.**  Let one runner make runs over workspaces and with options that
change in any way, except that languages are told apart in all of them or in none; let the parser
keep paths, and let no digests collide.  Then the next run ends as that of a new runner.  If it ends
well the two sessions hold the same files; a run that fails leaves its runner as it was. -/
theorem repeated_run_as_fresh (rules : List Rule) {parser : SourceParser}
    (names : KeepsPaths parser) (past : List (Workspace × RunOptions))
    (now : Workspace × RunOptions)
    (detection : ∀ step ∈ past, step.2.skipDetection = now.2.skipDetection)
    (distinct : NoCollision ((now :: past).map (contextOf parser))) :
    (reportAfter rules parser past now).result = (reportAfter rules parser [] now).result ∧
    (∀ res, (reportAfter rules parser past now).result = .ok res →
      (reportAfter rules parser past now).runner.session.files =
        (reportAfter rules parser [] now).runner.session.files) ∧
    (∀ e, (reportAfter rules parser past now).result = .error e →
      (reportAfter rules parser past now).runner = runnerAfter rules parser past) := by
  have calm : ∀ step, (contextOf parser step).Calm := fun _ _ => rfl
  obtain ⟨remembers, same⟩ :
      Remembers (past.map (contextOf parser)) (runnerAfter rules parser past) ∧
        (runnerAfter rules parser past).session.rules = rules :=
    Runner.remembers_after (List.forall_mem_map.mpr fun step _ => calm step)
      (List.forall_mem_map.mpr fun _ _ => names) (remembers_newRunner rules)
  have blank : Remembers [] (runnerAfter rules parser []) := remembers_newRunner rules
  unfold reportAfter
  cases found : (contextOf parser now).found false with
  | error e =>
      rw [Runner.run_of_not_found found, Runner.run_of_not_found found]
      refine ⟨rfl, fun res h => ?_, fun _ _ => rfl⟩
      cases h
  | ok found' =>
      obtain ⟨files, ignored⟩ := found'
      obtain ⟨result, held, -⟩ := Runner.run_of_found (calm now) names remembers found
      obtain ⟨result', held', -⟩ := Runner.run_of_found (calm now) names blank found
      -- What the runner recalls of each file is what a new runner sees.
      have looks : files.map ((runnerAfter rules parser past).knownLook
            { contextOf parser now with ignored }) =
          files.map ((runnerAfter rules parser []).knownLook
            { contextOf parser now with ignored }) := by
        refine List.map_congr_left fun path listed => ?_
        have alike : ∀ c ∈ past.map (contextOf parser), c.parser = parser ∧
            c.options.skipDetection = now.2.skipDetection :=
          List.forall_mem_map.mpr fun step h => ⟨rfl, detection step h⟩
        rw [knownLook_eq_freshLook remembers alike distinct found listed,
          Runner.knownLook_of_unknown rfl]
      refine ⟨?_, fun res _ => ?_, fun e h => ?_⟩
      · rw [result, result', looks, same]
        rfl
      · rw [held, held', looks]
      · rw [result] at h
        cases h

/-! ### A file that is edited -/

/-- A run over a workspace with one source file. -/
def overOneFile (content : ByteArray) : Workspace × RunOptions :=
  ({ files := { root := .dir [("t.sol", .file { content })] } },
    { paths := ["/t.sol"], ignoreFile := "-", skipDetection := true })

/-- A parser that gives no trees. -/
def treeless : SourceParser := fun path content => .ok (.ofBytes path content none)

theorem stat_overOneFile (content : ByteArray) :
    (overOneFile content).1.files.stat "/t.sol" = .ok (.file { content }) :=
  FileTree.stat_of_steps ["t.sol"] rfl (by decide) rfl nofun

theorem found_overOneFile (content : ByteArray) :
    (contextOf treeless (overOneFile content)).found false = .ok (["/t.sol"], {}) :=
  RunContext.found_of_file rfl rfl rfl (stat_overOneFile content) rfl rfl

theorem reads_overOneFile {content a : ByteArray}
    (h : (contextOf treeless (overOneFile content)).Reads a) : a = content := by
  obtain ⟨files, ignored, path, info, found, listed, read⟩ := h
  rw [found_overOneFile] at found
  cases found
  obtain rfl := List.mem_singleton.mp listed
  obtain ⟨data, stat', rfl, -, -⟩ := FileTree.readSnapshot_ok read
  have same : Except.ok (Entry.file data) = .ok (.file { content }) := stat'.symm.trans (stat_overOneFile content)
  cases same
  rfl

/-- The file has one content in the first run and another in the second; in the third it is known
from before. -/
def editedOnce : List (Workspace × RunOptions) :=
  [overOneFile "a\n".toUTF8, overOneFile "ab\n".toUTF8]

theorem noCollision_editedOnce :
    NoCollision ((overOneFile "ab\n".toUTF8 :: editedOnce).map (contextOf treeless)) := by
  have contents : ∀ a, (∃ c ∈ (overOneFile "ab\n".toUTF8 :: editedOnce).map (contextOf treeless),
      c.Reads a) → a = "ab\n".toUTF8 ∨ a = "a\n".toUTF8 := by
    rintro a ⟨c, hc, h⟩
    obtain ⟨step, hstep, rfl⟩ := List.mem_map.mp hc
    simp only [editedOnce, List.mem_cons, List.not_mem_nil, or_false] at hstep
    rcases hstep with rfl | rfl | rfl
    · exact Or.inl (reads_overOneFile h)
    · exact Or.inr (reads_overOneFile h)
    · exact Or.inl (reads_overOneFile h)
  have distinct : sha256 "ab\n".toUTF8 ≠ sha256 "a\n".toUTF8 := by decide +kernel
  intro a b ha hb digest
  rcases contents a ha with rfl | rfl
  · rcases contents b hb with rfl | rfl
    · rfl
    · exact absurd digest distinct
  · rcases contents b hb with rfl | rfl
    · exact absurd digest.symm distinct
    · rfl

theorem repeated_run_as_fresh_edited :
    KeepsPaths treeless ∧
    NoCollision ((overOneFile "ab\n".toUTF8 :: editedOnce).map (contextOf treeless)) ∧
    (reportAfter [] treeless editedOnce (overOneFile "ab\n".toUTF8)).result =
      (reportAfter [] treeless [] (overOneFile "ab\n".toUTF8)).result ∧
    (reportAfter [] treeless editedOnce (overOneFile "ab\n".toUTF8)).runner.session.files =
      (reportAfter [] treeless [] (overOneFile "ab\n".toUTF8)).runner.session.files := by
  have names : KeepsPaths treeless := by
    rintro path content f ⟨⟩
    rfl
  have detection : ∀ step ∈ editedOnce,
      step.2.skipDetection = (overOneFile "ab\n".toUTF8).2.skipDetection := by
    simp [editedOnce, overOneFile]
  obtain ⟨result, held, -⟩ := repeated_run_as_fresh [] names editedOnce
    (overOneFile "ab\n".toUTF8) detection noCollision_editedOnce
  obtain ⟨fresh, -⟩ := Runner.run_of_found (fun _ => rfl) names (remembers_newRunner [])
    (found_overOneFile "ab\n".toUTF8)
  exact ⟨names, noCollision_editedOnce, result, held _ (result.trans fresh)⟩

end SolidityLint
