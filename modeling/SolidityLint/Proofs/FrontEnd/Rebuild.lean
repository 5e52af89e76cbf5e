import SolidityLint.FrontEnd.Foundry
import SolidityLint.Proofs.Ast.Coverage
import SolidityLint.Proofs.Run.Repetition
import SolidityLint.Proofs.Text.Bytes

/-!
# FrontEnd — watching a project that is rebuilt

While a project is watched, runs of one runner alternate with forgetting the artifacts that the
front end has indexed, so that every run asks a front end that reads the build as it is
(`WatchedProject.after_eq`).  The runner, however, asks only for files that have changed: of the
others it has the looks of earlier runs, made with the builds of that time.

`watch_follows_build_iff` says what follows: a run comes to what a new front end and a new runner
come to exactly when no file is `Outdated`.  `rebuild_not_noticed` is a project whose first build
comes after the first run; the second run still has no artifact for its source.
-/

namespace SolidityLint

/-- The front end gives its files the paths that it was asked for. -/
theorem FoundryFrontEnd.keepsPaths (p : FoundryFrontEnd) (t : FileTree) (cancelled : Bool) :
    KeepsPaths (p.parse t cancelled) := by
  intro path content f h
  simp only [parse, bind, Except.bind] at h
  split at h
  · cases h
  · split at h
    · cases h
    · split at h
      · cases h
      · split at h
        · cases h; rfl
        · cases h

/-- A run over a project whose artifacts are not indexed yet. -/
def overBuild (layout : FoundryLayout) (o : RunOptions) (w : Workspace) : RunContext :=
  contextOf (FoundryFrontEnd.parse { layout } w.files false) (w, o)

theorem calm_overBuild (layout : FoundryLayout) (o : RunOptions) (w : Workspace) :
    (overBuild layout o w).Calm :=
  fun _ => rfl

theorem keepsPaths_overBuild (layout : FoundryLayout) (o : RunOptions) (w : Workspace) :
    KeepsPaths (overBuild layout o w).parser :=
  FoundryFrontEnd.keepsPaths { layout } w.files false

/-! ### Iterations -/

/-- A project that is watched: its front end, and the runner over its sources. -/
structure WatchedProject where
  frontEnd : FoundryFrontEnd
  runner : Runner

namespace WatchedProject

/-- A new front end and a new runner. -/
def start (layout : FoundryLayout) (rules : List Rule) : WatchedProject :=
  ⟨{ layout }, newRunner rules⟩

/-- The run of an iteration. -/
def report (s : WatchedProject) (o : RunOptions) (w : Workspace) : RunReport :=
  s.runner.run (contextOf (s.frontEnd.parse w.files false) (w, o)) false

/-- An iteration: a run, in which the artifacts are indexed when the first file is parsed, and
after a run that has a result the artifacts are forgotten. -/
def next (o : RunOptions) (s : WatchedProject) (w : Workspace) : WatchedProject :=
  let report := s.report o w
  let frontEnd := if report.asked.isEmpty then s.frontEnd else s.frontEnd.indexed w.files false
  { runner := report.runner
    frontEnd := match report.result with
      | .ok _ => frontEnd.reload
      | .error _ => frontEnd }

/-- The project after iterations over the given workspaces. -/
def after (layout : FoundryLayout) (rules : List Rule) (o : RunOptions) (past : List Workspace) :
    WatchedProject :=
  past.foldl (next o) (start layout rules)

/-- **One iteration** leaves a front end without artifacts. -/
theorem frontEnd_next {layout : FoundryLayout} {o : RunOptions} {s : WatchedProject}
    {past : List RunContext} (blank : s.frontEnd = { layout })
    (remembers : Remembers past s.runner) (w : Workspace) :
    (s.next o w).frontEnd = { layout } := by
  have run : s.report o w = s.runner.run (overBuild layout o w) false := by
    unfold report
    rw [blank]
    rfl
  unfold next
  rw [run, blank]
  cases found : (overBuild layout o w).found false with
  | error e =>
      -- A run that fails has asked for no file.
      rw [Runner.run_of_not_found found]
      rfl
  | ok found' =>
      obtain ⟨files, ignored⟩ := found'
      obtain ⟨result, -⟩ := Runner.run_of_found (calm_overBuild layout o w)
        (keepsPaths_overBuild layout o w) remembers found
      simp only [result]
      split <;> rfl

/-- **Any iterations** leave a front end without artifacts, and the runner of as many runs over the
builds of their time. -/
theorem after_eq (layout : FoundryLayout) (rules : List Rule) (o : RunOptions)
    (past : List Workspace) :
    after layout rules o past =
      ⟨{ layout }, (newRunner rules).after (past.map (overBuild layout o))⟩ := by
  have iterate : ∀ (ws : List Workspace) (before : List RunContext) (s : WatchedProject),
      s.frontEnd = { layout } → Remembers before s.runner →
      ws.foldl (next o) s = ⟨{ layout }, s.runner.after (ws.map (overBuild layout o))⟩ := by
    intro ws
    induction ws with
    | nil =>
        intro before s blank _
        obtain ⟨frontEnd, runner⟩ := s
        cases blank
        rfl
    | cons w ws ih =>
        intro before s blank remembers
        have runner : (s.next o w).runner = (s.runner.run (overBuild layout o w) false).runner := by
          change (s.runner.run (contextOf (s.frontEnd.parse w.files false) (w, o)) false).runner = _
          rw [blank]
          rfl
        obtain ⟨remembers', -⟩ := Runner.remembers_run (calm_overBuild layout o w)
          (keepsPaths_overBuild layout o w) remembers
        rw [List.foldl_cons, ih (overBuild layout o w :: before) (s.next o w)
          (frontEnd_next blank remembers w) (runner ▸ remembers'), runner]
        rfl
  exact iterate past [] (start layout rules) rfl (remembers_newRunner rules)

/-- After any iterations, a run asks a front end that reads the build as it is. -/
theorem report_after (layout : FoundryLayout) (rules : List Rule) (o : RunOptions)
    (past : List Workspace) (now : Workspace) :
    (after layout rules o past).report o now =
      (after layout rules o past).runner.run (overBuild layout o now) false := by
  rw [after_eq]
  rfl

theorem remembers_after (layout : FoundryLayout) (rules : List Rule) (o : RunOptions)
    (past : List Workspace) :
    Remembers (past.map (overBuild layout o)) (after layout rules o past).runner ∧
      (after layout rules o past).runner.session.rules = rules := by
  rw [after_eq]
  exact Runner.remembers_after
    (List.forall_mem_map.mpr fun w _ => calm_overBuild layout o w)
    (List.forall_mem_map.mpr fun w _ => keepsPaths_overBuild layout o w)
    (remembers_newRunner rules)

/-- A file that the runner knows from a build of the past, while the build of now makes something
else of it. -/
def Outdated (s : WatchedProject) (o : RunOptions) (now : Workspace) (path : String) : Prop :=
  ∃ look content info, s.runner.reuse? now.files false path = some look ∧
    now.files.readSnapshot false path = .ok (content, info) ∧
    look ≠ (overBuild s.frontEnd.layout o now).takeUp path content

/-- What is reused was made by a build of the past, of a file that has not changed. -/
theorem of_reuse? {layout : FoundryLayout} {rules : List Rule} {o : RunOptions}
    {past : List Workspace} {now : Workspace} {path : String}
    {look : FileOutcome × Option SourceFile}
    (h : (after layout rules o past).runner.reuse? now.files false path = some look) :
    ∃ before ∈ past, ∃ content content' info,
      before.files.readSnapshot false path = .ok (content, info) ∧
      now.files.readSnapshot false path = .ok (content', info) ∧
      sha256 content' = sha256 content ∧
      look = (overBuild layout o before).takeUp path content := by
  obtain ⟨remembers, -⟩ := remembers_after layout rules o past
  obtain ⟨c, hc, -, -, content, info, -, -, read, same, made, -⟩ :=
    (remembers.recalled path).of_reuse? h
  obtain ⟨before, hbefore, rfl⟩ := List.mem_map.mp hc
  obtain ⟨content', again, digest⟩ := FileTree.readSnapshot_of_unchanged read same
  exact ⟨before, hbefore, content, content', info, read, again, digest, made.symm⟩

/-- What is recalled of a file is what a fresh look comes to, unless the file is outdated. -/
theorem knownLook_eq_iff {layout : FoundryLayout} {rules : List Rule} {o : RunOptions}
    {past : List Workspace} {now : Workspace} (ignored : IgnoreRules) (path : String) :
    (after layout rules o past).runner.knownLook { overBuild layout o now with ignored } path =
        ({ overBuild layout o now with ignored } : RunContext).freshLook path ↔
      (ignored.ignores path = false → ¬ (after layout rules o past).Outdated o now path) := by
  have layout_eq : (after layout rules o past).frontEnd.layout = layout := by rw [after_eq]
  unfold Runner.knownLook Outdated
  rw [layout_eq]
  cases seen : ignored.ignores path with
  | true => simp
  | false =>
      cases hr : (after layout rules o past).runner.reuse? now.files false path with
      | none => simp [overBuild, contextOf, hr]
      | some look =>
          obtain ⟨before, -, -, content, info, -, read, -, -⟩ := of_reuse? hr
          have fresh : ({ overBuild layout o now with ignored } : RunContext).freshLook path =
              (overBuild layout o now).takeUp path content := by
            unfold RunContext.freshLook
            simp only [seen, Bool.false_eq_true, if_false]
            simp only [overBuild, contextOf, read]
            rfl
          rw [fresh]
          simp [overBuild, contextOf, hr, read]

end WatchedProject

/-- **When a watch follows the build.**  Let a project be watched over workspaces that change in any
way.  A run that finds no files fails as one of a new front end and a new runner.  A run that finds
its files comes to the result of a new front end and a new runner exactly when none of them, unless
it is ignored, is outdated.  What is reused was made by the build of an earlier iteration, of a
content with the digest that the file still has. -/
theorem watch_follows_build_iff (layout : FoundryLayout) (rules : List Rule) (o : RunOptions)
    (past : List Workspace) (now : Workspace) :
    (∀ e, (overBuild layout o now).found false = .error e →
      ((WatchedProject.after layout rules o past).report o now).result = .error e ∧
      ((WatchedProject.start layout rules).report o now).result = .error e) ∧
    (∀ files ignored, (overBuild layout o now).found false = .ok (files, ignored) →
      (((WatchedProject.after layout rules o past).report o now).result =
          ((WatchedProject.start layout rules).report o now).result ↔
        ∀ path ∈ files, ignored.ignores path = false →
          ¬ (WatchedProject.after layout rules o past).Outdated o now path)) ∧
    (∀ path look,
      (WatchedProject.after layout rules o past).runner.reuse? now.files false path = some look →
      ∃ before ∈ past, ∃ content content' info,
        before.files.readSnapshot false path = .ok (content, info) ∧
        now.files.readSnapshot false path = .ok (content', info) ∧
        sha256 content' = sha256 content ∧
        look = (overBuild layout o before).takeUp path content) := by
  have fresh : (WatchedProject.start layout rules).report o now =
      (newRunner rules).run (overBuild layout o now) false := rfl
  rw [WatchedProject.report_after, fresh]
  refine ⟨fun e found => ?_, fun files ignored found => ?_, fun path look h =>
    WatchedProject.of_reuse? h⟩
  · rw [Runner.run_of_not_found found, Runner.run_of_not_found found]
    exact ⟨rfl, rfl⟩
  · obtain ⟨remembers, same⟩ := WatchedProject.remembers_after layout rules o past
    have equal := Runner.result_eq_iff (calm_overBuild layout o now)
      (keepsPaths_overBuild layout o now) remembers found
    rw [same] at equal
    rw [equal]
    exact forall₂_congr fun path _ => WatchedProject.knownLook_eq_iff ignored path

/-! ### A first build -/

/-- The source of a project. -/
def tokenSource : ByteArray := "contract T \x7b\x7d\n".toUTF8

/-- The project before its first build. -/
def unbuilt : Workspace where
  files := { root := .dir [("T.sol", .file { content := tokenSource })] }

/-- The project with one artifact. -/
def built (artifact : ByteArray) : Workspace where
  files := { root := .dir [("T.sol", .file { content := tokenSource }),
    ("out", .dir [("T.json", .file { content := artifact })])] }

def tokenLayout : FoundryLayout := { root := "/" }

/-- The options of runs over the source. -/
def overToken : RunOptions := { paths := ["/T.sol"], ignoreFile := "-", skipDetection := true }

/-- The tree that a build has for the source. -/
def tokenTree : Json :=
  .obj [("absolutePath", .str "T.sol"), ("nodeType", .str "SourceUnit"), ("src", .str "0:14:0")]

def tokenArtifact : String :=
  "\x7b\"ast\":\x7b\"absolutePath\":\"T.sol\",\"nodeType\":\"SourceUnit\",\"src\":\"0:14:0\"\x7d\x7d"

theorem stat_unbuilt : unbuilt.files.stat "/T.sol" = .ok (.file { content := tokenSource }) :=
  FileTree.stat_of_steps ["T.sol"] rfl (by decide) rfl nofun

theorem stat_built (artifact : ByteArray) :
    (built artifact).files.stat "/T.sol" = .ok (.file { content := tokenSource }) :=
  FileTree.stat_of_steps ["T.sol"] rfl (by decide) rfl nofun

theorem takes_overToken : (Filter.ofOptions "/" overToken).takes "/T.sol" = true :=
  rfl

theorem found_unbuilt :
    (overBuild tokenLayout overToken unbuilt).found false = .ok (["/T.sol"], {}) :=
  RunContext.found_of_file rfl rfl rfl stat_unbuilt takes_overToken rfl

theorem found_built (artifact : ByteArray) :
    (overBuild tokenLayout overToken (built artifact)).found false = .ok (["/T.sol"], {}) :=
  RunContext.found_of_file rfl rfl rfl (stat_built artifact) takes_overToken rfl

/-- What is remembered of the source. -/
def tokenSnapshot : Snapshot := ⟨"/T.sol", 0, 14, sha256 tokenSource⟩

theorem read_unbuilt :
    unbuilt.files.readSnapshot false "/T.sol" = .ok (tokenSource, tokenSnapshot) := by
  rw [FileTree.readSnapshot, stat_unbuilt]
  rfl

theorem read_built (artifact : ByteArray) :
    (built artifact).files.readSnapshot false "/T.sol" = .ok (tokenSource, tokenSnapshot) := by
  rw [FileTree.readSnapshot, stat_built]
  rfl

/-- The build does not touch the source. -/
theorem changed_built (artifact : ByteArray) :
    (built artifact).files.changed false (some tokenSnapshot) = .ok false := by
  have size : tokenSource.size = 14 := rfl
  simp [FileTree.changed, tokenSnapshot, stat_built, size]

/-- Without a build there is no artifact. -/
theorem parse_unbuilt (content : ByteArray) :
    FoundryFrontEnd.parse { layout := tokenLayout } unbuilt.files false "/T.sol" content =
      .error (Artifacts.noArtifact "/out") := by
  cbv

/-- What the run before the build has made of the source is reused after the build. -/
theorem reuse?_built (artifact : ByteArray) :
    (WatchedProject.after tokenLayout [] overToken [unbuilt]).runner.reuse? (built artifact).files
        false "/T.sol" =
      some ((overBuild tokenLayout overToken unbuilt).takeUp "/T.sol" tokenSource) := by
  have reused := Runner.reuse?_after_run (calm_overBuild tokenLayout overToken unbuilt)
    (keepsPaths_overBuild tokenLayout overToken unbuilt) (remembers_newRunner []) found_unbuilt
    List.mem_cons_self rfl read_unbuilt (changed_built artifact)
  rw [Runner.knownLook_of_unknown rfl, RunContext.freshLook_of_read rfl read_unbuilt] at reused
  rw [WatchedProject.after_eq]
  exact reused

/-- The index of a build whose only artifact holds the tree of the source. -/
theorem scan_built {artifact : ByteArray}
    (h : Json.parse? (textOfBytes artifact) = some (.obj [("ast", tokenTree)])) :
    Artifacts.scan (built artifact).files tokenLayout false = .ok [("T.sol", tokenTree)] := by
  have out : tokenLayout.outDir = "/out" := rfl
  have there : (built artifact).files.lstat "/out" =
      .ok (.dir [("T.json", .file { content := artifact })]) :=
    FileTree.lstat_of_steps ["out"] rfl (by decide) rfl nofun
  have base : Path.base "/out" = "out" := rfl
  have walk : (built artifact).files.walk (fun _ _ => false) "/out" =
      [⟨"/out", "out", .dir [("T.json", .file { content := artifact })]⟩,
        ⟨"/out/T.json", "T.json", .file { content := artifact }⟩] := by
    simp [FileTree.walk, there, base, FileTree.walkEntry, FileTree.walkChildren]
  have read : (built artifact).files.read "/out/T.json" = .ok artifact :=
    FileTree.read_of_steps ["out", "T.json"] rfl (by decide) ⟨_, rfl, rfl⟩
  have extension : Path.extension "/out/T.json" = ".json" := rfl
  have single : Artifacts.isBuildPath "/out/T.json" = false := rfl
  have key : Artifacts.keyOf tokenLayout.root "T.sol" = "T.sol" := rfl
  have own : Artifacts.tree? (.obj [("ast", tokenTree)]) = some tokenTree := rfl
  have source : Artifacts.sourcePath? tokenTree = some "T.sol" := rfl
  have added : Artifacts.addArtifact tokenLayout.root [] (.obj [("ast", tokenTree)]) =
      [("T.sol", tokenTree)] := by
    simp [Artifacts.addArtifact, own, source, key]
  simp [Artifacts.scan, out, there, walk, Artifacts.readAll, Artifacts.isRead, Entry.isDir, extension,
    read, Artifacts.Found.add, Artifacts.Found.take, h, single, added]

theorem ofJson_tokenTree : ∃ root, Node.ofJson tokenTree = .ok root := by
  obtain ⟨root, decoded, -⟩ := exists_ofJson_of_build tokenTree (fun _ => true)
    rfl rfl rfl
  exact ⟨root, decoded⟩

/-- With a build the source has a tree. -/
theorem takeUp_built {artifact : ByteArray}
    (h : Json.parse? (textOfBytes artifact) = some (.obj [("ast", tokenTree)])) :
    ∃ f, (overBuild tokenLayout overToken (built artifact)).takeUp "/T.sol" tokenSource =
      ({ path := "/T.sol" }, some f) := by
  have key : Artifacts.keyOf tokenLayout.root "/T.sol" = "T.sol" := rfl
  obtain ⟨root, tree⟩ := ofJson_tokenTree
  have parsed : FoundryFrontEnd.parse { layout := tokenLayout } (built artifact).files false
      "/T.sol" tokenSource = .ok (.ofBytes "/T.sol" tokenSource (some root)) := by
    simp [FoundryFrontEnd.parse, FoundryFrontEnd.index, scan_built h, key, tree, bind, Except.bind]
  refine ⟨.ofBytes "/T.sol" tokenSource (some root), ?_⟩
  rw [RunContext.takeUp_source rfl]
  simp only [overBuild, contextOf, parsed]

theorem parse?_tokenArtifact : Json.parse? tokenArtifact = some (.obj [("ast", tokenTree)]) := by
  have text : tokenArtifact = (Json.obj [("ast", tokenTree)]).compact := rfl
  rw [text]
  exact Json.parse?_compact (by simp [tokenTree, Json.numerals_obj, Json.numerals_str])
    (by decide)

/-- The project after its first build. -/
def rebuilt : Workspace := built tokenArtifact.toUTF8

theorem takeUp_rebuilt : ∃ f,
    (overBuild tokenLayout overToken rebuilt).takeUp "/T.sol" tokenSource =
      ({ path := "/T.sol" }, some f) :=
  takeUp_built ((congrArg Json.parse? (textOfBytes_toUTF8 tokenArtifact)).trans
    parse?_tokenArtifact)

theorem takeUp_unbuilt :
    (overBuild tokenLayout overToken unbuilt).takeUp "/T.sol" tokenSource =
      ({ path := "/T.sol"
         error := some (.within "parse /T.sol" (Artifacts.noArtifact "/out")) }, none) := by
  rw [RunContext.takeUp_source rfl]
  simp only [overBuild, contextOf, parse_unbuilt]
  rfl

/-- The run after the build finds the source outdated. -/
theorem watch_follows_build_iff_rebuilt :
    (WatchedProject.after tokenLayout [] overToken [unbuilt]).Outdated overToken rebuilt "/T.sol" ∧
    ((WatchedProject.after tokenLayout [] overToken [unbuilt]).report overToken rebuilt).result ≠
      ((WatchedProject.start tokenLayout []).report overToken rebuilt).result := by
  obtain ⟨f, parsed⟩ := takeUp_rebuilt
  have outdated : (WatchedProject.after tokenLayout [] overToken [unbuilt]).Outdated overToken
      rebuilt "/T.sol" := by
    refine ⟨_, _, _, reuse?_built _, read_built _, ?_⟩
    have layout : (WatchedProject.after tokenLayout [] overToken [unbuilt]).frontEnd.layout =
        tokenLayout := by rw [WatchedProject.after_eq]
    rw [layout, takeUp_unbuilt]
    intro eq
    cases eq.trans parsed
  obtain ⟨-, follows, -⟩ := watch_follows_build_iff tokenLayout [] overToken [unbuilt] rebuilt
  exact ⟨outdated, fun eq => (follows _ _ (found_built _)).mp eq _ List.mem_cons_self rfl outdated⟩

/-- **A build that is not noticed.**  The first run comes before the first build, and the second
after it, with the same source.  The second run still has no artifact for the source, where a new
front end and a new runner parse it. -/
theorem rebuild_not_noticed :
    unbuilt.files.readSnapshot false "/T.sol" = rebuilt.files.readSnapshot false "/T.sol" ∧
    ∃ again fresh : RunResult,
      ((WatchedProject.after tokenLayout [] overToken [unbuilt]).report overToken rebuilt).result =
        .ok again ∧
      ((WatchedProject.start tokenLayout []).report overToken rebuilt).result = .ok fresh ∧
      again.files.map (·.error) =
        [some (.within "parse /T.sol" (Artifacts.noArtifact "/out"))] ∧
      fresh.files.map (·.error) = [none] := by
  obtain ⟨f, parsed⟩ := takeUp_rebuilt
  have calm := calm_overBuild tokenLayout overToken rebuilt
  have names := keepsPaths_overBuild tokenLayout overToken rebuilt
  obtain ⟨remembers, -⟩ := WatchedProject.remembers_after tokenLayout [] overToken [unbuilt]
  obtain ⟨again, -⟩ := Runner.run_of_found calm names remembers (found_built _)
  obtain ⟨fresh, -⟩ := Runner.run_of_found calm names (remembers_newRunner []) (found_built _)
  have recalled : (WatchedProject.after tokenLayout [] overToken [unbuilt]).runner.knownLook
      { overBuild tokenLayout overToken rebuilt with ignored := {} } "/T.sol" =
      (overBuild tokenLayout overToken unbuilt).takeUp "/T.sol" tokenSource := by
    unfold Runner.knownLook
    exact (if_neg Bool.false_ne_true).trans (congrArg (Option.getD · _) (reuse?_built _))
  have looked : (newRunner []).knownLook
      { overBuild tokenLayout overToken rebuilt with ignored := {} } "/T.sol" =
      ({ path := "/T.sol" }, some f) := by
    rw [Runner.knownLook_of_unknown rfl, RunContext.freshLook_of_read rfl (read_built _)]
    exact parsed
  rw [List.map_singleton, recalled, takeUp_unbuilt] at again
  rw [List.map_singleton, looked] at fresh
  rw [WatchedProject.report_after]
  exact ⟨read_unbuilt.trans (read_built _).symm, _, _, again, fresh, rfl, rfl⟩

end SolidityLint
