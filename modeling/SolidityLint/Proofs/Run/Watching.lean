import SolidityLint.Proofs.Run.Unaffected
import SolidityLint.Run.Watch

/-!
# Run — changes that a watch is told of

A watch guesses from the name in an event whether the change can matter to a run.  The guess is right
when a file comes, goes or gets another content and no link leads to it, and when a directory appears.
A run is then scheduled, and stays so until it starts.  What the name of a directory or a link stands
for the guess leaves out: when one goes with all that is behind it, no run is scheduled.

* `due_iff`: when a run is due.
* `WatchLoop.mem_pending_after`: what is pending stays so until the run starts.
* `recognized_change_schedules_run`: changes that the guess takes for what they are.
* `departed_sources_go_unnoticed`: changes that it does not.
-/

namespace SolidityLint

open FileTree (Resolves DeadEnd LinkedTo)

/-! ### Events -/

/-- The event tells what became of an entry. -/
inductive FileEvent.Reports (e : FileEvent) : Option Entry → Option Entry → Prop where
  | created (h : e.create) (old : Option Entry) (new : Entry) : Reports e old (some new)
  | written (h : e.write) (data data' : FileData) :
      Reports e (some (.file data)) (some (.file data'))
  | removed (h : e.remove) (old : Entry) : Reports e (some old) none
  | renamed (h : e.rename) (old : Entry) : Reports e (some old) none

theorem FileEvent.Reports.not_onlyChmod {e : FileEvent} {old new : Option Entry}
    (h : e.Reports old new) : e.onlyChmod = false := by
  cases h <;> simp_all [onlyChmod]

namespace Watch

variable {w : Watch} {t : FileTree} {e : FileEvent}

/-- **When a run is due.** -/
theorem due_iff :
    (w.handle t e).1 ↔ e.create = true ∧ t.isDir e.path = true ∨ w.concerns e = true := by
  rw [handle]
  split
  · next appeared => simpa using .inl (Bool.and_eq_true_iff.mp appeared)
  · next other =>
      simpa using fun created dir => absurd (Bool.and_eq_true_iff.mpr ⟨created, dir⟩) other

theorem concerns_iff {names : List String} {name : String} (h : Path.Names (names ++ [name]))
    (path : e.path = Path.ofComponents true (names ++ [name])) :
    w.concerns e ↔ e.onlyChmod = false ∧
      (w.options.effectiveIgnoreFile = name ∨ w.options.hasExtension name) := by
  rw [concerns, path, Path.base_ofComponents h, w.options.hasExtension_ofComponents h,
    Bool.and_eq_true, Bool.or_eq_true, Bool.not_eq_true', beq_iff_eq]
  exact and_congr_right fun _ => or_congr_left eq_comm

end Watch

namespace WatchLoop

variable {l : WatchLoop} {t : FileTree} {e : FileEvent}

/-- The loop after some events, each taken in with the tree of its time. -/
def after (l : WatchLoop) (events : List (FileTree × FileEvent)) : WatchLoop :=
  events.foldl (fun l event => l.handle event.1 event.2) l

theorem scheduled_of_mem_pending {path : String} (h : path ∈ l.pending) : l.scheduled := by
  cases pending : l.pending with
  | nil =>
      rw [pending] at h
      cases h
  | cons => simp [scheduled, pending]

theorem mem_pending_of_due (due : (l.watch.handle t e).1) : e.path ∈ (l.handle t e).pending := by
  simp only [handle, due, Bool.true_and, Bool.not_eq_true', List.contains_eq_mem]
  split
  · exact List.mem_cons_self
  · next known => simpa using known

/-- **An event** leaves what is pending so. -/
theorem pending_subset_handle (l : WatchLoop) (t : FileTree) (e : FileEvent) :
    l.pending ⊆ (l.handle t e).pending := by
  intro path hp
  rw [handle]
  dsimp only
  split
  · exact List.mem_cons_of_mem _ hp
  · exact hp

/-- **Any events** do. -/
theorem mem_pending_after {path : String} (h : path ∈ l.pending)
    (events : List (FileTree × FileEvent)) : path ∈ (l.after events).pending := by
  induction events generalizing l with
  | nil => exact h
  | cons event events ih => exact ih (pending_subset_handle l event.1 event.2 h)

end WatchLoop

/-! ### Changes -/

/-- A change of what has a name in a watched directory, and the event that tells of it. -/
structure ReportedChange where
  before : FileTree
  /-- The names in the path of the watched directory. -/
  watched : List String
  /-- The names that lead to the directory through no link. -/
  place : List String
  name : String
  /-- What has the name afterwards. -/
  new : Option Entry
  event : FileEvent
  ordered : before.root.Ordered
  newOrdered : ∀ e ∈ new, e.Ordered
  names : Path.Names (watched ++ [name])
  isDir : before.isDir (Path.ofComponents true watched)
  leads : before.resolve (Path.ofComponents true watched) = .ok place
  path : event.path = Path.ofComponents true (watched ++ [name])
  reported : event.Reports (before.root.get? (place ++ [name])) new

namespace ReportedChange

/-- The tree after the change. -/
def after (c : ReportedChange) : FileTree := c.before.setAt (c.place ++ [c.name]) c.new

variable (c : ReportedChange)

theorem isName : Path.IsName c.name := c.names.of_append.2 c.name List.mem_cons_self

theorem resolves : Resolves c.before.root true FileTree.maxLinks [] c.watched c.place := by
  have leads := c.leads
  rw [FileTree.resolve, Path.steps_ofComponents c.names.of_append.1] at leads
  exact FileTree.resolves_of_resolveFrom leads

theorem stands : ∃ children, c.before.root.get? c.place = some (.dir children) := by
  obtain ⟨children, stands⟩ := FileTree.isDir_iff.mp c.isDir
  obtain ⟨place, resolves, there⟩ := FileTree.stat_eq_ok_iff.mp stands
  have leads := FileTree.resolveFrom_of_resolves resolves
  cases c.leads.symm.trans leads
  exact ⟨children, there⟩

/-- What has the name is new, and all else is as before. -/
theorem after_spec : c.after.root.Ordered ∧ c.after.root.get? (c.place ++ [c.name]) = c.new ∧
    Entry.AlikeBut (c.place ++ [c.name]) c.before.root c.after.root := by
  obtain ⟨children, stands⟩ := c.stands
  exact FileTree.setAt_spec c.ordered stands c.isName c.newOrdered

/-- The path of the watched directory leads where it did. -/
def StillLeads : Prop := Resolves c.after.root true FileTree.maxLinks [] c.watched c.place

/-- It does if nothing led on where the change was, as when nothing or a file stood there. -/
theorem stillLeads_of_deadEnd (dead : DeadEnd c.before.root (c.place ++ [c.name])) : c.StillLeads :=
  c.resolves.alike c.after_spec.2.2 dead (by simp)

/-- It does whatever stood there, if it goes through no link. -/
theorem stillLeads_of_place (direct : c.watched = c.place) : c.StillLeads := by
  obtain ⟨children, stands⟩ := c.stands
  have apart : ¬ c.place ++ [c.name] <+: c.place := fun h => by simpa using h.length_le
  obtain ⟨children', there⟩ := (c.after_spec.2.2 c.place apart).dir stands
  have place : Path.Names c.place := direct ▸ c.names.of_append.1
  have real : c.after.HasDir c.place := ⟨place, children', there⟩
  rw [StillLeads, direct]
  exact FileTree.resolves_of_resolveFrom
    (FileTree.resolveFrom_of_real true FileTree.maxLinks place [] real.real)

/-- **A directory that appears** is there when the event is taken in. -/
theorem isDir_after {children : List (String × Entry)} (new : c.new = some (.dir children))
    (still : c.StillLeads) : c.after.isDir c.event.path := by
  obtain ⟨-, there, -⟩ := c.after_spec
  rw [new] at there
  have whole := still.concat c.isName.here c.isName.up ⟨_, there, fun target => nofun⟩
  refine FileTree.isDir_iff.mpr ⟨children, FileTree.stat_eq_ok_iff.mpr ⟨_, ?_, there⟩⟩
  rw [c.path, Path.steps_ofComponents c.names]
  exact whole

/-- A change that can be recognized: something is called as a source file or an ignore file is, or a
directory appears, be it by a link or in the place of something else, or a file comes, goes or gets
another content, to which no link leads and for which the run was not asked by name. -/
inductive Recognizable (o : RunOptions) (dir : String) : Prop where
  | called (name : o.effectiveIgnoreFile = c.name ∨ o.hasExtension c.name)
  | directory {children : List (String × Entry)} (new : c.new = some (.dir children))
      (still : c.StillLeads)
  | linkedDirectory {target : String} (new : c.new = some (.link target))
      (leads : c.after.isDir c.event.path)
  | file (old : DeadEnd c.before.root (c.place ++ [c.name]))
      (new : ∀ e ∈ c.new, ∃ data, e = .file data)
      (unlinked : ¬ LinkedTo c.before.root (c.place ++ [c.name]))
      (unlinked' : ¬ LinkedTo c.after.root (c.place ++ [c.name]))
      (named : ∀ path ∈ o.effectivePaths, Path.base (Path.absolute dir path) ≠ c.name)

theorem create_of_new {e : Entry} (new : c.new = some e) (other : ∀ data, e ≠ .file data) :
    c.event.create := by
  have reported := c.reported
  rw [new] at reported
  generalize c.before.root.get? (c.place ++ [c.name]) = old at reported
  cases reported with
  | created h => exact h
  | written _ _ data => exact absurd rfl (other data)

end ReportedChange

/-- **A change that is recognized schedules a run.**  Let a change that one event reports make a
difference to what a run takes up: to the source files that it finds, to what is in them, or to the
ignore rules.  If it can be recognized, its path is pending once the event has been taken in, and
stays so until the run that is scheduled starts, whatever else happens before. -/
theorem recognized_change_schedules_run (l : WatchLoop) (c : ReportedChange) {current : Option String}
    {dir : String} (known : Workspace.workingDir ⟨c.before, current⟩ l.watch.options = .ok dir)
    (absolute : Path.isAbsolute dir) (recognizable : c.Recognizable l.watch.options dir)
    (matters : Workspace.takenUp ⟨c.before, current⟩ l.watch.options ≠
      Workspace.takenUp ⟨c.after, current⟩ l.watch.options)
    (later : List (FileTree × FileEvent)) :
    c.event.path ∈ ((l.handle c.after c.event).after later).pending ∧
      ((l.handle c.after c.event).after later).scheduled := by
  have concerned (name : l.watch.options.effectiveIgnoreFile = c.name ∨
      l.watch.options.hasExtension c.name) : l.watch.concerns c.event :=
    (Watch.concerns_iff c.names c.path).mpr ⟨c.reported.not_onlyChmod, name⟩
  have due : (l.watch.handle c.after c.event).1 := by
    rw [Watch.due_iff]
    cases recognizable with
    | called name => exact .inr (concerned name)
    | directory new still =>
        exact .inl ⟨c.create_of_new new fun data => nofun, c.isDir_after new still⟩
    | linkedDirectory new leads => exact .inl ⟨c.create_of_new new fun data => nofun, leads⟩
    | file old new unlinked unlinked' named =>
        refine .inr (concerned ?_)
        -- Under another name a run does not look at the file, so the change would not matter.
        by_contra other
        obtain ⟨ignoreFile, source⟩ := not_or.mp other
        obtain ⟨ordered, there, alike⟩ := c.after_spec
        have apart : c.before.OneFileApart c.after c.place c.name :=
          { ordered := c.ordered, ordered' := ordered, alike, dead := old, unlinked, unlinked'
            dead' := fun e he => new e (there ▸ he) }
        exact matters (Workspace.takenUp_unaffected (w := ⟨c.before, current⟩) apart
          (eq_false_of_ne_true source) ignoreFile known absolute named)
  have pending := WatchLoop.mem_pending_after (WatchLoop.mem_pending_of_due due) later
  exact ⟨pending, WatchLoop.scheduled_of_mem_pending pending⟩

/-! ### Sources that come and go -/

section Sources

/-- A package is installed, and the sources are whatever they are. -/
def projectWith (now : Nat) (sources : Option Entry) : FileTree where
  root := .dir (("node_modules", .dir [("A.sol", .file { content := .empty })]) ::
    (sources.map (("src", ·))).toList)
  now := now

/-- Links to directories are followed. -/
def following : RunOptions := { followLinks := true }

/-- The sources in a directory of their own. -/
def sourceDir : Entry := .dir [("A.sol", .file { content := .empty })]

/-- The sources by a link to the package. -/
def sourceLink : Entry := .link "node_modules"

theorem ordered_sourceDir : sourceDir.Ordered :=
  .dir (by decide) (by simp) (List.forall_mem_singleton.mpr (.file _))

theorem ordered_projectWith {now : Nat} {sources : Option Entry}
    (ordered : ∀ e ∈ sources, e.Ordered) : (projectWith now sources).root.Ordered := by
  have before : "node_modules" < "src" := by decide
  cases sources with
  | none => exact .dir (by decide) (by simp) (List.forall_mem_singleton.mpr ordered_sourceDir)
  | some e =>
      refine .dir ?_ (by simpa using before) ?_
      · have names : ∀ n ∈ ["node_modules", "src"], Path.IsName n := by decide
        simpa using names
      · exact List.forall_mem_cons.mpr
          ⟨ordered_sourceDir, List.forall_mem_singleton.mpr (ordered e rfl)⟩

/-- Something becomes of the sources. -/
def sourcesBecome (old new : Option Entry) (ordered : ∀ e ∈ old, e.Ordered)
    (newOrdered : ∀ e ∈ new, e.Ordered) (event : FileEvent) (path : event.path = "/src")
    (reported : event.Reports old new) : ReportedChange where
  before := projectWith 0 old
  watched := []
  place := []
  name := "src"
  new := new
  event := event
  ordered := ordered_projectWith ordered
  newOrdered := newOrdered
  names := List.forall_mem_singleton.mpr (by decide)
  isDir := FileTree.isDir_iff.mpr ⟨_, FileTree.stat_root _⟩
  leads := by cbv
  path := path
  reported := by cases old <;> exact reported

theorem after_sourcesBecome {old new : Option Entry} {ordered : ∀ e ∈ old, e.Ordered}
    {newOrdered : ∀ e ∈ new, e.Ordered} {event : FileEvent} {path : event.path = "/src"}
    {reported : event.Reports old new} :
    (sourcesBecome old new ordered newOrdered event path reported).after = projectWith 1 new := by
  cases old <;> cases new <;> cbv

theorem lstat_projectWith (now : Nat) (sources : Option Entry) :
    (projectWith now sources).lstat "/" = .ok (projectWith now sources).root :=
  FileTree.lstat_of_steps [] rfl (by decide) rfl nofun

theorem lstat_packages (now : Nat) (sources : Option Entry) :
    (projectWith now sources).lstat "/node_modules" = .ok sourceDir :=
  FileTree.lstat_of_steps ["node_modules"] rfl (by decide) rfl nofun

/-- The walk passes over the packages and goes into the sources. -/
theorem skips_following : (Filter.ofOptions "/" following).skips "/node_modules" "node_modules" = true ∧
    (Filter.ofOptions "/" following).skips "/src" "src" = false := ⟨rfl, rfl⟩

theorem discover_projectWith (now : Nat) (sources : Option Entry) :
    let found := Found.below (projectWith now sources) (.ofOptions "/" following) "/" {}
    discover ⟨projectWith now sources, some "/"⟩ following false =
      .ok (sortedOnce (walkAll (projectWith now sources) (.ofOptions "/" following)
        (projectWith now sources).dirCount ["/"] (found.targets.reverse.map fun r => (r, r))
        found.files)) := by
  have full : Path.absolute "/" "." = "/" := rfl
  have real : (projectWith now sources).realPath "/" = .ok "/" := by cbv
  have root : walkRoot (projectWith now sources) "/" "/" = "/" := by cbv
  refine discover_iff.mpr ⟨"/", [filesUnder (projectWith now sources) (.ofOptions "/" following) "/"],
    rfl, .cons ?_ .nil, ?_⟩
  · simp only [discoverPath, full, FileTree.stat_root]
    rfl
  · rw [filesUnder, real, Except.toOption, Option.getD_some, root, walkAll.eq_def]
    simp

/-- Without the sources none are found. -/
theorem discover_without_sources (now : Nat) :
    discover ⟨projectWith now none, some "/"⟩ following false = .ok [] := by
  have below : Found.below (projectWith now none) (.ofOptions "/" following) "/" {} = {} := by cbv
  rw [discover_projectWith, below]
  simp [walkAll.eq_def, sortedOnce, sortByKey, lastOfRun]

theorem takes_source {path : String} (h : path = "/src/A.sol" ∨ path = "/node_modules/A.sol") :
    (Filter.ofOptions "/" following).takes path = true := by
  rcases h with rfl | rfl <;> rfl

theorem discover_sourceDir (now : Nat) :
    discover ⟨projectWith now (some sourceDir), some "/"⟩ following false = .ok ["/src/A.sol"] := by
  have below : Found.below (projectWith now (some sourceDir)) (.ofOptions "/" following) "/" {} =
      { files := ["/src/A.sol"] } := by
    have walk : (projectWith now (some sourceDir)).walk (Filter.ofOptions "/" following).skips "/" =
        [⟨"/", "/", (projectWith now (some sourceDir)).root⟩, ⟨"/src", "src", sourceDir⟩,
          ⟨"/src/A.sol", "A.sol", .file { content := .empty }⟩] := by
      have base : Path.base "/" = "/" := rfl
      rw [FileTree.walk, lstat_projectWith, base]
      simp [projectWith, sourceDir, FileTree.walkEntry, FileTree.walkChildren, Entry.isDir,
        skips_following]
    have hidden : hasFront "." "A.sol" = false := rfl
    rw [Found.below, walk]
    simp [Found.visit, projectWith, sourceDir, takes_source, hidden]
  rw [discover_projectWith, below]
  simp [walkAll.eq_def, sortedOnce_singleton]

theorem discover_sourceLink (now : Nat) :
    discover ⟨projectWith now (some sourceLink), some "/"⟩ following false =
      .ok ["/node_modules/A.sol"] := by
  have place : Path.ofComponents true ["node_modules"] = "/node_modules" := by decide
  have real : (projectWith now (some sourceLink)).HasDir ["node_modules"] :=
    ⟨List.forall_mem_singleton.mpr (by decide), _, rfl⟩
  have dir : (projectWith now (some sourceLink)).isDir "/node_modules" :=
    FileTree.IsRealDir.isDir ⟨_, real, place.symm⟩
  have leads : (projectWith now (some sourceLink)).realPath "/src" = .ok "/node_modules" := by
    have parts : Path.steps "/src" = ["src"] := rfl
    refine FileTree.realPath_eq_ok_iff.mpr ⟨["node_modules"], ?_, place⟩
    rw [parts]
    exact .through (by decide) (by decide) rfl (.inr rfl)
      (.down (by decide) (by decide) real.real .done)
  have below : Found.below (projectWith now (some sourceLink)) (.ofOptions "/" following) "/" {} =
      { targets := ["/node_modules"] } := by
    have walk : (projectWith now (some sourceLink)).walk (Filter.ofOptions "/" following).skips "/" =
        [⟨"/", "/", (projectWith now (some sourceLink)).root⟩, ⟨"/src", "src", sourceLink⟩] := by
      have base : Path.base "/" = "/" := rfl
      rw [FileTree.walk, lstat_projectWith, base]
      simp [projectWith, sourceLink, FileTree.walkEntry, FileTree.walkChildren, Entry.isDir,
        skips_following]
    have link : Found.single (projectWith now (some sourceLink)) (.ofOptions "/" following)
        ⟨"/src", "src", sourceLink⟩ = { targets := ["/node_modules"] } :=
      (Found.single_of_dir leads dir).trans (if_pos ⟨rfl, rfl⟩)
    rw [Found.below, walk, List.foldl_cons, List.foldl_cons, List.foldl_nil, Found.visit_eq, link]
    rfl
  have behind : Found.below (projectWith now (some sourceLink)) (.ofOptions "/" following)
      "/node_modules" {} = { files := ["/node_modules/A.sol"] } := by
    have walk : (projectWith now (some sourceLink)).walk (Filter.ofOptions "/" following).skips
        "/node_modules" = [⟨"/node_modules", "node_modules", sourceDir⟩,
          ⟨"/node_modules/A.sol", "A.sol", .file { content := .empty }⟩] := by
      have base : Path.base "/node_modules" = "node_modules" := rfl
      rw [FileTree.walk, lstat_packages, base]
      simp [sourceDir, FileTree.walkEntry, FileTree.walkChildren, Entry.isDir]
    have hidden : hasFront "." "A.sol" = false := rfl
    rw [Found.below, walk]
    simp [Found.visit, sourceDir, takes_source, hidden]
  have room : (projectWith now (some sourceLink)).dirCount = 1 + 1 := by cbv
  rw [discover_projectWith, below, room]
  simp [walkAll.eq_def, behind, sortedOnce_singleton]

/-- A directory with a source appears. -/
def sourcesAppear : ReportedChange :=
  sourcesBecome none (some sourceDir) nofun (fun _ he => Option.some.inj he ▸ ordered_sourceDir)
    { path := "/src", create := true } rfl (.created rfl _ _)

/-- The directory with the source is moved away. -/
def sourcesMoveAway : ReportedChange :=
  sourcesBecome (some sourceDir) none (fun _ he => Option.some.inj he ▸ ordered_sourceDir) nofun
    { path := "/src", rename := true } rfl (.renamed rfl _)

/-- The link to the package is removed. -/
def sourcesUnlinked : ReportedChange :=
  sourcesBecome (some sourceLink) none (fun _ he => Option.some.inj he ▸ .link _) nofun
    { path := "/src", remove := true } rfl (.removed rfl _)

theorem recognized_change_schedules_run_sourcesAppear :
    let l : WatchLoop := { watch := { options := following, excluding := {} } }
    sourcesAppear.Recognizable l.watch.options "/" ∧
      Workspace.takenUp ⟨sourcesAppear.before, some "/"⟩ l.watch.options ≠
        Workspace.takenUp ⟨sourcesAppear.after, some "/"⟩ l.watch.options ∧
      "/src" ∈ (l.handle sourcesAppear.after sourcesAppear.event).pending := by
  intro l
  have recognizable : sourcesAppear.Recognizable l.watch.options "/" :=
    .directory rfl (sourcesAppear.stillLeads_of_deadEnd nofun)
  have matters : Workspace.takenUp ⟨sourcesAppear.before, some "/"⟩ l.watch.options ≠
      Workspace.takenUp ⟨sourcesAppear.after, some "/"⟩ l.watch.options := by
    intro same
    have sources := (Prod.mk.inj same).1
    have after : sourcesAppear.after = projectWith 1 (some sourceDir) := after_sourcesBecome
    have before : sourcesAppear.before = projectWith 0 none := rfl
    have options : l.watch.options = following := rfl
    rw [after, before, options, Workspace.sources, Workspace.sources, discover_without_sources,
      discover_sourceDir] at sources
    cases sources
  have known : Workspace.workingDir ⟨sourcesAppear.before, some "/"⟩ l.watch.options = .ok "/" := rfl
  obtain ⟨pending, -⟩ :=
    recognized_change_schedules_run l sourcesAppear known (by decide) recognizable matters []
  exact ⟨recognizable, matters, pending⟩

/-- A watch that starts before the change and is told of it schedules no run. -/
def GoesUnnoticed (c : ReportedChange) : Prop :=
  ∃ watch, Watch.start ⟨c.before, some "/"⟩ following = .ok watch ∧ watch.notices c.event.path ∧
    (({ watch } : WatchLoop).handle c.after c.event).scheduled = false

/-- **A directory with sources is moved away, and a link to one removed**: no source is found any
more, and no run is scheduled. -/
theorem departed_sources_go_unnoticed :
    (discover ⟨sourcesMoveAway.before, some "/"⟩ following false = .ok ["/src/A.sol"] ∧
      discover ⟨sourcesMoveAway.after, some "/"⟩ following false = .ok [] ∧
      GoesUnnoticed sourcesMoveAway) ∧
    (discover ⟨sourcesUnlinked.before, some "/"⟩ following false = .ok ["/node_modules/A.sol"] ∧
      discover ⟨sourcesUnlinked.after, some "/"⟩ following false = .ok [] ∧
      GoesUnnoticed sourcesUnlinked) := by
  have gone {c : ReportedChange} (after : c.after = projectWith 1 none) :
      discover ⟨c.after, some "/"⟩ following false = .ok [] := by
    rw [after]
    exact discover_without_sources 1
  have moved : GoesUnnoticed sourcesMoveAway :=
    ⟨⟨following, .ofPatterns "/" [], ["/", "/src"]⟩, by cbv, rfl, rfl⟩
  have unlinked : GoesUnnoticed sourcesUnlinked :=
    ⟨⟨following, .ofPatterns "/" [], ["/"]⟩, by cbv, rfl, rfl⟩
  exact ⟨⟨discover_sourceDir 0, gone after_sourcesBecome, moved⟩,
    ⟨discover_sourceLink 0, gone after_sourcesBecome, unlinked⟩⟩

end Sources

end SolidityLint
