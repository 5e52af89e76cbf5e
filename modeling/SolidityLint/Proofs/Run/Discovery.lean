import SolidityLint.Proofs.FileTree.Regular
import SolidityLint.Proofs.Json.SortedKeys
import SolidityLint.Run.Discovery

/-!
# Run — which files are found

`Offered` says which files a path of a run stands for before any pattern is asked: the file that it
names, or those below the directory that it names, hidden ones and those in directories that are
never entered left out.  In a tree without links a run finds the offered files that its filter
takes, except those below a directory that the patterns exclude (`discover_eq_ok`).
-/

namespace SolidityLint

open FileTree (Holds Passes)

/-- The path offers a file; the directories are those strictly between the two. -/
inductive Offered (t : FileTree) (full : String) : List String → String → Prop where
  | named {data : FileData} (h : t.stat full = .ok (.file data)) : Offered t full [] full
  | below {children : List (String × Entry)} {dirs : List String} {name : String} {data : FileData}
      (h : t.stat full = .ok (.dir children)) (holds : Holds children dirs name data)
      (seen : hasFront "." name = false) (entered : ∀ d ∈ dirs, isSkippedDir d = false) :
      Offered t full dirs (Path.below full (dirs ++ [name]))

/-- A directory offers the files below it. -/
theorem offered_dir_iff {t : FileTree} {full : String} {children : List (String × Entry)}
    (stands : t.stat full = .ok (.dir children)) {dirs : List String} {p : String} :
    Offered t full dirs p ↔ ∃ name data, Holds children dirs name data ∧
      hasFront "." name = false ∧ (∀ d ∈ dirs, isSkippedDir d = false) ∧
        p = Path.below full (dirs ++ [name]) := by
  constructor
  · intro h
    cases h with
    | named there =>
        rw [stands] at there
        cases there
    | below there holds seen entered =>
        rw [stands] at there
        cases there
        exact ⟨_, _, holds, seen, entered, rfl⟩
  · rintro ⟨name, data, holds, seen, entered, rfl⟩
    exact .below stands holds seen entered

/-- No directory on the way down is excluded. -/
def Unpruned (rules : IgnoreRules) (full : String) (dirs : List String) : Prop :=
  ∀ front, front <+: dirs → front ≠ [] → rules.ignores (Path.below full front) = false

theorem unpruned_cons {rules : IgnoreRules} {full dir : String} {dirs : List String} :
    Unpruned rules full (dir :: dirs) ↔
      rules.ignores (Path.child full dir) = false ∧ Unpruned rules (Path.child full dir) dirs := by
  constructor
  · intro h
    refine ⟨h [dir] (by simp) (by simp), fun front before _ => ?_⟩
    exact h (dir :: front) (List.cons_prefix_cons.mpr ⟨rfl, before⟩) (by simp)
  · rintro ⟨first, others⟩ front before some
    cases front with
    | nil => exact absurd rfl some
    | cons d front =>
        obtain ⟨rfl, inner⟩ := List.cons_prefix_cons.mp before
        by_cases last : front = []
        · subst last
          exact first
        · exact others front inner last

/-- The walk of a run enters a directory unless its name or the patterns forbid it. -/
theorem passes_skips {f : Filter} {full : String} {dirs : List String} :
    Passes f.skips full dirs ↔
      (∀ d ∈ dirs, isSkippedDir d = false) ∧ Unpruned f.excluding full dirs := by
  induction dirs generalizing full with
  | nil => simp [Passes, Unpruned]
  | cons dir dirs ih =>
      rw [Passes, ih, unpruned_cons, List.forall_mem_cons, Filter.skips, Bool.or_eq_false_iff]
      exact and_and_and_comm

/-! ### Below a directory -/

theorem mem_visit_file {t : FileTree} {f : Filter} {found : Found} {path name p : String}
    {data : FileData} :
    p ∈ (Found.visit t f found ⟨path, name, .file data⟩).files ↔
      p ∈ found.files ∨ (p = path ∧ hasFront "." name = false ∧ f.takes p) := by
  cases hidden : hasFront "." name with
  | true => simp [Found.visit, hidden]
  | false =>
      cases taken : f.takes path with
      | true =>
          simp only [Found.visit, hidden, taken, Bool.not_true, Bool.or_self, Bool.false_eq_true,
            if_false, List.mem_cons, true_and]
          constructor
          · rintro (rfl | known)
            · exact .inr ⟨rfl, taken⟩
            · exact .inl known
          · rintro (known | ⟨rfl, -⟩)
            · exact .inr known
            · exact .inl rfl
      | false =>
          simp only [Found.visit, taken, Bool.not_false, Bool.or_true, if_true, true_and]
          constructor
          · exact .inl
          · rintro (known | ⟨rfl, taken'⟩)
            · exact known
            · rw [taken] at taken'
              cases taken'

/-- The files and the targets of a walk that comes to no link. -/
theorem foldl_visit {t : FileTree} {f : Filter} {vs : List FileTree.Visit}
    (regular : ∀ v ∈ vs, v.entry.Regular) (found : Found) :
    (vs.foldl (Found.visit t f) found).targets = found.targets ∧
      ∀ p, p ∈ (vs.foldl (Found.visit t f) found).files ↔ p ∈ found.files ∨
        ∃ name data, ⟨p, name, .file data⟩ ∈ vs ∧ hasFront "." name = false ∧ f.takes p := by
  induction vs generalizing found with
  | nil => simp
  | cons v vs ih =>
      obtain ⟨first, others⟩ := List.forall_mem_cons.mp regular
      obtain ⟨targets, files⟩ := ih others (Found.visit t f found v)
      rw [List.foldl_cons]
      obtain ⟨path, name, entry⟩ := v
      cases first with
      | dir =>
          refine ⟨targets, fun p => (files p).trans ?_⟩
          simp [Found.visit]
      | file data =>
          refine ⟨targets.trans ?_, fun p => (files p).trans ?_⟩
          · simp only [Found.visit]
            split <;> rfl
          · rw [mem_visit_file]
            constructor
            · rintro ((known | ⟨rfl, seen, taken⟩) | ⟨name', data', hv, seen, taken⟩)
              · exact .inl known
              · exact .inr ⟨name, data, List.mem_cons_self, seen, taken⟩
              · exact .inr ⟨name', data', List.mem_cons_of_mem _ hv, seen, taken⟩
            · rintro (known | ⟨name', data', hv, seen, taken⟩)
              · exact .inl (.inl known)
              · rcases List.mem_cons.mp hv with same | hv
                · cases same
                  exact .inl (.inr ⟨rfl, seen, taken⟩)
                · exact .inr ⟨name', data', hv, seen, taken⟩

/-- Where nothing links further, one walk does it. -/
theorem filesUnder_eq {t : FileTree} (regular : t.root.Regular) (f : Filter) {names : List String}
    (h : Path.Names names) {children : List (String × Entry)}
    (there : t.root.get? names = some (.dir children)) :
    filesUnder t f (Path.ofComponents true names) =
      ((FileTree.walkChildren f.skips (Path.ofComponents true names) children).foldl
        (Found.visit t f) {}).files := by
  have inner : (Entry.dir children).Regular := regular.get? there
  have stands := t.lstat_of_get? regular h there
  have walk : t.walk f.skips (Path.ofComponents true names) =
      ⟨Path.ofComponents true names, Path.base (Path.ofComponents true names), .dir children⟩ ::
        FileTree.walkChildren f.skips (Path.ofComponents true names) children := by
    rw [FileTree.walk, stands]
    rfl
  have below : Found.below t f (Path.ofComponents true names) {} =
      (FileTree.walkChildren f.skips (Path.ofComponents true names) children).foldl
        (Found.visit t f) {} := by
    rw [Found.below, walk, List.foldl_cons]
    rfl
  have targets : (Found.below t f (Path.ofComponents true names) {}).targets = [] := by
    rw [below]
    exact (foldl_visit (fun v hv => FileTree.regular_of_mem_walkChildren inner hv) {}).1
  rw [← below]
  simp only [filesUnder, walkRoot, stands]
  rw [walkAll.eq_def]
  simp only [List.contains_nil, Bool.false_eq_true, if_false, targets, List.reverse_nil, List.map_nil,
    List.nil_append]
  rw [walkAll.eq_def]

/-- The files that are found below a directory. -/
theorem mem_filesUnder_iff {t : FileTree} (regular : t.root.Regular) (f : Filter)
    {names : List String} (h : Path.Names names) {children : List (String × Entry)}
    (there : t.root.get? names = some (.dir children)) {p : String} :
    p ∈ filesUnder t f (Path.ofComponents true names) ↔
      ∃ dirs name data, Holds children dirs name data ∧
        p = Path.below (Path.ofComponents true names) (dirs ++ [name]) ∧
        Passes f.skips (Path.ofComponents true names) dirs ∧ hasFront "." name = false ∧ f.takes p := by
  have inner : (Entry.dir children).Regular := regular.get? there
  rw [filesUnder_eq regular f h there]
  refine ((foldl_visit (fun v hv => FileTree.regular_of_mem_walkChildren inner hv) {}).2 p).trans ?_
  constructor
  · rintro (none | ⟨name, data, hv, seen, taken⟩)
    · exact absurd none List.not_mem_nil
    · obtain ⟨dirs, holds, place, passes⟩ := FileTree.mem_walkChildren_file.mp hv
      exact ⟨dirs, name, data, holds, place, passes, seen, taken⟩
  · rintro ⟨dirs, name, data, holds, place, passes, seen, taken⟩
    exact .inr ⟨name, data, FileTree.mem_walkChildren_file.mpr ⟨dirs, holds, place, passes⟩, seen, taken⟩

/-! ### The files of a run -/

/-- The path offers the file, the filter takes it, and no directory between the two is excluded. -/
def Sought (t : FileTree) (f : Filter) (full p : String) : Prop :=
  ∃ dirs, Offered t full dirs p ∧ f.takes p ∧ Unpruned f.excluding full dirs

/-- **What a path stands for.** -/
theorem discoverPath_eq_ok {w : Workspace} (regular : w.files.root.Regular) {dir path : String}
    (absolute : Path.isAbsolute dir) (f : Filter) {e : Entry}
    (there : w.files.stat (Path.absolute dir path) = .ok e) :
    ∃ files, discoverPath w f dir false path = .ok files ∧
      ∀ p, p ∈ files ↔ Sought w.files f (Path.absolute dir path) p := by
  obtain ⟨names, h, full⟩ := Path.exists_names_absolute absolute path
  rw [full] at there ⊢
  have stands := (FileTree.stat_iff regular h).mp there
  cases regular.get? stands with
  | file data =>
      refine ⟨if f.takes (Path.ofComponents true names) then [Path.ofComponents true names] else [],
        by simp [discoverPath, full, there], fun p => ?_⟩
      constructor
      · intro hp
        split at hp
        · next taken =>
            obtain rfl := List.mem_singleton.mp hp
            exact ⟨[], .named there, taken, fun front before some => absurd (by simpa using before) some⟩
        · exact absurd hp List.not_mem_nil
      · rintro ⟨dirs, offered, taken, -⟩
        cases offered with
        | named => simp [taken]
        | below other =>
            rw [there] at other
            cases other
  | dir =>
      rename_i children _ _ _
      refine ⟨filesUnder w.files f (Path.ofComponents true names), by simp [discoverPath, full, there],
        fun p => ?_⟩
      rw [mem_filesUnder_iff regular f h stands]
      constructor
      · rintro ⟨dirs, name, data, holds, rfl, passes, seen, taken⟩
        obtain ⟨entered, unpruned⟩ := passes_skips.mp passes
        exact ⟨dirs, .below there holds seen entered, taken, unpruned⟩
      · rintro ⟨dirs, offered, taken, unpruned⟩
        obtain ⟨name, data, holds, seen, entered, rfl⟩ := (offered_dir_iff there).mp offered
        exact ⟨dirs, name, data, holds, rfl, passes_skips.mpr ⟨entered, unpruned⟩, seen, taken⟩

theorem mem_sortedOnce {p : String} {xs : List String} : p ∈ sortedOnce xs ↔ p ∈ xs := by
  rw [sortedOnce, mem_keys_lastOfRun]
  simp [mem_sortByKey]

theorem pairwise_sortedOnce (xs : List String) : (sortedOnce xs).Pairwise (· < ·) :=
  List.pairwise_map.mpr (lastOfRun_pairwise (sortByKey_pairwise _))

theorem sortedOnce_singleton (p : String) : sortedOnce [p] = [p] := by
  simp [sortedOnce, sortByKey, lastOfRun]

/-- A run over the path of one file finds that file if the filter takes it. -/
theorem discover_of_file {w : Workspace} {o : RunOptions} {dir path full : String} {data : FileData}
    (known : w.workingDir o = .ok dir) (paths : o.effectivePaths = [path])
    (whole : Path.absolute dir path = full) (there : w.files.stat full = .ok (.file data))
    (taken : (Filter.ofOptions dir o).takes full = true) : discover w o false = .ok [full] := by
  have own : discoverPath w (.ofOptions dir o) dir false path = .ok [full] := by
    simp [discoverPath, whole, there, taken]
  simp [discover, known, paths, own, sortedOnce_singleton, bind, Except.bind, pure, Except.pure]

theorem mapM_discoverPath {w : Workspace} (regular : w.files.root.Regular) {dir : String}
    (absolute : Path.isAbsolute dir) (f : Filter) {paths : List String}
    (exist : ∀ path ∈ paths, ∃ e, w.files.stat (Path.absolute dir path) = .ok e) :
    ∃ found, paths.mapM (discoverPath w f dir false) = .ok found ∧
      ∀ p, p ∈ found.flatten ↔ ∃ path ∈ paths, Sought w.files f (Path.absolute dir path) p := by
  induction paths with
  | nil => exact ⟨[], rfl, by simp⟩
  | cons path paths ih =>
      obtain ⟨⟨e, there⟩, others⟩ := List.forall_mem_cons.mp exist
      obtain ⟨files, first, mem⟩ := discoverPath_eq_ok regular absolute f there
      obtain ⟨found, rest, mem'⟩ := ih others
      refine ⟨files :: found, ?_, fun p => ?_⟩
      · simp [List.mapM_cons, first, rest, bind, Except.bind, pure, Except.pure]
      · rw [List.flatten_cons, List.mem_append, mem p, mem' p]
        simp

/-- **What a run finds** in a tree without links: in order and each once, the offered files that the
filter takes and that lie below no excluded directory. -/
theorem discover_eq_ok {w : Workspace} (regular : w.files.root.Regular) {o : RunOptions}
    {dir : String} (known : w.workingDir o = .ok dir) (absolute : Path.isAbsolute dir)
    (exist : ∀ path ∈ o.effectivePaths, ∃ e, w.files.stat (Path.absolute dir path) = .ok e) :
    ∃ files, discover w o false = .ok files ∧ files.Pairwise (· < ·) ∧ ∀ p, p ∈ files ↔
      ∃ path ∈ o.effectivePaths,
        Sought w.files (.ofOptions dir o) (Path.absolute dir path) p := by
  obtain ⟨found, listed, mem⟩ := mapM_discoverPath regular absolute (.ofOptions dir o) exist
  refine ⟨sortedOnce found.flatten, ?_, pairwise_sortedOnce _, fun p => mem_sortedOnce.trans (mem p)⟩
  simp [discover, known, listed, bind, Except.bind]

end SolidityLint
