import SolidityLint.Proofs.Ast.Plan
import SolidityLint.Proofs.FileTree.Change
import SolidityLint.Proofs.Ignore.ReadOrder
import SolidityLint.Proofs.Run.LinkedWalk

/-!
# Run — files that a run does not look at

Of two trees that differ in one file, called neither as a source file nor as an ignore file, a run
makes the same: it finds the same source files, they have the same contents, and the ignore rules are
the same.

* `discover_unaffected`: the source files; `read_unaffected`: their contents.
* `loadIgnoreFiles_unaffected`: the ignore rules.
* `Workspace.takenUp_unaffected`: all that the run takes up.
-/

namespace SolidityLint

open FileTree (Visit OneFileApart)
open Node (bind_eq_ok mapM_eq_ok)

theorem RunOptions.hasExtension_ofComponents (o : RunOptions) {names : List String} {name : String}
    (h : Path.Names (names ++ [name])) :
    o.hasExtension (Path.ofComponents true (names ++ [name])) = o.hasExtension name := by
  rw [hasExtension, hasExtension,
    Path.extension_ofComponents names (h.of_append.2 name List.mem_cons_self).slash]

/-! ### Where walks start -/

/-- A walk can start at the path: a directory stands there, and no link. -/
def FileTree.Starts (t : FileTree) (root : String) : Prop :=
  ∃ names children, Path.Names names ∧ root = Path.ofComponents true names ∧
    t.lstat root = .ok (.dir children)

theorem FileTree.IsRealDir.starts {t : FileTree} {p : String} (h : t.IsRealDir p) : t.Starts p := by
  obtain ⟨children, stands⟩ := h.lstat
  obtain ⟨names, ⟨named, -⟩, rfl⟩ := h
  exact ⟨names, children, named, rfl, stands⟩

theorem starts_walkRoot {t : FileTree} {first : String} (real : t.IsRealDir first) {names : List String}
    (hn : Path.Names names) (dir : t.isDir (Path.ofComponents true names)) :
    t.Starts (walkRoot t (Path.ofComponents true names) first) := by
  obtain ⟨children, stands⟩ := FileTree.isDir_iff.mp dir
  rcases FileTree.lstat_of_stat_dir stands with ⟨target, link⟩ | here
  · rw [walkRoot, link]
    exact real.starts
  · rw [walkRoot, here]
    exact ⟨names, children, hn, rfl, here⟩

theorem Entered.starts {t : FileTree} {f : Filter} {root first real : String}
    (h : Entered t f root first real) (isReal : t.IsRealDir first) (start : t.Starts root) :
    t.Starts (rootOf root first real) := by
  rw [rootOf]
  split
  · exact start
  · exact (h.isRealDir isReal).starts

/-- What a walk comes to has its name at the end of its path. -/
theorem exists_path_of_mem_walk {t : FileTree} (ordered : t.root.Ordered) {root : String}
    (start : t.Starts root) {skip : String → String → Bool} {v : Visit} (leaf : v.entry.isDir = false)
    (hv : v ∈ t.walk skip root) :
    ∃ front, Path.Names (front ++ [v.name]) ∧ v.path = Path.ofComponents true (front ++ [v.name]) := by
  obtain ⟨names, children, hn, rfl, dir⟩ := start
  have inner := FileTree.ordered_of_lstat ordered dir
  rw [FileTree.walk, dir] at hv
  rcases List.mem_cons.mp hv with rfl | hv
  · cases leaf
  · obtain ⟨below, there, path, -⟩ := (FileTree.mem_walkChildren_leaf inner hn leaf).mp hv
    refine ⟨names ++ below, ?_, by rw [path, List.append_assoc]⟩
    rw [List.append_assoc]
    exact hn.append (inner.names there)

/-! ### Source files -/

section SourceFiles

variable {t t' : FileTree} {place : List String} {name : String}
  (h : t.OneFileApart t' place name) {f : Filter} {root first : String}

include h

theorem walkRoot_unaffected (dir real : String) : walkRoot t dir real = walkRoot t' dir real := by
  by_cases link : ∃ target, t.lstat dir = .ok (.link target)
  · obtain ⟨target, link⟩ := link
    rw [walkRoot, walkRoot, link, h.lstat_link link]
  · have plain {t : FileTree} (other : ∀ target, t.lstat dir ≠ .ok (.link target)) :
        walkRoot t dir real = dir := by
      rw [walkRoot]
      split
      · next target link => exact absurd link (other target)
      · rfl
    rw [plain fun target here => link ⟨target, here⟩,
      plain fun target here => link ⟨target, h.symm.lstat_link here⟩]

theorem Entered.unaffected (isReal : t.IsRealDir first) (start : t.Starts root) {real : String}
    (entered : Entered t f root first real) : Entered t' f root first real := by
  induction entered with
  | first => exact .first
  | @linked outer target v entered hv leads ih =>
      obtain ⟨⟨text, link⟩, leads, dir, follows, kept⟩ := Found.mem_targets_single.mp leads
      obtain ⟨names, children, hn, place, stands⟩ := entered.starts isReal start
      rw [place] at hv stands
      have hv' := h.mem_walk hn stands (by rw [link]; rfl) (.inr ⟨text, link⟩) hv
      exact .linked ih (place ▸ hv') (Found.mem_targets_single.mpr
        ⟨⟨text, link⟩, h.realPath_dir leads dir, h.isDir dir, follows, kept⟩)

theorem FoundFrom.unaffected (plain : f.options.hasExtension name = false) (isReal : t.IsRealDir first)
    (start : t.Starts root) {p : String} (found : FoundFrom t f root first p) :
    FoundFrom t' f root first p := by
  obtain ⟨real, entered, v, hv, shown⟩ := found
  obtain ⟨rfl, seen, taken, kind⟩ := Found.mem_files_single.mp shown
  have leaf := Found.leaf_of_mem_files shown
  have starts := entered.starts isReal start
  obtain ⟨front, hf, path⟩ := exists_path_of_mem_walk h.ordered starts leaf hv
  have other : v.name ≠ name := by
    rintro rfl
    rw [Filter.takes, Bool.and_eq_true, Bool.and_eq_true, path, f.options.hasExtension_ofComponents hf,
      plain] at taken
    cases taken.1.1
  have last : (Path.components v.path).getLast? ≠ some name := by
    rw [path, Path.getLast?_components hf]
    exact fun same => other (Option.some.inj same)
  obtain ⟨names, children, hn, place, stands⟩ := starts
  rw [place] at hv stands
  have hv' := h.mem_walk hn stands leaf (.inl other) hv
  refine ⟨real, entered.unaffected h isReal start, v, place ▸ hv', Found.mem_files_single.mpr
    ⟨rfl, seen, taken, kind.imp_right fun ⟨text, real, link, leads, file⟩ =>
      ⟨text, real, link, h.realPath_of_last last leads, fun dir => file (h.symm.isDir dir)⟩⟩⟩

theorem mem_filesUnder_unaffected (plain : f.options.hasExtension name = false) {names : List String}
    (hn : Path.Names names) (dir : t.isDir (Path.ofComponents true names)) {p : String}
    (found : p ∈ filesUnder t f (Path.ofComponents true names)) :
    p ∈ filesUnder t' f (Path.ofComponents true names) := by
  obtain ⟨real, isReal, leads⟩ := FileTree.exists_realDir_of_isDir dir
  have leads' := h.realPath_dir leads isReal.isDir
  have isReal' := FileTree.isRealDir_of_realPath leads' (h.isDir isReal.isDir)
  rw [mem_filesUnder_iff_found isReal leads] at found
  rw [mem_filesUnder_iff_found isReal' leads', ← walkRoot_unaffected h]
  exact found.unaffected h plain isReal (starts_walkRoot isReal hn dir)

end SourceFiles

theorem exists_of_mem_forall₂ {α β : Type} {R : α → β → Prop} {xs : List α} {ys : List β}
    (h : List.Forall₂ R xs ys) {y : β} (hy : y ∈ ys) : ∃ x ∈ xs, R x y := by
  induction h with
  | nil => cases hy
  | @cons x _ _ _ first _ ih =>
      rcases List.mem_cons.mp hy with rfl | hy
      · exact ⟨x, List.mem_cons_self, first⟩
      · obtain ⟨x', hx, other⟩ := ih hy
        exact ⟨x', List.mem_cons_of_mem x hx, other⟩

theorem toOption_eq {ε α : Type} {x y : Except ε α} (h : ∀ a, x = .ok a ↔ y = .ok a) :
    x.toOption = y.toOption := by
  cases x with
  | ok a => rw [(h a).mp rfl]
  | error e =>
      cases y with
      | ok a => cases (h a).mpr rfl
      | error => rfl

section Discovery

variable {w : Workspace} {t' : FileTree} {o : RunOptions} {place : List String} {name : String}

theorem mem_discoverPath_unaffected (h : w.files.OneFileApart t' place name) {f : Filter}
    (plain : f.options.hasExtension name = false) {dir path : String} (absolute : Path.isAbsolute dir)
    {files files' : List String} (found : discoverPath w f dir false path = .ok files)
    (found' : discoverPath { w with files := t' } f dir false path = .ok files') {p : String}
    (hp : p ∈ files) : p ∈ files' := by
  obtain ⟨names, hn, full⟩ := Path.exists_names_absolute absolute path
  simp only [discoverPath, full, Bool.false_eq_true, if_false] at found found'
  cases stands : w.files.stat (Path.ofComponents true names) with
  | error trouble =>
      rw [stands] at found
      cases found
  | ok e =>
      cases stands' : t'.stat (Path.ofComponents true names) with
      | error trouble =>
          rw [stands'] at found'
          cases found'
      | ok e' =>
          rw [stands] at found
          rw [stands'] at found'
          cases e with
          | dir children =>
              obtain ⟨children', dir'⟩ := h.stat_dir stands
              rw [stands'] at dir'
              cases dir'
              cases found
              cases found'
              exact mem_filesUnder_unaffected h plain hn (FileTree.isDir_iff.mpr ⟨_, stands⟩) hp
          | file | link =>
              cases e' with
              | dir children' =>
                  obtain ⟨children, dir⟩ := h.symm.stat_dir stands'
                  rw [stands] at dir
                  cases dir
              | file | link =>
                  cases found
                  cases found'
                  exact hp

theorem discover_iff {w : Workspace} {files : List String} : discover w o false = .ok files ↔
    ∃ dir found, w.workingDir o = .ok dir ∧
      List.Forall₂ (fun path own => discoverPath w (.ofOptions dir o) dir false path = .ok own)
        o.effectivePaths found ∧ sortedOnce found.flatten = files := by
  simp only [discover, bind_eq_ok, mapM_eq_ok, Except.ok.injEq]
  constructor
  · rintro ⟨dir, known, found, each, same⟩
    exact ⟨dir, found, known, each, same⟩
  · rintro ⟨dir, found, known, each, same⟩
    exact ⟨dir, known, found, each, same⟩

theorem discover_subset_unaffected (h : w.files.OneFileApart t' place name)
    (plain : o.hasExtension name = false) {dir : String} (known : w.workingDir o = .ok dir)
    (absolute : Path.isAbsolute dir) {files files' : List String}
    (found : discover w o false = .ok files)
    (found' : discover { w with files := t' } o false = .ok files') :
    files ⊆ files' := by
  obtain ⟨d, each, known', paths, rfl⟩ := discover_iff.mp found
  obtain ⟨d', each', known'', paths', rfl⟩ := discover_iff.mp found'
  cases known.symm.trans known'
  cases known.symm.trans known''
  have path_by_path {args : List String} {each each' : List (List String)}
      (paths : List.Forall₂
        (fun path own => discoverPath w (.ofOptions dir o) dir false path = .ok own) args each)
      (paths' : List.Forall₂ (fun path own =>
        discoverPath { w with files := t' } (.ofOptions dir o) dir false path = .ok own) args each') :
      each.flatten ⊆ each'.flatten := by
    induction paths generalizing each' with
    | nil => exact List.nil_subset _
    | cons first _ ih =>
        cases paths' with
        | cons first' others' =>
            intro p hp
            rw [List.flatten_cons, List.mem_append] at hp ⊢
            exact hp.imp (mem_discoverPath_unaffected h plain absolute first first') (ih others' ·)
  intro p hp
  rw [mem_sortedOnce] at hp ⊢
  exact path_by_path paths paths' hp

/-- **The source files** of a run. -/
theorem discover_unaffected (h : w.files.OneFileApart t' place name)
    (plain : o.hasExtension name = false) {dir : String} (known : w.workingDir o = .ok dir)
    (absolute : Path.isAbsolute dir) {files files' : List String}
    (found : discover w o false = .ok files)
    (found' : discover { w with files := t' } o false = .ok files') :
    files = files' := by
  have sorted {w : Workspace} {files : List String} (found : discover w o false = .ok files) :
      files.Pairwise (· < ·) := by
    obtain ⟨d, each, -, -, rfl⟩ := discover_iff.mp found
    exact pairwise_sortedOnce _
  have forth := discover_subset_unaffected h plain known absolute found found'
  have back := discover_subset_unaffected (w := { w with files := t' }) h.symm plain known absolute
    found' found
  exact (sorted found).eq_of_mem_iff (sorted found') fun p => ⟨(forth ·), (back ·)⟩

/-- What a path of a run stands for has one of the extensions. -/
theorem hasExtension_of_discoverPath (ordered : w.files.root.Ordered) {f : Filter} {dir path : String}
    (absolute : Path.isAbsolute dir) {files : List String}
    (found : discoverPath w f dir false path = .ok files) {p : String} (hp : p ∈ files) :
    f.options.hasExtension p ∧ ∃ names, Path.Names names ∧ p = Path.ofComponents true names := by
  have taken {p : String} (taken : f.takes p) : f.options.hasExtension p := by
    rw [Filter.takes, Bool.and_eq_true, Bool.and_eq_true] at taken
    exact taken.1.1
  obtain ⟨names, hn, full⟩ := Path.exists_names_absolute absolute path
  simp only [discoverPath, full, Bool.false_eq_true, if_false] at found
  split at found
  · cases found
  · next children stands =>
      cases found
      have dir := FileTree.isDir_iff.mpr ⟨_, stands⟩
      obtain ⟨real, isReal, leads⟩ := FileTree.exists_realDir_of_isDir dir
      obtain ⟨outer, entered, v, hv, shown⟩ := (mem_filesUnder_iff_found isReal leads).mp hp
      obtain ⟨rfl, -, takes, -⟩ := Found.mem_files_single.mp shown
      have leaf := Found.leaf_of_mem_files shown
      have starts := entered.starts isReal (starts_walkRoot isReal hn dir)
      obtain ⟨front, hf, place⟩ := exists_path_of_mem_walk ordered starts leaf hv
      exact ⟨taken takes, _, hf, place⟩
  · cases found
    split at hp
    · next takes =>
        obtain rfl := List.mem_singleton.mp hp
        exact ⟨taken takes, names, hn, rfl⟩
    · cases hp

/-- **The contents of the source files** of a run. -/
theorem read_unaffected (h : w.files.OneFileApart t' place name) (plain : o.hasExtension name = false)
    {dir : String} (known : w.workingDir o = .ok dir) (absolute : Path.isAbsolute dir)
    {files : List String} (found : discover w o false = .ok files) {p : String} (hp : p ∈ files) :
    (w.files.read p).toOption = (t'.read p).toOption := by
  obtain ⟨d, each, known', paths, rfl⟩ := discover_iff.mp found
  cases known.symm.trans known'
  obtain ⟨own, hown, hp⟩ := List.mem_flatten.mp (mem_sortedOnce.mp hp)
  obtain ⟨path, -, own_found⟩ := exists_of_mem_forall₂ paths hown
  obtain ⟨extension, names, hn, rfl⟩ := hasExtension_of_discoverPath h.ordered absolute own_found hp
  have last : (Path.components (Path.ofComponents true names)).getLast? ≠ some name := by
    intro last
    rw [Path.components_ofComponents hn] at last
    obtain ⟨front, rfl⟩ := List.getLast?_eq_some_iff.mp last
    rw [Filter.ofOptions, o.hasExtension_ofComponents hn, plain] at extension
    cases extension
  have same (content : ByteArray) : w.files.read (Path.ofComponents true names) = .ok content ↔
      t'.read (Path.ofComponents true names) = .ok content :=
    ⟨h.read_of_last last, h.symm.read_of_last last⟩
  exact toOption_eq same

theorem discoverPath_succeeds_unaffected (h : w.files.OneFileApart t' place name) {f : Filter}
    {dir path : String} (named : Path.base (Path.absolute dir path) ≠ name) {own : List String}
    (found : discoverPath w f dir false path = .ok own) :
    ∃ own', discoverPath { w with files := t' } f dir false path = .ok own' := by
  have last : (Path.components (Path.absolute dir path)).getLast? ≠ some name := fun last =>
    named (by rw [Path.base, last])
  simp only [discoverPath, Bool.false_eq_true, if_false] at found ⊢
  cases stands : w.files.stat (Path.absolute dir path) with
  | error trouble =>
      rw [stands] at found
      cases found
  | ok e =>
      obtain ⟨e', stands'⟩ := h.stat_of_last last stands
      rw [stands']
      cases e' <;> exact ⟨_, rfl⟩

/-- A run whose paths are not called as the file is still finds where they lead. -/
theorem discover_succeeds_unaffected (h : w.files.OneFileApart t' place name) {dir : String}
    (known : w.workingDir o = .ok dir)
    (named : ∀ path ∈ o.effectivePaths, Path.base (Path.absolute dir path) ≠ name) {files : List String}
    (found : discover w o false = .ok files) :
    ∃ files', discover { w with files := t' } o false = .ok files' := by
  obtain ⟨d, each, known', paths, rfl⟩ := discover_iff.mp found
  cases known.symm.trans known'
  have path_by_path {args : List String} {each : List (List String)}
      (named : ∀ path ∈ args, Path.base (Path.absolute dir path) ≠ name)
      (paths : List.Forall₂
        (fun path own => discoverPath w (.ofOptions dir o) dir false path = .ok own) args each) :
      ∃ each', List.Forall₂ (fun path own =>
        discoverPath { w with files := t' } (.ofOptions dir o) dir false path = .ok own)
          args each' := by
    induction paths with
    | nil => exact ⟨[], .nil⟩
    | cons first _ ih =>
        obtain ⟨own', first'⟩ := discoverPath_succeeds_unaffected h (named _ List.mem_cons_self) first
        obtain ⟨each', paths'⟩ := ih fun path hp => named path (List.mem_cons_of_mem _ hp)
        exact ⟨own' :: each', .cons first' paths'⟩
  obtain ⟨each', paths'⟩ := path_by_path named paths
  exact ⟨_, discover_iff.mpr ⟨dir, each', known, paths', rfl⟩⟩

end Discovery

/-! ### Ignore rules -/

namespace IgnoreSearch

variable {place : List String} {name : String}

theorem readFrom_unaffected (s s' : IgnoreSearch) (h : s.files.OneFileApart s'.files place name)
    (names : s.name = s'.name) (other : s.name ≠ name) {root dir : List String}
    (hn : Path.Names root) (read : s.ReadFrom root dir) :
    s'.ReadFrom root dir ∧ s.rulesIn dir = s'.rulesIn dir := by
  cases read with
  | @intro children below e content top passes there leaf readable =>
      obtain ⟨real, children', -, stands, stands', top'⟩ := h.lstat_dir top
      have inner := h.ordered.get? stands
      have whole : Path.Names (root ++ below ++ [s.name]) := by
        simpa using hn.append (inner.names there)
      have last : (Path.components (s.fileOf (root ++ below))).getLast? ≠ some name := by
        rw [fileOf, Path.getLast?_components whole]
        exact fun same => other (Option.some.inj same)
      have there' := h.get?_below stands stands' there leaf (.inl other)
      have readable' : s'.files.read (s'.fileOf (root ++ below)) = .ok content := by
        rw [fileOf, ← names]
        exact h.read_of_last last readable
      refine ⟨.intro top' passes (names ▸ there') leaf readable', ?_⟩
      rw [rulesIn, rulesIn, readable, readable']

end IgnoreSearch

section Rules

variable {w : Workspace} {t' : FileTree} {o : RunOptions} {place : List String} {name : String}

/-- **The ignore rules** of a run. -/
theorem loadIgnoreFiles_unaffected (h : w.files.OneFileApart t' place name)
    (plain : o.effectiveIgnoreFile ≠ name) {dir : String} (known : w.workingDir o = .ok dir)
    (absolute : Path.isAbsolute dir) :
    loadIgnoreFiles w o false = loadIgnoreFiles { w with files := t' } o false := by
  by_cases named : o.effectiveIgnoreFile = "-"
  · simp [loadIgnoreFiles, named]
  let before := IgnoreSearch.ofRun w o dir
  let after := IgnoreSearch.ofRun { w with files := t' } o dir
  have sound : before.Sound := IgnoreSearch.sound_ofRun h.ordered absolute
  have sound' : after.Sound := IgnoreSearch.sound_ofRun h.ordered' absolute
  have forth {root d : List String} (hn : Path.Names root) (read : before.ReadFrom root d) :
      after.ReadFrom root d ∧ before.rulesIn d = after.rulesIn d :=
    IgnoreSearch.readFrom_unaffected before after h rfl plain hn read
  have back {root d : List String} (hn : Path.Names root) (read : after.ReadFrom root d) :
      before.ReadFrom root d ∧ after.rulesIn d = before.rulesIn d :=
    IgnoreSearch.readFrom_unaffected after before h.symm rfl plain hn read
  have roots : before.roots = after.roots :=
    congrArg (List.map _) (List.filter_congr fun p _ => Bool.eq_iff_iff.mpr h.isDir_iff_isDir)
  have dirsRead {root : List String} (hr : root ∈ before.roots) :
      before.dirsRead root = after.dirsRead root := by
    have hn := sound.names root hr
    have isDir := sound.isDir root hr
    refine (IgnoreSearch.pairwise_dirsRead sound.ordered hn isDir).eq_of_mem_iff
      (IgnoreSearch.pairwise_dirsRead sound'.ordered hn (h.isDir isDir)) fun d => ?_
    rw [IgnoreSearch.mem_dirsRead sound.ordered hn isDir,
      IgnoreSearch.mem_dirsRead sound'.ordered hn (h.isDir isDir)]
    exact ⟨fun read => (forth hn read).1, fun read => (back hn read).1⟩
  have order : before.order = after.order := by
    rw [IgnoreSearch.order, IgnoreSearch.order, ← roots]
    exact List.flatMap_congr fun root hr => dirsRead hr
  have rules : before.order.flatMap before.rulesIn = before.order.flatMap after.rulesIn := by
    refine List.flatMap_congr fun d hd => ?_
    obtain ⟨root, hr, read⟩ := (IgnoreSearch.mem_order sound).mp hd
    exact (forth (sound.names root hr) read).2
  rw [IgnoreSearch.loadIgnoreFiles_eq h.ordered known absolute named,
    IgnoreSearch.loadIgnoreFiles_eq (w := { w with files := t' }) h.ordered' known absolute named]
  refine congrArg (fun rules : List IgnoreRule => Except.ok (IgnoreRules.mk rules)) ?_
  exact rules.trans (by rw [order])

end Rules

/-! ### All that a run takes up -/

namespace Workspace

variable {w : Workspace} {t' : FileTree} {o : RunOptions} {place : List String} {name : String}

/-- The source files of a run, with what is in them. -/
def sources (w : Workspace) (o : RunOptions) : Option (List (String × Option ByteArray)) :=
  (discover w o false).toOption.map (·.map fun p => (p, (w.files.read p).toOption))

/-- What a run takes up: source files and ignore rules. -/
def takenUp (w : Workspace) (o : RunOptions) :
    Option (List (String × Option ByteArray)) × Option IgnoreRules :=
  (w.sources o, (loadIgnoreFiles w o false).toOption)

/-- **A file that a run does not look at**: what is taken up is the same without it. -/
theorem takenUp_unaffected (h : w.files.OneFileApart t' place name)
    (source : o.hasExtension name = false) (ignoreFile : o.effectiveIgnoreFile ≠ name) {dir : String}
    (known : w.workingDir o = .ok dir) (absolute : Path.isAbsolute dir)
    (named : ∀ path ∈ o.effectivePaths, Path.base (Path.absolute dir path) ≠ name) :
    w.takenUp o = { w with files := t' }.takenUp o := by
  have sources : w.sources o = { w with files := t' }.sources o := by
    rw [Workspace.sources, Workspace.sources]
    cases found : discover w o false with
    | error trouble =>
        cases found' : discover { w with files := t' } o false with
        | error trouble' => rfl
        | ok files' =>
            obtain ⟨files, found''⟩ := discover_succeeds_unaffected (w := { w with files := t' }) h.symm
              known named found'
            cases found.symm.trans found''
    | ok files =>
        obtain ⟨files', found'⟩ := discover_succeeds_unaffected h known named found
        obtain rfl := discover_unaffected h source known absolute found found'
        rw [found']
        refine congrArg some (List.map_congr_left fun p hp => ?_)
        rw [read_unaffected h source known absolute found hp]
  rw [takenUp, takenUp, sources, loadIgnoreFiles_unaffected h ignoreFile known absolute]

end Workspace

end SolidityLint
