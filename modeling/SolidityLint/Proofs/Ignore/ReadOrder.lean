import SolidityLint.Proofs.FileTree.WalkOrder
import SolidityLint.Proofs.Ignore.Loading

/-!
# Ignore — the order in which ignore files are read

A run walks down from each of its directories in turn, and reads the ignore files that it comes to.

* `IgnoreSearch.mem_dirsRead`, `IgnoreSearch.pairwise_dirsRead`: which are read in the walk from one
  directory, and in which order; `IgnoreSearch.readFrom_iff`: which these are in a tree without links.
* `IgnoreSearch.loadIgnoreFiles_eq`: the rules that are loaded are theirs, in this order.
-/

namespace SolidityLint

open FileTree (Visit walkChildren)

/-! ### Searches -/

/-- A search for ignore files: their name, and the directories below which it looks, in order. -/
structure IgnoreSearch where
  files : FileTree
  name : String
  roots : List (List String)

/-- The search of a run. -/
def IgnoreSearch.ofRun (w : Workspace) (o : RunOptions) (dir : String) : IgnoreSearch where
  files := w.files
  name := o.effectiveIgnoreFile
  roots := ((o.effectivePaths.map (Path.absolute dir)).filter w.files.isDir).map Path.components

namespace IgnoreSearch

/-- The path of the ignore file of a directory. -/
def fileOf (s : IgnoreSearch) (dir : List String) : String := Path.ofComponents true (dir ++ [s.name])

/-- The rules of the ignore file of a directory; none when it can not be read. -/
def rulesIn (s : IgnoreSearch) (dir : List String) : List IgnoreRule :=
  match s.files.read (s.fileOf dir) with
  | .ok content =>
    (IgnoreRules.ofPatterns (Path.ofComponents true dir) (ignorePatternsOf content)).rules
  | .error _ => []

/-- The ignore file of the directory is read in the walk from `root`: there it stands, no directory
on the way is passed over, and it can be read. -/
inductive ReadFrom (s : IgnoreSearch) (root : List String) : List String → Prop where
  | intro {children : List (String × Entry)} {below : List String} {e : Entry} {content : ByteArray}
      (top : s.files.lstat (Path.ofComponents true root) = .ok (.dir children))
      (passes : ∀ name ∈ below, isSkippedDir name = false)
      (there : (Entry.dir children).get? (below ++ [s.name]) = some e) (leaf : e.isDir = false)
      (readable : s.files.read (s.fileOf (root ++ below)) = .ok content) :
      ReadFrom s root (root ++ below)

/-- The ignore file of the directory is read. -/
def Reads (s : IgnoreSearch) (dir : List String) : Prop := ∃ root ∈ s.roots, s.ReadFrom root dir

/-- Does a walk read here? -/
def takes (s : IgnoreSearch) (v : Visit) : Bool :=
  !(v.entry.isDir || v.name != s.name) && (s.files.read v.path).toOption.isSome

/-- What is read in the walk from `root`, in order. -/
def visits (s : IgnoreSearch) (root : List String) : List Visit :=
  (s.files.walk (fun _ name => isSkippedDir name) (Path.ofComponents true root)).filter s.takes

/-- The directory of an ignore file. -/
def dirOf (v : Visit) : List String := (Path.components v.path).dropLast

/-- The directories whose ignore files are read in the walk from `root`, in order. -/
def dirsRead (s : IgnoreSearch) (root : List String) : List (List String) := (s.visits root).map dirOf

/-! ### What is read from one root -/

theorem passes_iff {names below : List String} (hn : Path.Names names) (hb : Path.Names below) :
    FileTree.Passes (fun _ name => isSkippedDir name) (Path.ofComponents true names) below ↔
      ∀ name ∈ below, isSkippedDir name = false := by
  induction below generalizing names with
  | nil => simp [FileTree.Passes]
  | cons n below ih =>
      obtain ⟨own, others⟩ := List.forall_mem_cons.mp hb
      rw [FileTree.Passes, Path.child_ofComponents hn, List.forall_mem_cons,
        ih (hn.append (by simpa [Path.Names] using own)) others]

section OneRoot

variable {s : IgnoreSearch} {root : List String}

theorem takes_iff {v : Visit} :
    s.takes v ↔ v.entry.isDir = false ∧ v.name = s.name ∧ ∃ content, s.files.read v.path = .ok content := by
  rw [takes, Bool.and_eq_true, Bool.not_eq_true', Bool.or_eq_false_iff, bne_eq_false_iff_eq, and_assoc]
  refine and_congr_right fun _ => and_congr_right fun _ => ?_
  cases s.files.read v.path <;> simp [Except.toOption]

/-- What a walk reads is below a directory at its start. -/
theorem visits_eq (isDir : s.files.isDir (Path.ofComponents true root)) :
    s.visits root =
      match s.files.lstat (Path.ofComponents true root) with
      | .ok (.dir children) =>
        (walkChildren (fun _ name => isSkippedDir name) (Path.ofComponents true root) children).filter
          s.takes
      | _ => [] := by
  -- A link to a directory is no directory for the walk, and no file to read.
  have unread {v : Visit} (here : v.path = Path.ofComponents true root) : s.takes v = false := by
    rw [← Bool.not_eq_true, takes_iff]
    rintro ⟨-, -, content, read⟩
    rw [FileTree.isDir] at isDir
    rw [here, FileTree.read] at read
    cases there : s.files.stat (Path.ofComponents true root) with
    | error => simp [there] at isDir
    | ok e => cases e <;> simp [there, Entry.isDir] at isDir read
  rw [visits, FileTree.walk]
  cases s.files.lstat (Path.ofComponents true root) with
  | error => rfl
  | ok e =>
      cases e with
      | file | link => exact List.filter_cons_of_neg (by simp [unread])
      | dir children => exact List.filter_cons_of_neg (by simp [unread])

/-- A visit adds its rules behind those that are there. -/
theorem rules_addRules (rules : IgnoreRules) (v : Visit) : (s.files.addRules s.name rules v).rules =
    rules.rules ++ (s.files.addRules s.name {} v).rules := by
  rw [FileTree.addRules, FileTree.addRules]
  split
  · simp
  · cases s.files.read v.path <;> simp [IgnoreRules.add]

theorem rules_addRules_of_not_taken {v : Visit} (h : s.takes v = false) :
    (s.files.addRules s.name {} v).rules = [] := by
  rw [takes, Bool.and_eq_false_iff, Bool.not_eq_false'] at h
  rw [FileTree.addRules]
  split
  · rfl
  · next file =>
      have unread := h.resolve_left file
      cases read : s.files.read v.path with
      | error => rfl
      | ok content => simp [read, Except.toOption] at unread

theorem rules_foldl_addRules (vs : List Visit) (rules : IgnoreRules) :
    (vs.foldl (s.files.addRules s.name) rules).rules =
      rules.rules ++ (vs.filter s.takes).flatMap fun v => (s.files.addRules s.name {} v).rules := by
  induction vs generalizing rules with
  | nil => simp
  | cons v vs ih =>
      rw [List.foldl_cons, ih, rules_addRules, List.append_assoc, List.filter_cons]
      congr 1
      cases taken : s.takes v with
      | true => simp
      | false => simp [rules_addRules_of_not_taken taken]

variable (ordered : s.files.root.Ordered) (hn : Path.Names root)
  (isDir : s.files.isDir (Path.ofComponents true root))

include ordered hn isDir

theorem readFrom_of_mem_visits {v : Visit} (h : v ∈ s.visits root) :
    s.ReadFrom root (dirOf v) ∧ v.path = s.fileOf (dirOf v) ∧ Path.Names (dirOf v ++ [s.name]) := by
  rw [visits_eq isDir] at h
  split at h
  case h_2 => cases h
  next children top =>
    obtain ⟨hv, taken⟩ := List.mem_filter.mp h
    obtain ⟨leaf, name, content, read⟩ := takes_iff.mp taken
    have ordered := FileTree.ordered_of_lstat ordered top
    obtain ⟨below, there, place, passes⟩ := (FileTree.mem_walkChildren_leaf ordered hn leaf).mp hv
    rw [name] at there place
    have names := ordered.names there
    rw [← List.append_assoc] at place
    have whole : Path.Names (root ++ below ++ [s.name]) := by simpa using hn.append names
    have here : dirOf v = root ++ below := by
      rw [dirOf, place, Path.components_ofComponents whole, List.dropLast_concat]
    rw [here]
    exact ⟨.intro top ((passes_iff hn names.of_append.1).mp passes) there leaf (place ▸ read), place,
      whole⟩

/-- The ignore files that are read in the walk from a root. -/
theorem mem_dirsRead {dir : List String} : dir ∈ s.dirsRead root ↔ s.ReadFrom root dir := by
  rw [dirsRead, List.mem_map]
  constructor
  · rintro ⟨v, hv, rfl⟩
    exact (readFrom_of_mem_visits ordered hn isDir hv).1
  · intro h
    cases h with
    | @intro children below e content top passes there leaf readable =>
        have ordered := FileTree.ordered_of_lstat ordered top
        have names := ordered.names there
        have whole : Path.Names (root ++ below ++ [s.name]) := by simpa using hn.append names
        refine ⟨⟨s.fileOf (root ++ below), s.name, e⟩, ?_, ?_⟩
        · rw [visits_eq isDir, top]
          refine List.mem_filter.mpr ⟨(FileTree.mem_walkChildren_leaf ordered hn leaf).mpr
            ⟨below, there, ?_, (passes_iff hn names.of_append.1).mpr passes⟩, takes_iff.mpr
              ⟨leaf, rfl, content, readable⟩⟩
          rw [fileOf, List.append_assoc]
        · rw [dirOf, fileOf, Path.components_ofComponents whole, List.dropLast_concat]

/-- The order in which they are read. -/
theorem pairwise_dirsRead :
    (s.dirsRead root).Pairwise fun d d' => d ++ [s.name] < d' ++ [s.name] := by
  have before : (s.visits root).Pairwise Visit.Before := by
    rw [visits_eq isDir]
    split
    · next children top =>
        exact (FileTree.pairwise_walkChildren (FileTree.ordered_of_lstat ordered top) hn).filter _
    · exact .nil
  have place {v : Visit} (hv : v ∈ s.visits root) : Path.components v.path = dirOf v ++ [s.name] := by
    obtain ⟨-, place, names⟩ := readFrom_of_mem_visits ordered hn isDir hv
    rw [place, fileOf, Path.components_ofComponents names]
  refine List.pairwise_map.mpr (before.imp_of_mem fun hv hv' less => ?_)
  rwa [Visit.Before, place hv, place hv'] at less

/-- The rules that come from one root. -/
theorem rules_ignoreRulesBelow_eq (rules : IgnoreRules) :
    (ignoreRulesBelow s.files s.name (Path.ofComponents true root) rules).rules =
      rules.rules ++ (s.dirsRead root).flatMap s.rulesIn := by
  rw [ignoreRulesBelow_eq, rules_foldl_addRules, dirsRead, List.flatMap_map]
  congr 1
  refine List.flatMap_congr fun v hv => ?_
  obtain ⟨-, place, names⟩ := readFrom_of_mem_visits ordered hn isDir hv
  obtain ⟨leaf, name, content, read⟩ := takes_iff.mp (List.mem_filter.mp hv).2
  rw [FileTree.addRules, if_neg (by simp [leaf, name]), rulesIn, ← place, read, place, fileOf,
    Path.dir_ofComponents names]
  rfl

end OneRoot

/-! ### The search of a run -/

/-- The directories whose ignore files are read, in order. -/
def order (s : IgnoreSearch) : List (List String) := s.roots.flatMap s.dirsRead

/-- What a search looks at: an ordered tree, and directories in it. -/
structure Sound (s : IgnoreSearch) : Prop where
  ordered : s.files.root.Ordered
  names : ∀ root ∈ s.roots, Path.Names root
  isDir : ∀ root ∈ s.roots, s.files.isDir (Path.ofComponents true root)

theorem sound_ofRun {w : Workspace} {o : RunOptions} {dir : String} (ordered : w.files.root.Ordered)
    (absolute : Path.isAbsolute dir) : (ofRun w o dir).Sound := by
  have root {ns : List String} (h : ns ∈ (ofRun w o dir).roots) :
      Path.Names ns ∧ w.files.isDir (Path.ofComponents true ns) := by
    obtain ⟨path, hpath, rfl⟩ := List.mem_map.mp h
    obtain ⟨hpath, isDir⟩ := List.mem_filter.mp hpath
    obtain ⟨given, -, rfl⟩ := List.mem_map.mp hpath
    obtain ⟨names, hn, place⟩ := Path.exists_names_absolute absolute given
    rw [place] at isDir ⊢
    rw [Path.components_ofComponents hn]
    exact ⟨hn, isDir⟩
  exact ⟨ordered, fun _ h => (root h).1, fun _ h => (root h).2⟩

/-- **The rules that are loaded** are those of the ignore files that are read, in this order. -/
theorem loadIgnoreFiles_eq {w : Workspace} {o : RunOptions} {dir : String}
    (ordered : w.files.root.Ordered) (known : w.workingDir o = .ok dir) (absolute : Path.isAbsolute dir)
    (named : o.effectiveIgnoreFile ≠ "-") :
    loadIgnoreFiles w o false =
      .ok ⟨(ofRun w o dir).order.flatMap (ofRun w o dir).rulesIn⟩ := by
  have sound := sound_ofRun (o := o) ordered absolute
  have fold (roots : List (List String)) (hroots : ∀ root ∈ roots, root ∈ (ofRun w o dir).roots)
      (rules : IgnoreRules) :
      ((roots.map (Path.ofComponents true)).foldl
        (fun rules r => ignoreRulesBelow w.files o.effectiveIgnoreFile r rules) rules).rules =
      rules.rules ++ (roots.flatMap (ofRun w o dir).dirsRead).flatMap (ofRun w o dir).rulesIn := by
    induction roots generalizing rules with
    | nil => simp
    | cons root roots ih =>
        obtain ⟨here, others⟩ := List.forall_mem_cons.mp hroots
        have one := rules_ignoreRulesBelow_eq sound.ordered (sound.names root here)
          (sound.isDir root here) rules
        rw [List.map_cons, List.foldl_cons, ih others, List.flatMap_cons, List.flatMap_append,
          ← List.append_assoc]
        exact congrArg (· ++ _) one
  have texts : (o.effectivePaths.map (Path.absolute dir)).filter w.files.isDir =
      (ofRun w o dir).roots.map (Path.ofComponents true) := by
    rw [ofRun, List.map_map]
    refine (List.map_id _).symm.trans (List.map_congr_left fun path hpath => ?_)
    obtain ⟨given, -, rfl⟩ := List.mem_map.mp (List.mem_filter.mp hpath).1
    obtain ⟨names, hn, place⟩ := Path.exists_names_absolute absolute given
    rw [Function.comp_apply, place, Path.components_ofComponents hn]
    rfl
  have all := fold _ (fun _ h => h) {}
  rw [loadIgnoreFiles, if_neg (by simpa using named), known]
  simp only [bind, Except.bind, Bool.false_and, Bool.false_eq_true, if_false, texts]
  exact congrArg (fun rules : List IgnoreRule => Except.ok (IgnoreRules.mk rules)) all

variable {s : IgnoreSearch}

theorem mem_order (sound : s.Sound) {dir : List String} : dir ∈ s.order ↔ s.Reads dir := by
  rw [order, List.mem_flatMap]
  refine exists_congr fun root => and_congr_right fun h => ?_
  exact mem_dirsRead sound.ordered (sound.names root h) (sound.isDir root h)

theorem names_of_reads (sound : s.Sound) {dir : List String} (h : s.Reads dir) : Path.Names dir := by
  obtain ⟨root, hroot, h⟩ := h
  cases h with
  | intro top _ there =>
      exact (sound.names root hroot).append
        ((FileTree.ordered_of_lstat sound.ordered top).names there).of_append.1

/-- In a tree without links, the ignore files that are read are the files of the name to which no
directory on the way is passed over. -/
theorem readFrom_iff (regular : s.files.root.Regular) {root dir : List String} (hn : Path.Names root) :
    s.ReadFrom root dir ↔ ∃ below, dir = root ++ below ∧ (∀ name ∈ below, isSkippedDir name = false) ∧
      ∃ data, s.files.root.get? (dir ++ [s.name]) = some (.file data) := by
  constructor
  · intro h
    cases h with
    | @intro children below e content top passes there leaf readable =>
        have names := (FileTree.ordered_of_lstat regular.ordered top).names there
        have whole : Path.Names (root ++ below ++ [s.name]) := by simpa using hn.append names
        refine ⟨below, rfl, passes, ?_⟩
        rw [FileTree.read] at readable
        split at readable
        · cases readable
        · next data stat => exact ⟨data, (FileTree.stat_iff regular whole).mp stat⟩
        · cases readable
  · rintro ⟨below, rfl, passes, data, there⟩
    have whole := regular.ordered.names there
    have stat := (FileTree.stat_iff regular whole).mpr there
    rw [List.append_assoc, Entry.get?_append] at there
    obtain ⟨e, here, there⟩ := Option.bind_eq_some_iff.mp there
    have top := FileTree.lstat_of_get? regular hn here
    cases e with
    | file | link => cases below <;> cases there
    | dir children =>
        exact .intro top passes there rfl (by rw [fileOf, FileTree.read, stat])

theorem rulesIn_eq (regular : s.files.root.Regular) (dir : List String) {data : FileData}
    (there : s.files.root.get? (dir ++ [s.name]) = some (.file data)) :
    s.rulesIn dir = (IgnoreRules.ofPatterns (Path.ofComponents true dir)
      (ignorePatternsOf data.content)).rules := by
  have stat := (FileTree.stat_iff regular (regular.ordered.names there)).mpr there
  rw [rulesIn, fileOf, FileTree.read, stat]

end IgnoreSearch

end SolidityLint
