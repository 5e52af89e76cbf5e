import SolidityLint.Proofs.Ignore.ReadOrder
import SolidityLint.Proofs.Path.Inside

/-!
# Ignore — which ignore file decides

The rules of all ignore files stand in the order in which the files are read, and the last rule that
matches a path decides.  A walk comes to the ignore file of a directory before what lies below, but
for directories whose names sort before that of ignore files, and walks from several directories read
some files again; so the deepest ignore file that matches a path is not always the last.

* `IgnoreRules.ignores_flatMap`: of several lists of rules that match, the last one decides.
* `IgnoreSearch.follows_iff`: when the inner one of two ignore files is read last.
* `deepest_ignore_file_decides`: which ignore file decides in a run.
* `outer_ignore_file_decides_innerFirst`: it need not be the deepest.
-/

namespace SolidityLint

/-! ### The last of two in a list -/

/-- The last `b` of a list stands behind all that are `a`. -/
def Follows {α : Type} (a b : α) : List α → Prop
  | [] => False
  | x :: xs => Follows a b xs ∨ x = b ∧ a ∉ xs

namespace Follows

variable {α : Type} {a b : α} {xs ys : List α}

theorem mem (h : Follows a b xs) : b ∈ xs := by
  induction xs with
  | nil => exact h.elim
  | cons x xs ih =>
      rcases h with h | ⟨rfl, -⟩
      · exact List.mem_cons_of_mem _ (ih h)
      · exact List.mem_cons_self

theorem of_not_mem (ha : a ∉ xs) (hb : b ∈ xs) : Follows a b xs := by
  induction xs with
  | nil => cases hb
  | cons x xs ih =>
      rw [List.mem_cons, not_or] at ha
      rcases List.mem_cons.mp hb with rfl | hb
      · exact .inr ⟨rfl, ha.2⟩
      · exact .inl (ih ha.2 hb)

/-- One of two in a list comes last. -/
theorem total (other : a ≠ b) (ha : a ∈ xs) (hb : b ∈ xs) : Follows a b xs ∨ Follows b a xs := by
  induction xs with
  | nil => cases ha
  | cons x xs ih =>
      by_cases ha' : a ∈ xs
      · by_cases hb' : b ∈ xs
        · exact (ih ha' hb').imp .inl .inl
        · exact .inr (.inl (of_not_mem hb' ha'))
      · by_cases hb' : b ∈ xs
        · exact .inl (.inl (of_not_mem ha' hb'))
        · have first {c : α} (hc : c ∈ x :: xs) (none : c ∉ xs) : c = x :=
            (List.mem_cons.mp hc).resolve_right none
          exact absurd ((first ha ha').trans (first hb hb').symm) other

theorem append_iff : Follows a b (xs ++ ys) ↔ Follows a b ys ∨ a ∉ ys ∧ Follows a b xs := by
  induction xs with
  | nil => simp [Follows]
  | cons x xs ih =>
      rw [List.cons_append, Follows, ih, Follows, List.mem_append, not_or]
      tauto

/-- In lists one after the other, the last list that has one of the two decides. -/
theorem flatMap_iff {β : Type} {f : β → List α} {roots : List β} :
    Follows a b (roots.flatMap f) ↔
      ∃ before root after, roots = before ++ root :: after ∧ Follows a b (f root) ∧
        ∀ r ∈ after, a ∉ f r := by
  induction roots with
  | nil => simp [Follows]
  | cons root roots ih =>
      rw [List.flatMap_cons, append_iff, ih]
      constructor
      · rintro (⟨before, r, after, rfl, h, none⟩ | ⟨none, h⟩)
        · exact ⟨root :: before, r, after, rfl, h, none⟩
        · exact ⟨[], root, roots, rfl, h, fun r hr ha => none (List.mem_flatMap.mpr ⟨r, hr, ha⟩)⟩
      · rintro ⟨before, r, after, split, h, none⟩
        cases before with
        | nil =>
            cases split
            refine .inr ⟨fun ha => ?_, h⟩
            obtain ⟨r, hr, ha⟩ := List.mem_flatMap.mp ha
            exact none r hr ha
        | cons first before =>
            cases split
            exact .inl ⟨before, r, after, rfl, h, none⟩

/-- In an ordered list, the greater of two comes last. -/
theorem iff_of_pairwise {R : α → α → Prop} (asymm : ∀ {x y}, R x y → ¬ R y x) (ordered : xs.Pairwise R)
    (other : a ≠ b) : Follows a b xs ↔ b ∈ xs ∧ (a ∈ xs → R a b) := by
  induction xs with
  | nil => simp [Follows]
  | cons x xs ih =>
      obtain ⟨first, ordered⟩ := List.pairwise_cons.mp ordered
      rw [Follows, ih ordered]
      constructor
      · rintro (⟨hb, less⟩ | ⟨rfl, none⟩)
        · refine ⟨List.mem_cons_of_mem _ hb, fun ha => ?_⟩
          rcases List.mem_cons.mp ha with rfl | ha
          · exact first b hb
          · exact less ha
        · exact ⟨List.mem_cons_self, fun ha => absurd ((List.mem_cons.mp ha).resolve_right none) other⟩
      · rintro ⟨hb, less⟩
        rcases List.mem_cons.mp hb with rfl | hb
        · exact .inr ⟨rfl, fun ha => asymm (first a ha) (less (List.mem_cons_of_mem _ ha))⟩
        · exact .inl ⟨hb, fun ha => less (List.mem_cons_of_mem _ ha)⟩

end Follows

/-! ### Verdicts -/

namespace IgnoreRules

theorem ignores_append (xs ys : List IgnoreRule) (path : String) :
    ignores ⟨xs ++ ys⟩ path =
      if ys.any (·.hits path) then ignores ⟨ys⟩ path else ignores ⟨xs⟩ path := by
  have fold (ys : List IgnoreRule) (verdict : Bool) :
      ys.foldl (fun verdict r => if r.hits path then !r.negated else verdict) verdict =
        if ys.any (·.hits path) then ignores ⟨ys⟩ path else verdict := by
    induction ys generalizing verdict with
    | nil => rfl
    | cons r ys ih =>
        rw [ignores, List.foldl_cons, ih, List.foldl_cons, ih, List.any_cons]
        cases hit : r.hits path <;> cases later : ys.any (·.hits path) <;> simp
  rw [ignores, List.foldl_append, fold]
  rfl

/-- **Of the lists that match a path the last one decides.** -/
theorem ignores_flatMap {α : Type} {f : α → List IgnoreRule} {xs : List α} {path : String} {d : α}
    (hd : d ∈ xs) (hits : (f d).any (·.hits path))
    (last : ∀ e ∈ xs, (f e).any (·.hits path) → e ≠ d → Follows e d xs) :
    ignores ⟨xs.flatMap f⟩ path = ignores ⟨f d⟩ path := by
  induction xs with
  | nil => cases hd
  | cons x xs ih =>
      rw [List.flatMap_cons, ignores_append, List.any_flatMap]
      by_cases later : ∃ e ∈ xs, (f e).any (·.hits path)
      · obtain ⟨e, he, hit⟩ := later
        have inner : ∀ e ∈ xs, (f e).any (·.hits path) → e ≠ d → Follows e d xs := fun e he hit other =>
          (last e (List.mem_cons_of_mem _ he) hit other).resolve_right fun h => h.2 he
        have hd : d ∈ xs := by
          by_cases same : e = d
          · exact same ▸ he
          · exact (inner e he hit same).mem
        rw [if_pos (List.any_eq_true.mpr ⟨e, he, hit⟩), ih hd inner]
      · have own : d = x := (List.mem_cons.mp hd).resolve_right fun hd => later ⟨d, hd, hits⟩
        rw [if_neg fun any => later (List.any_eq_true.mp any), own]

end IgnoreRules

namespace IgnoreSearch

variable {s : IgnoreSearch}

/-- A rule in the ignore file of the directory matches the path. -/
def Matches (s : IgnoreSearch) (dir : List String) (path : String) : Prop :=
  (s.rulesIn dir).any (·.hits path)

/-- What the ignore file of the directory says of a path: the last rule that matches it decides. -/
def verdict (s : IgnoreSearch) (dir : List String) (path : String) : Bool :=
  IgnoreRules.ignores ⟨s.rulesIn dir⟩ path

/-- Ignore files that match a path stand in directories above it. -/
theorem prefix_of_matches (sound : s.Sound) {dir : List String} (h : s.Reads dir) {p : String}
    (hp : Path.Shortest p) (hit : s.Matches dir p) : dir <+: Path.components p := by
  have names := names_of_reads sound h
  obtain ⟨r, hr, hit⟩ := List.any_eq_true.mp hit
  have base : r.base = Path.ofComponents true dir := by
    rw [rulesIn] at hr
    split at hr
    · obtain ⟨pattern, -, read⟩ := IgnoreRules.exists_pattern hr
      rw [IgnoreRule.base_of_ofPattern? read, Path.clean_ofComponents names]
    · cases hr
  rw [← hp.ofComponents] at hit
  obtain ⟨down, whole⟩ := IgnoreRule.exists_down names hp.names base hit
  exact ⟨down, whole.symm⟩

/-! ### Which of two comes last -/

/-- Of two ignore files on one way down, the inner one is read last: a root reads it, no root that
is given later reads the outer one, and if that root reads both, the name of ignore files sorts
before the name that leads from the outer directory to the inner one. -/
def ReadLast (s : IgnoreSearch) (outer : List String) (first : String) (rest : List String) : Prop :=
  ∃ before root after, s.roots = before ++ root :: after ∧
    s.ReadFrom root (outer ++ first :: rest) ∧ (s.ReadFrom root outer → s.name < first) ∧
    ∀ r ∈ after, ¬ s.ReadFrom r outer

/-- An ignore file is no directory on the way to another one. -/
theorem ne_of_readFrom {root outer rest : List String} {first : String} (h : s.ReadFrom root outer)
    (h' : s.ReadFrom root (outer ++ first :: rest)) : s.name ≠ first := by
  rintro rfl
  cases h with
  | @intro children below e content top passes there leaf readable =>
      generalize whole : root ++ below ++ s.name :: rest = inner at h'
      cases h' with
      | @intro children' below' e' content' top' passes' there' leaf' readable' =>
          rw [top] at top'
          cases top'
          rw [List.append_assoc, List.append_cancel_left_eq] at whole
          subst whole
          have further : below ++ s.name :: rest ++ [s.name] = below ++ [s.name] ++ (rest ++ [s.name]) := by
            simp
          rw [further, Entry.get?_append, there] at there'
          cases e with
          | dir => cases leaf
          | file | link => cases rest <;> cases there'

/-- Where the outer file comes first, its name sorts before that of the directory. -/
theorem outer_lt_inner_iff {outer rest : List String} {first : String} (other : s.name ≠ first) :
    outer ++ [s.name] < outer ++ first :: rest ++ [s.name] ↔ s.name < first := by
  rw [List.append_assoc, FileTree.append_lt_append_iff, List.cons_append, List.cons_lt_cons_iff]
  simp [other]

/-- The inner one of two ignore files comes last exactly when it is read last. -/
theorem follows_iff (sound : s.Sound) {outer rest : List String} {first : String} :
    Follows outer (outer ++ first :: rest) s.order ↔ s.ReadLast outer first rest := by
  rw [order, Follows.flatMap_iff]
  refine exists_congr fun before => exists_congr fun root => exists_congr fun after =>
    and_congr_right fun split => ?_
  have mem {r : List String} (hr : r ∈ s.roots) {dir : List String} :
      dir ∈ s.dirsRead r ↔ s.ReadFrom r dir :=
    mem_dirsRead sound.ordered (sound.names r hr) (sound.isDir r hr)
  have hroot : root ∈ s.roots := by simp [split]
  have hafter {r : List String} (hr : r ∈ after) : r ∈ s.roots := by simp [split, hr]
  have last : (∀ r ∈ after, outer ∉ s.dirsRead r) ↔ ∀ r ∈ after, ¬ s.ReadFrom r outer :=
    forall₂_congr fun r hr => not_congr (mem (hafter hr))
  rw [last, Follows.iff_of_pairwise (fun less => List.lt_asymm less)
    (pairwise_dirsRead sound.ordered (sound.names root hroot) (sound.isDir root hroot)) (by simp),
    mem hroot, mem hroot, and_assoc]
  refine and_congr_right fun inner => and_congr_left fun _ => forall_congr' fun h => ?_
  exact outer_lt_inner_iff (ne_of_readFrom h inner)

/-- The ignore file that is read last of those that match a path decides. -/
theorem ignores_of_last (sound : s.Sound) {dir : List String} (h : s.Reads dir) {p : String}
    (hit : s.Matches dir p)
    (last : ∀ other, s.Reads other → s.Matches other p → other ≠ dir → Follows other dir s.order) :
    IgnoreRules.ignores ⟨s.order.flatMap s.rulesIn⟩ p = s.verdict dir p :=
  IgnoreRules.ignores_flatMap ((mem_order sound).mpr h) hit
    fun other hother => last other ((mem_order sound).mp hother)

end IgnoreSearch

/-- **The deepest ignore file decides** of those that match a path, if it is read after all of them
that stand above it; an outer one that is read later decides itself. -/
theorem deepest_ignore_file_decides {w : Workspace} {o : RunOptions} {dir : String}
    (ordered : w.files.root.Ordered) (known : w.workingDir o = .ok dir)
    (absolute : Path.isAbsolute dir) (named : o.effectiveIgnoreFile ≠ "-") :
    let s := IgnoreSearch.ofRun w o dir
    ∃ rules, loadIgnoreFiles w o false = .ok rules ∧
      ∀ p, Path.Shortest p → ∀ inner, s.Reads inner → s.Matches inner p →
        (∀ first rest, s.Reads (inner ++ first :: rest) → ¬ s.Matches (inner ++ first :: rest) p) →
        ((∀ outer first rest, inner = outer ++ first :: rest → s.Reads outer → s.Matches outer p →
            s.ReadLast outer first rest) →
          rules.ignores p = s.verdict inner p) ∧
        ∀ outer first rest, inner = outer ++ first :: rest → s.Reads outer → s.Matches outer p →
          (∀ other, s.Reads other → s.Matches other p → other = outer ∨ other = inner) →
          ¬ s.ReadLast outer first rest → rules.ignores p = s.verdict outer p := by
  intro s
  have sound : s.Sound := IgnoreSearch.sound_ofRun ordered absolute
  refine ⟨_, IgnoreSearch.loadIgnoreFiles_eq ordered known absolute named,
    fun p hp inner hinner hit deepest => ⟨fun above => ?_, ?_⟩⟩
  · refine IgnoreSearch.ignores_of_last sound hinner hit fun other hother hit' differ => ?_
    -- Both stand on the way to the path, so one is above the other.
    have up := IgnoreSearch.prefix_of_matches sound hinner hp hit
    have up' := IgnoreSearch.prefix_of_matches sound hother hp hit'
    rcases List.prefix_or_prefix_of_prefix up up' with ⟨more, rfl⟩ | ⟨more, rfl⟩
    · cases more with
      | nil => exact absurd (List.append_nil _) differ
      | cons first rest => exact absurd hit' (deepest first rest hother)
    · cases more with
      | nil => exact absurd (List.append_nil _).symm differ
      | cons first rest =>
          exact (IgnoreSearch.follows_iff sound).mpr (above other first rest rfl hother hit')
  · rintro outer first rest rfl houter hit' alone late
    refine IgnoreSearch.ignores_of_last sound houter hit' fun other hother hit'' differ => ?_
    obtain rfl := (alone other hother hit'').resolve_left differ
    have either := Follows.total differ ((IgnoreSearch.mem_order sound).mpr hinner)
      ((IgnoreSearch.mem_order sound).mpr houter)
    exact either.resolve_right fun h => late ((IgnoreSearch.follows_iff sound).mp h)

/-! ### A name that sorts before that of ignore files -/

/-- A directory whose ignore file leaves out the source in it. -/
def leavingOut : Entry :=
  .dir [(".solidhunterignore", .file { content := "A.sol".toUTF8 }), ("A.sol", .file { content := .empty })]

/-- An ignore file that takes in again what that one leaves out. -/
def takingIn : Entry := .file { content := "!A.sol".toUTF8 }

/-- The directory is called `src`. -/
def outerFirst : Workspace where
  files := { root := .dir [(".solidhunterignore", takingIn), ("src", leavingOut)] }

/-- The directory is called `(lib)`. -/
def innerFirst : Workspace where
  files := { root := .dir [("(lib)", leavingOut), (".solidhunterignore", takingIn)] }

theorem regular_leavingOut : leavingOut.Regular := by
  refine .dir (by decide) (by decide) ?_
  simp only [List.mem_cons, List.not_mem_nil, or_false, forall_eq_or_imp, forall_eq]
  exact ⟨.file _, .file _⟩

theorem regular_outerFirst : outerFirst.files.root.Regular := by
  refine .dir (by decide) (by decide) ?_
  simp only [List.mem_cons, List.not_mem_nil, or_false, forall_eq_or_imp, forall_eq]
  exact ⟨.file _, regular_leavingOut⟩

theorem regular_innerFirst : innerFirst.files.root.Regular := by
  refine .dir (by decide) (by decide) ?_
  simp only [List.mem_cons, List.not_mem_nil, or_false, forall_eq_or_imp, forall_eq]
  exact ⟨regular_leavingOut, .file _⟩

section WholeTree

variable {children : List (String × Entry)}

theorem isDir_wholeTree : FileTree.isDir { root := .dir children } "/" = true := by
  rw [FileTree.isDir, FileTree.stat_root]
  rfl

/-- A run without options searches all that is there. -/
theorem roots_ofRun : (IgnoreSearch.ofRun { files := { root := .dir children } } {} "/").roots = [[]] := by
  have paths : (RunOptions.effectivePaths {}).map (Path.absolute "/") = ["/"] := rfl
  simp only [IgnoreSearch.ofRun, paths, List.filter_cons, isDir_wholeTree, if_true, List.filter_nil]
  rfl

theorem reads_wholeTree_iff (regular : (Entry.dir children).Regular) (dir : List String) :
    (IgnoreSearch.ofRun { files := { root := .dir children } } {} "/").Reads dir ↔
      (∀ name ∈ dir, isSkippedDir name = false) ∧
        ∃ data, (Entry.dir children).get? (dir ++ [".solidhunterignore"]) = some (.file data) := by
  rw [IgnoreSearch.Reads, roots_ofRun]
  simp only [List.mem_singleton, exists_eq_left, List.nil_append, exists_eq_left',
    IgnoreSearch.readFrom_iff (s := .ofRun { files := { root := .dir children } } {} "/") regular
      (List.forall_mem_nil _)]
  rfl

theorem loadIgnoreFiles_wholeTree (regular : (Entry.dir children).Regular) :
    loadIgnoreFiles { files := { root := .dir children } } {} false =
      .ok ⟨FileTree.rulesBelow ".solidhunterignore" "/" children⟩ := by
  have loaded := IgnoreSearch.loadIgnoreFiles_eq (w := { files := { root := .dir children } }) (o := {})
    regular.ordered rfl (by decide) (by decide)
  have top : Path.Names [] := List.forall_mem_nil _
  have one := IgnoreSearch.rules_ignoreRulesBelow_eq
    (s := .ofRun { files := { root := .dir children } } {} "/") regular.ordered top isDir_wholeTree {}
  have same := rules_ignoreRulesBelow (t := { root := .dir children }) regular top rfl
    ".solidhunterignore" {}
  rw [loaded, IgnoreSearch.order, roots_ofRun]
  simp only [List.flatMap_cons, List.flatMap_nil, List.append_nil]
  exact congrArg (fun rules : List IgnoreRule => Except.ok (IgnoreRules.mk rules)) (one.symm.trans same)

end WholeTree

/-- Below `src` the deeper ignore file is read last, and so it decides. -/
theorem deepest_ignore_file_decides_outerFirst :
    ∃ rules, loadIgnoreFiles outerFirst {} false = .ok rules ∧ rules.ignores "/src/A.sol" = true := by
  let s := IgnoreSearch.ofRun outerFirst {} "/"
  have reads : ∀ dir, s.Reads dir ↔ _ := reads_wholeTree_iff regular_outerFirst
  have sound : s.Sound := IgnoreSearch.sound_ofRun regular_outerFirst.ordered (by decide)
  have own := IgnoreSearch.rulesIn_eq (s := s) regular_outerFirst ["src"] rfl
  have hp : Path.Shortest "/src/A.sol" := ⟨rfl, rfl⟩
  have inner : s.Reads ["src"] := (reads ["src"]).mpr ⟨by decide, _, rfl⟩
  obtain ⟨rules, loaded, decides⟩ := deepest_ignore_file_decides (w := outerFirst) (o := {})
    regular_outerFirst.ordered rfl (by decide) (by decide)
  have hit : s.Matches ["src"] "/src/A.sol" := by
    rw [IgnoreSearch.Matches, own]
    decide +kernel
  -- Only the source itself is deeper on the way, and it is no directory.
  have deepest : ∀ first rest, s.Reads (["src"] ++ first :: rest) →
      ¬ s.Matches (["src"] ++ first :: rest) "/src/A.sol" := by
    intro first rest read hit
    have up := IgnoreSearch.prefix_of_matches sound read hp hit
    obtain ⟨-, data, there⟩ := (reads _).mp read
    have names : Path.components "/src/A.sol" = ["src", "A.sol"] := rfl
    rw [names, List.singleton_append, List.cons_prefix_cons, List.cons_prefix_cons,
      List.prefix_nil] at up
    obtain ⟨-, rfl, rfl⟩ := up
    cases there
  obtain ⟨deeper, -⟩ := decides "/src/A.sol" hp ["src"] inner hit deepest
  refine ⟨rules, loaded, (deeper fun outer first rest way _ _ => ?_).trans ?_⟩
  · obtain ⟨rfl, way⟩ := (List.append_eq_singleton_iff.mp way.symm).resolve_right (by simp)
    obtain ⟨rfl, rfl⟩ := List.cons.inj way
    have roots : s.roots = [[]] := roots_ofRun
    obtain ⟨root, hroot, read⟩ := inner
    rw [roots, List.mem_singleton] at hroot
    subst hroot
    exact ⟨[], [], [], roots, read, fun _ => by decide, by simp⟩
  · rw [IgnoreSearch.verdict, own]
    decide +kernel

/-- **Below `(lib)` the outer ignore file decides**, although the deeper one is read and leaves the
source out: it is read first. -/
theorem outer_ignore_file_decides_innerFirst :
    let s := IgnoreSearch.ofRun innerFirst {} "/"
    s.Reads [] ∧ s.Reads ["(lib)"] ∧ s.Matches ["(lib)"] "/(lib)/A.sol" ∧
    s.verdict ["(lib)"] "/(lib)/A.sol" = true ∧
    ∃ rules, loadIgnoreFiles innerFirst {} false = .ok rules ∧ rules.ignores "/(lib)/A.sol" = false := by
  intro s
  have reads : ∀ dir, s.Reads dir ↔ _ := reads_wholeTree_iff regular_innerFirst
  have own := IgnoreSearch.rulesIn_eq (s := s) regular_innerFirst ["(lib)"] rfl
  refine ⟨(reads _).mpr ⟨by decide, _, rfl⟩, (reads _).mpr ⟨by decide, _, rfl⟩, ?_, ?_, _,
    loadIgnoreFiles_wholeTree regular_innerFirst, ?_⟩
  · rw [IgnoreSearch.Matches, own]
    decide +kernel
  · rw [IgnoreSearch.verdict, own]
    decide +kernel
  · decide +kernel

end SolidityLint
