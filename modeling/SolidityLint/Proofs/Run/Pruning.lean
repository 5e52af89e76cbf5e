import Mathlib
import SolidityLint.Proofs.Ignore.Coverage
import SolidityLint.Proofs.Run.Discovery

/-!
# Run — passing over excluded directories

A walk does not enter a directory that the patterns exclude.  This loses nothing when an excluded
directory stands for all below it, and then a run finds the offered files that its filter takes,
each of them (`discover_keeps_what_filter_takes`).

The condition is needed at one place that is easily missed: patterns are relative to the working
directory, which is `.` to itself, so `?` excludes it, and with it what the filter takes below it
(`working_directory_pruned`).
-/

namespace SolidityLint

theorem kept_of_takes {dir : String} {o : RunOptions} {p : String}
    (taken : (Filter.ofOptions dir o).takes p) :
    (IgnoreRules.ofPatterns dir o.excluding).ignores p = false := by
  simp only [Filter.takes, Filter.ofOptions, Bool.and_eq_true, Bool.not_eq_true'] at taken
  exact taken.1.2

/-- **Nothing is lost.**  No directory above a file that the filter takes is excluded. -/
theorem unpruned_of_takes {t : FileTree} (regular : t.root.Regular) {o : RunOptions} {dir : String}
    (absolute : Path.isAbsolute dir) (sound : ∀ pattern ∈ o.excluding, IgnoreRule.Sound pattern)
    (outside : (IgnoreRules.ofPatterns dir o.excluding).ignores (Path.clean dir) = false)
    {path p : String} {dirs : List String} (offered : Offered t (Path.absolute dir path) dirs p)
    (taken : (Filter.ofOptions dir o).takes p) :
    Unpruned (Filter.ofOptions dir o).excluding (Path.absolute dir path) dirs := by
  intro front before some
  have kept := kept_of_takes taken
  cases offered with
  | named => exact absurd (List.prefix_nil.mp before) some
  | @below children dirs name data there holds =>
      obtain ⟨names, hn, full⟩ := Path.exists_names_absolute absolute path
      rw [full] at there kept ⊢
      have inner := holds.names (regular.get? ((FileTree.stat_iff regular hn).mp there))
      obtain ⟨rest, rfl⟩ := before
      rw [List.append_assoc] at inner kept
      rw [Path.below_ofComponents hn inner, ← List.append_assoc] at kept
      rw [Path.below_ofComponents hn inner.of_append.1]
      -- Were the directory excluded, so would be the file below it.
      cases excluded : (IgnoreRules.ofPatterns dir o.excluding).ignores
          (Path.ofComponents true (names ++ front)) with
      | false => exact excluded
      | true =>
          have proper : names ++ front ≠ Path.cleanComponents dir := by
            intro base
            rw [base, ← Path.clean_of_isAbsolute absolute, outside] at excluded
            cases excluded
          have all : Path.Names ((names ++ front) ++ (rest ++ [name])) := by simpa using hn.append inner
          rw [IgnoreRules.ignores_below absolute sound all (by simp) proper excluded] at kept
          cases kept

/-- What a path stands for when excluded directories stand for all below them. -/
theorem sought_iff {t : FileTree} (regular : t.root.Regular) {o : RunOptions} {dir : String}
    (absolute : Path.isAbsolute dir) (sound : ∀ pattern ∈ o.excluding, IgnoreRule.Sound pattern)
    (outside : (IgnoreRules.ofPatterns dir o.excluding).ignores (Path.clean dir) = false)
    {path p : String} :
    Sought t (.ofOptions dir o) (Path.absolute dir path) p ↔
      ∃ dirs, Offered t (Path.absolute dir path) dirs p ∧ (Filter.ofOptions dir o).takes p := by
  constructor
  · rintro ⟨dirs, offered, taken, -⟩
    exact ⟨dirs, offered, taken⟩
  · rintro ⟨dirs, offered, taken⟩
    exact ⟨dirs, offered, taken, unpruned_of_takes regular absolute sound outside offered taken⟩

/-- **What a run finds.**  In a tree without links and for paths that exist, a run finds files, in
order and each once: those that are offered, that the filter takes and that lie below no excluded
directory.  The last condition follows from the others when the patterns are sound and do not
exclude the working directory. -/
theorem discover_keeps_what_filter_takes {w : Workspace} (regular : w.files.root.Regular)
    {o : RunOptions} {dir : String} (known : w.workingDir o = .ok dir)
    (absolute : Path.isAbsolute dir)
    (exist : ∀ path ∈ o.effectivePaths, ∃ e, w.files.stat (Path.absolute dir path) = .ok e) :
    ∃ files, discover w o false = .ok files ∧ files.Pairwise (· < ·) ∧
      (∀ p, p ∈ files ↔ ∃ path ∈ o.effectivePaths, ∃ dirs,
        Offered w.files (Path.absolute dir path) dirs p ∧ (Filter.ofOptions dir o).takes p ∧
          Unpruned (.ofPatterns dir o.excluding) (Path.absolute dir path) dirs) ∧
      ((∀ pattern ∈ o.excluding, IgnoreRule.Sound pattern) →
        (IgnoreRules.ofPatterns dir o.excluding).ignores (Path.clean dir) = false →
        ∀ p, p ∈ files ↔ ∃ path ∈ o.effectivePaths, ∃ dirs,
          Offered w.files (Path.absolute dir path) dirs p ∧ (Filter.ofOptions dir o).takes p) := by
  obtain ⟨files, found, ordered, mem⟩ := discover_eq_ok regular known absolute exist
  refine ⟨files, found, ordered, mem, fun sound outside p => (mem p).trans ?_⟩
  simp only [sought_iff regular absolute sound outside]

/-- A library and a source, each in a directory of its own. -/
def librarySource : Workspace where
  files := { root := .dir [("lib", .dir [("B.sol", .file { content := .empty })]),
    ("src", .dir [("A.sol", .file { content := .empty })])] }

theorem regular_singleton {name : String} {e : Entry} (h : Path.IsName name) (inner : e.Regular) :
    (Entry.dir [(name, e)]).Regular :=
  .dir (by simpa using h) (by simp) (by simpa using inner)

theorem regular_librarySource : librarySource.files.root.Regular := by
  refine .dir (by decide) (by decide) ?_
  simp only [List.mem_cons, List.not_mem_nil, or_false, forall_eq_or_imp, forall_eq]
  exact ⟨regular_singleton (by decide) (.file _), regular_singleton (by decide) (.file _)⟩

theorem sound_lib : IgnoreRule.Sound "/lib" where
  positive := by decide
  escapes := by decide
  closed := by
    intro n h
    have none : Glob.openBraces 0 (IgnoreRule.bodyOf (trimSpace "/lib").toList).toList = some 0 := by
      decide +kernel
    rw [none] at h
    cases h
    rfl
  faithful := by
    have variants : IgnoreRule.variantsOf (trimSpace "/lib").toList = ["lib", "lib/**"] :=
      rfl
    have plain : ∀ c ∈ "lib".toList, Glob.Ordinary c := by
      intro c hc
      have letters : c = 'l' ∨ c = 'i' ∨ c = 'b' := by simpa using hc
      rcases letters with rfl | rfl | rfl <;> decide
    obtain ⟨word, below⟩ := Glob.parse?_word plain (by decide) (by decide)
    rw [variants]
    exact List.forall_mem_cons.mpr
      ⟨Glob.faithful_text word, List.forall_mem_singleton.mpr (Glob.faithful_front below)⟩

theorem discover_keeps_what_filter_takes_librarySource :
    ∃ files, discover librarySource { excluding := ["/lib"] } false = .ok files ∧
      ∀ p, p ∈ files ↔ ∃ dirs, Offered librarySource.files "/" dirs p ∧
        (Filter.ofOptions "/" { excluding := ["/lib"] }).takes p := by
  have here : Path.absolute "/" "." = "/" := by cbv
  have paths : RunOptions.effectivePaths { excluding := ["/lib"] } = ["."] := rfl
  have exist : ∀ path ∈ RunOptions.effectivePaths { excluding := ["/lib"] },
      ∃ e, librarySource.files.stat (Path.absolute "/" path) = .ok e := by
    rw [paths, List.forall_mem_singleton, here]
    exact ⟨_, FileTree.stat_root _⟩
  obtain ⟨files, found, -, -, mem⟩ :=
    discover_keeps_what_filter_takes regular_librarySource rfl (by decide) exist
  refine ⟨files, found, fun p => (mem (by simpa using sound_lib) (by decide +kernel) p).trans ?_⟩
  rw [paths]
  simp [here]

/-- Where all stands in one directory and this is excluded, nothing is left. -/
theorem not_unpruned_of_single {t : FileTree} {dir : String} {inner : List (String × Entry)}
    (root : t.root = .dir [(dir, .dir inner)]) {rules : IgnoreRules}
    (pruned : rules.ignores (Path.child "/" dir) = true) {dirs : List String} {p : String}
    (offered : Offered t "/" dirs p) : ¬ Unpruned rules "/" dirs := by
  intro unpruned
  have top : t.stat "/" = .ok (.dir [(dir, .dir inner)]) := root ▸ t.stat_root
  obtain ⟨name, data, holds, -⟩ := (offered_dir_iff top).mp offered
  cases holds with
  | here other => simp at other
  | deeper first =>
      simp only [List.mem_singleton, Prod.mk.injEq] at first
      obtain ⟨rfl, -⟩ := first
      have passed := unpruned_cons.mp unpruned
      rw [pruned] at passed
      cases passed.1

/-- A source in a directory. -/
def sourceOnly : Workspace where
  files := { root := .dir [("src", .dir [("A.sol", .file { content := .empty })])] }

/-- Seen from the directory above, without entries whose names are one character. -/
def seenFromAbove : RunOptions := { paths := [".."], workingDir := "/src", excluding := ["?"] }

/-- **The working directory is passed over.**  From the directory above, `?` leaves out the working
directory itself, and with it a file that the filter takes. -/
theorem working_directory_pruned :
    sourceOnly.files.root.Regular ∧ sourceOnly.workingDir seenFromAbove = .ok "/src" ∧
      Offered sourceOnly.files (Path.absolute "/src" "..") ["src"] "/src/A.sol" ∧
      (Filter.ofOptions "/src" seenFromAbove).takes "/src/A.sol" ∧
      discover sourceOnly seenFromAbove false = .ok [] := by
  have regular : sourceOnly.files.root.Regular :=
    regular_singleton (by decide) (regular_singleton (by decide) (.file _))
  have known : sourceOnly.workingDir seenFromAbove = .ok "/src" := by cbv
  have above : Path.absolute "/src" ".." = "/" := by cbv
  have top := sourceOnly.files.stat_root
  have exist : ∀ path ∈ seenFromAbove.effectivePaths,
      ∃ e, sourceOnly.files.stat (Path.absolute "/src" path) = .ok e := by
    show ∀ path ∈ [".."], _
    rw [List.forall_mem_singleton, above]
    exact ⟨_, top⟩
  refine ⟨regular, known, ?_, ?_, ?_⟩
  · rw [above]
    exact .below top (.deeper (List.mem_singleton_self _) (.here (List.mem_singleton_self _)))
      (by decide) (by decide)
  · decide +kernel
  · obtain ⟨files, found, -, mem⟩ := discover_eq_ok regular known (by decide) exist
    rw [found]
    congr 1
    refine List.eq_nil_iff_forall_not_mem.mpr fun p hp => ?_
    obtain ⟨path, listed, dirs, offered, -, unpruned⟩ := (mem p).mp hp
    obtain rfl : path = ".." := List.mem_singleton.mp listed
    rw [above] at offered unpruned
    exact not_unpruned_of_single rfl (by decide +kernel) offered unpruned

end SolidityLint
