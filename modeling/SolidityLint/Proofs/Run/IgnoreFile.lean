import SolidityLint.Proofs.Ignore.Loading
import SolidityLint.Proofs.Run.Outcomes
import SolidityLint.Proofs.Run.Pruning
import SolidityLint.Proofs.Run.Repetition

/-!
# Run — patterns as options and in an ignore file

Patterns given as options are asked of directories and files while a run looks for its files; those of
an ignore file are asked of the files that were found.  So the two differ in what lies below a directory
that the patterns match: as options they leave it out, and in a file each of the files below is judged by
itself.

* `lints_run_iff`: what a new runner lints.
* `lints_by_option`, `lints_by_file`: what it lints with the patterns as options, and with the patterns
  in a file that is new in the working directory.
* `lints_alike_unless_pruned`: when the two are the same.
* `taken_in_again_by_file_only`: they are not when a later pattern takes in again what lies in a
  directory that an earlier one leaves out.
-/

namespace SolidityLint

open FileTree (Holds rulesBelow)

/-! ### The files that a run lints -/

/-- The file at the path was linted. -/
def RunResult.Lints (res : RunResult) (path : String) : Prop :=
  ∃ o ∈ res.files, o.path = path ∧ o.linted?.isSome

/-- The file at the path can be read, is a source, and the parser gives a tree for it. -/
def RunContext.Parses (c : RunContext) (path : String) : Prop :=
  ∃ content info f, c.workspace.files.readSnapshot false path = .ok (content, info) ∧
    c.takeUp path content = ({ path }, some f)

/-- Where the same file stands, the same parses. -/
theorem parses_congr {c c' : RunContext} {path : String}
    (same : c.workspace.files.stat path = c'.workspace.files.stat path) (parser : c.parser = c'.parser)
    (detection : c.options.skipDetection = c'.options.skipDetection) :
    c.Parses path ↔ c'.Parses path := by
  have read : c.workspace.files.readSnapshot false path = c'.workspace.files.readSnapshot false path := by
    simp only [FileTree.readSnapshot, same]
  simp only [RunContext.Parses, read, takeUp_congr parser detection]

theorem not_linted_of_settled {s : Session} {look : FileOutcome × Option SourceFile}
    (failed : (look.1.error.isSome || look.1.skipped) = true) (none : look.2 = none) :
    (Runner.lintOutcome s look).linted? = Option.none := by
  obtain ⟨o, f⟩ := look
  obtain rfl : f = Option.none := none
  simp only [Runner.lintOutcome, FileOutcome.linted?, failed, Bool.true_or, if_true]

/-- A look lints the file unless it is ignored or does not parse. -/
theorem lints_freshLook_iff {c : RunContext} {s : Session} {path p : String} :
    ((Runner.lintOutcome s (c.freshLook path)).path = p ∧
      (Runner.lintOutcome s (c.freshLook path)).linted?.isSome) ↔
        path = p ∧ c.ignored.ignores path = false ∧ c.Parses path := by
  cases seen : c.ignored.ignores path with
  | true => simp [RunContext.freshLook, seen, Runner.lintOutcome, FileOutcome.linted?]
  | false =>
      cases read : c.workspace.files.readSnapshot false path with
      | error e =>
          simp [RunContext.freshLook, seen, read, Runner.lintOutcome, FileOutcome.linted?,
            RunContext.Parses]
      | ok got =>
          obtain ⟨content, info⟩ := got
          rw [RunContext.freshLook_of_read seen read]
          rcases c.takeUp_cases path content with ⟨failed, none⟩ | ⟨f, -, made⟩
          · rw [not_linted_of_settled failed none]
            constructor
            · rintro ⟨-, ⟨⟩⟩
            · rintro ⟨-, -, content', info', f, read', made⟩
              rw [read] at read'
              cases read'
              rw [made] at none
              cases none
          · have parses : c.Parses path := ⟨content, info, f, read, made⟩
            rw [made]
            simp [Runner.lintOutcome, FileOutcome.linted?, parses]

/-- **What a new runner lints**: the files that the run finds, that no ignore file leaves out, and
that parse. -/
theorem lints_run_iff {c : RunContext} (calm : c.Calm) (names : KeepsPaths c.parser)
    (rules : List Rule) {files : List String} {ignored : IgnoreRules}
    (found : c.found false = .ok (files, ignored)) :
    ∃ res, ((newRunner rules).run c false).result = .ok res ∧ ∀ p, res.Lints p ↔
      p ∈ files ∧ ignored.ignores p = false ∧ c.Parses p := by
  obtain ⟨result, -⟩ := Runner.run_of_found calm names (remembers_newRunner rules) found
  have fresh : (newRunner rules).knownLook { c with ignored } =
      ({ c with ignored } : RunContext).freshLook := by
    funext path
    exact Runner.knownLook_of_unknown rfl _
  rw [fresh] at result
  refine ⟨_, result, fun p => ?_⟩
  simp only [RunResult.Lints, resultOf, RunResult.ofOutcomes, List.map_map, List.mem_map,
    Function.comp_apply, exists_exists_and_eq_and]
  constructor
  · rintro ⟨path, listed, looked⟩
    obtain ⟨rfl, seen, parses⟩ := lints_freshLook_iff.mp looked
    exact ⟨listed, seen, parses⟩
  · rintro ⟨listed, seen, parses⟩
    exact ⟨p, listed, lints_freshLook_iff.mpr ⟨rfl, seen, parses⟩⟩

/-! ### Looking around in the working directory -/

/-- A run over the working directory finds what is sought there, and loads the ignore files below. -/
theorem found_here {w : Workspace} (regular : w.files.root.Regular) {o : RunOptions} {dir : String}
    (known : w.workingDir o = .ok dir) (absolute : Path.isAbsolute dir)
    (here : o.effectivePaths = ["."]) (loads : o.effectiveIgnoreFile ≠ "-")
    {children : List (String × Entry)}
    (there : w.files.root.get? (Path.cleanComponents dir) = some (.dir children))
    (parser : SourceParser) :
    ∃ files, (contextOf parser (w, o)).found false =
        .ok (files, ignoreRulesBelow w.files o.effectiveIgnoreFile (Path.clean dir) {}) ∧
      ∀ p, p ∈ files ↔ Sought w.files (.ofOptions dir o) (Path.clean dir) p := by
  have place : Path.absolute dir "." = Path.clean dir := Path.absolute_here absolute
  have stands : w.files.stat (Path.clean dir) = .ok (.dir children) := by
    rw [Path.clean_of_isAbsolute absolute]
    exact (FileTree.stat_iff regular (Path.names_cleanComponents absolute)).mpr there
  have exist : ∀ path ∈ o.effectivePaths, ∃ e, w.files.stat (Path.absolute dir path) = .ok e := by
    rw [here, List.forall_mem_singleton, place]
    exact ⟨_, stands⟩
  have loaded : loadIgnoreFiles w o false =
      .ok (ignoreRulesBelow w.files o.effectiveIgnoreFile (Path.clean dir) {}) := by
    simp [loadIgnoreFiles, loads, known, here, place, FileTree.isDir, stands, Entry.isDir, bind,
      Except.bind]
  obtain ⟨files, found, -, mem⟩ := discover_eq_ok regular known absolute exist
  refine ⟨files, ?_, fun p => ?_⟩
  · simp [RunContext.found, contextOf, found, loaded, bind, Except.bind]
  · rw [mem p, here]
    simp [place]

/-! ### One more file -/

theorem holds_insert {before after : List (String × Entry)} {name n : String} {own data : FileData}
    {dirs : List String} (other : n ≠ name) :
    Holds (before ++ (name, .file own) :: after) dirs n data ↔ Holds (before ++ after) dirs n data := by
  constructor
  · intro h
    cases h with
    | here h => exact .here (by simpa [other] using h)
    | deeper h rest => exact .deeper (by simpa using h) rest
  · intro h
    cases h with
    | here h => exact .here (by simpa [other] using h)
    | deeper h rest => exact .deeper (by simpa using h) rest

theorem ne_of_hidden {name n : String} (hidden : hasFront "." name = true)
    (seen : hasFront "." n = false) : n ≠ name := by
  rintro rfl
  rw [hidden] at seen
  cases seen

section OneMore

variable {t t' : FileTree} {names : List String} {name : String} {data : FileData}

/-- A hidden file more or less does not change what is offered. -/
theorem offered_oneMore_iff (regular : t.root.Regular) (regular' : t'.root.Regular)
    (hn : Path.Names names) (more : FileTree.OneMore t t' names name data)
    (hidden : hasFront "." name = true) {dirs : List String} {p : String} :
    Offered t' (Path.ofComponents true names) dirs p ↔
      Offered t (Path.ofComponents true names) dirs p := by
  cases more with
  | intro old new =>
      rw [offered_dir_iff ((FileTree.stat_iff regular hn).mpr old),
        offered_dir_iff ((FileTree.stat_iff regular' hn).mpr new)]
      refine exists_congr fun n => exists_congr fun d => ?_
      constructor
      · rintro ⟨holds, seen, rest⟩
        exact ⟨(holds_insert (ne_of_hidden hidden seen)).mp holds, seen, rest⟩
      · rintro ⟨holds, seen, rest⟩
        exact ⟨(holds_insert (ne_of_hidden hidden seen)).mpr holds, seen, rest⟩

/-- What is offered is the same file in both trees. -/
theorem stat_oneMore (regular : t.root.Regular) (regular' : t'.root.Regular)
    (hn : Path.Names names) (more : FileTree.OneMore t t' names name data)
    (hidden : hasFront "." name = true) {dirs : List String} {p : String}
    (offered : Offered t (Path.ofComponents true names) dirs p) : t'.stat p = t.stat p := by
  cases more with
  | intro old new =>
      obtain ⟨n, d, holds, seen, -, rfl⟩ :=
        (offered_dir_iff ((FileTree.stat_iff regular hn).mpr old)).mp offered
      rw [FileTree.stat_of_holds regular hn old holds, FileTree.stat_of_holds regular' hn new
        ((holds_insert (ne_of_hidden hidden seen)).mpr holds)]

end OneMore

/-! ### Two ways to give patterns -/

/-- The ignore file of a directory, if no other name is asked for. -/
def ignoreFileName : String := ".solidhunterignore"

/-- The second tree has one more file, an ignore file in the working directory with the patterns of
the options, line by line. -/
structure MovedToFile (w : Workspace) (o : RunOptions) (dir : String) (t' : FileTree) : Prop where
  known : w.workingDir o = .ok dir
  absolute : Path.isAbsolute dir
  here : o.effectivePaths = ["."]
  named : o.effectiveIgnoreFile = ignoreFileName
  regular : w.files.root.Regular
  regular' : t'.root.Regular
  lines : ∀ pattern ∈ o.excluding, '\n' ∉ pattern.toList
  short : ∀ pattern ∈ o.excluding, pattern.utf8ByteSize < lineLimit
  more : ∃ data, FileTree.OneMore w.files t' (Path.cleanComponents dir) ignoreFileName data ∧
    textOfBytes data.content = String.intercalate "\n" o.excluding

/-- The options without the patterns. -/
def RunOptions.withoutPatterns (o : RunOptions) : RunOptions := { o with excluding := [] }

theorem takes_iff {dir : String} {o : RunOptions} {p : String} :
    (Filter.ofOptions dir o).takes p ↔ (Filter.ofOptions dir o.withoutPatterns).takes p ∧
      (IgnoreRules.ofPatterns dir o.excluding).ignores p = false := by
  have nothing : (IgnoreRules.ofPatterns dir []).ignores p = false := rfl
  simp only [Filter.takes, Filter.ofOptions, RunOptions.withoutPatterns, RunOptions.hasExtension,
    RunOptions.effectiveExtensions, nothing, Bool.and_eq_true, Bool.not_eq_true', Bool.not_false,
    and_true]
  exact and_right_comm

section Moved

variable {w : Workspace} {o : RunOptions} {dir : String} {t' : FileTree} {parser : SourceParser}

/-- With the patterns as options, the file gets through: they match neither it nor a directory above it,
and the ignore files that there are let it pass. -/
def PassesOptions (w : Workspace) (o : RunOptions) (dir p : String) : Prop :=
  ∃ dirs, Offered w.files (Path.clean dir) dirs p ∧
    (Filter.ofOptions dir o.withoutPatterns).takes p ∧
    (IgnoreRules.ofPatterns dir o.excluding).ignores p = false ∧
    Unpruned (.ofPatterns dir o.excluding) (Path.clean dir) dirs ∧
    (ignoreRulesBelow w.files ignoreFileName (Path.clean dir) {}).ignores p = false

/-- With the ignore files of the second tree, the file gets through. -/
def PassesFiles (w : Workspace) (o : RunOptions) (dir : String) (t' : FileTree) (p : String) : Prop :=
  ∃ dirs, Offered w.files (Path.clean dir) dirs p ∧
    (Filter.ofOptions dir o.withoutPatterns).takes p ∧
    (ignoreRulesBelow t' ignoreFileName (Path.clean dir) {}).ignores p = false

/-- **Patterns as options** leave out files, and all below the directories that they match. -/
theorem lints_by_option (moved : MovedToFile w o dir t') (names : KeepsPaths parser)
    (rules : List Rule) :
    ∃ res, ((newRunner rules).run (contextOf parser (w, o)) false).result = .ok res ∧
      ∀ p, res.Lints p ↔ PassesOptions w o dir p ∧ (contextOf parser (w, o)).Parses p := by
  obtain ⟨data, ⟨old, -⟩, -⟩ := moved.more
  have loads : o.effectiveIgnoreFile ≠ "-" := by
    rw [moved.named]
    decide
  obtain ⟨files, found, mem⟩ :=
    found_here moved.regular moved.known moved.absolute moved.here loads old parser
  obtain ⟨res, result, lints⟩ := lints_run_iff (fun _ => rfl) names rules found
  refine ⟨res, result, fun p => (lints p).trans ?_⟩
  rw [mem p, moved.named]
  constructor
  · rintro ⟨⟨dirs, offered, taken, unpruned⟩, seen, parses⟩
    obtain ⟨taken, kept⟩ := takes_iff.mp taken
    exact ⟨⟨dirs, offered, taken, kept, unpruned, seen⟩, parses⟩
  · rintro ⟨⟨dirs, offered, taken, kept, unpruned, seen⟩, parses⟩
    exact ⟨⟨dirs, offered, takes_iff.mpr ⟨taken, kept⟩, unpruned⟩, seen, parses⟩

/-- **Patterns in an ignore file** leave out the files that they match. -/
theorem lints_by_file (moved : MovedToFile w o dir t') (names : KeepsPaths parser)
    (rules : List Rule) :
    ∃ res, ((newRunner rules).run (contextOf parser ({ w with files := t' }, o.withoutPatterns))
        false).result = .ok res ∧
      ∀ p, res.Lints p ↔ PassesFiles w o dir t' p ∧ (contextOf parser (w, o)).Parses p := by
  obtain ⟨data, more, -⟩ := moved.more
  have hn := Path.names_cleanComponents moved.absolute
  have place := Path.clean_of_isAbsolute moved.absolute
  have loads : o.withoutPatterns.effectiveIgnoreFile ≠ "-" := by
    show o.effectiveIgnoreFile ≠ "-"
    rw [moved.named]
    decide
  obtain ⟨old, new⟩ := more
  obtain ⟨files, found, mem⟩ := @found_here { w with files := t' } moved.regular' o.withoutPatterns
    dir moved.known moved.absolute moved.here loads _ new parser
  obtain ⟨res, result, lints⟩ := lints_run_iff (fun _ => rfl) names rules found
  have named : o.withoutPatterns.effectiveIgnoreFile = ignoreFileName := moved.named
  have parses_iff {dirs : List String} {p : String}
      (offered : Offered w.files (Path.ofComponents true (Path.cleanComponents dir)) dirs p) :
      (contextOf parser ({ w with files := t' }, o.withoutPatterns)).Parses p ↔
        (contextOf parser (w, o)).Parses p :=
    parses_congr (stat_oneMore moved.regular moved.regular' hn ⟨old, new⟩ rfl offered) rfl rfl
  refine ⟨res, result, fun p => (lints p).trans ?_⟩
  rw [mem p, named, Sought, PassesFiles, place]
  constructor
  · rintro ⟨⟨dirs, offered, taken, -⟩, seen, parses⟩
    have offered :=
      (offered_oneMore_iff moved.regular moved.regular' hn ⟨old, new⟩ rfl).mp offered
    exact ⟨⟨dirs, offered, taken, seen⟩, (parses_iff offered).mp parses⟩
  · rintro ⟨⟨dirs, offered, taken, seen⟩, parses⟩
    have offered' :=
      (offered_oneMore_iff moved.regular moved.regular' hn ⟨old, new⟩ rfl).mpr offered
    exact ⟨⟨dirs, offered', taken, fun _ _ _ => rfl⟩, seen, (parses_iff offered).mpr parses⟩

/-- The rules of the patterns stand among those of the other ignore files. -/
theorem rules_moved (moved : MovedToFile w o dir t') :
    ∃ before after,
      (ignoreRulesBelow w.files ignoreFileName (Path.clean dir) {}).rules = before ++ after ∧
      (ignoreRulesBelow t' ignoreFileName (Path.clean dir) {}).rules =
        before ++ (IgnoreRules.ofPatterns dir o.excluding).rules ++ after := by
  obtain ⟨data, more, text⟩ := moved.more
  have hn := Path.names_cleanComponents moved.absolute
  have place := Path.clean_of_isAbsolute moved.absolute
  have base : IgnoreRules.ofPatterns dir o.excluding =
      .ofPatterns (Path.ofComponents true (Path.cleanComponents dir)) o.excluding := by
    simp only [IgnoreRules.ofPatterns, IgnoreRules.add, place, Path.clean_ofComponents hn]
  rw [place, base]
  exact rules_of_oneMore moved.regular moved.regular' hn more moved.lines moved.short text

/-- Without other ignore files, only the directories that the patterns match make a difference. -/
theorem passes_iff_of_alone (moved : MovedToFile w o dir t')
    (alone : (ignoreRulesBelow w.files ignoreFileName (Path.clean dir) {}).rules = []) {p : String} :
    PassesOptions w o dir p ↔ PassesFiles w o dir t' p ∧
      ∃ dirs, Offered w.files (Path.clean dir) dirs p ∧
        Unpruned (.ofPatterns dir o.excluding) (Path.clean dir) dirs := by
  obtain ⟨before, after, others, loaded⟩ := rules_moved moved
  rw [alone] at others
  obtain ⟨rfl, rfl⟩ := List.append_eq_nil_iff.mp others.symm
  have silent : (ignoreRulesBelow w.files ignoreFileName (Path.clean dir) {}).ignores p = false := by
    rw [IgnoreRules.ignores, alone]
    rfl
  have same : (ignoreRulesBelow t' ignoreFileName (Path.clean dir) {}).ignores p =
      (IgnoreRules.ofPatterns dir o.excluding).ignores p := by
    rw [IgnoreRules.ignores, loaded, IgnoreRules.ignores]
    simp
  constructor
  · rintro ⟨dirs, offered, taken, kept, unpruned, -⟩
    exact ⟨⟨dirs, offered, taken, same.trans kept⟩, dirs, offered, unpruned⟩
  · rintro ⟨⟨-, -, taken, seen⟩, dirs, offered, unpruned⟩
    exact ⟨dirs, offered, taken, same.symm.trans seen, unpruned, silent⟩

/-- Where nothing is taken in again and a matched directory stands for all below it, there is no
difference. -/
theorem passes_iff_of_sound (moved : MovedToFile w o dir t')
    (plain : ∀ r ∈ (ignoreRulesBelow w.files ignoreFileName (Path.clean dir) {}).rules,
      r.negated = false)
    (sound : ∀ pattern ∈ o.excluding, IgnoreRule.Sound pattern)
    (outside : (IgnoreRules.ofPatterns dir o.excluding).ignores (Path.clean dir) = false)
    {p : String} : PassesOptions w o dir p ↔ PassesFiles w o dir t' p := by
  obtain ⟨before, after, others, loaded⟩ := rules_moved moved
  have all : ∀ r ∈ (ignoreRulesBelow t' ignoreFileName (Path.clean dir) {}).rules,
      r.negated = false := by
    rw [others] at plain
    rw [loaded]
    simp only [List.forall_mem_append] at plain ⊢
    exact ⟨⟨plain.1, IgnoreRules.not_negated_of_sound sound⟩, plain.2⟩
  have ignored_iff := @IgnoreRules.ignores_among _ _ _ _ _ all others loaded p
  refine exists_congr fun dirs => ?_
  constructor
  · rintro ⟨offered, taken, kept, -, seen⟩
    exact ⟨offered, taken, ignored_iff.mpr ⟨kept, seen⟩⟩
  · rintro ⟨offered, taken, seen⟩
    obtain ⟨kept, seen⟩ := ignored_iff.mp seen
    have place : Path.absolute dir "." = Path.clean dir := Path.absolute_here moved.absolute
    have unpruned := unpruned_of_takes moved.regular moved.absolute sound outside
      (place ▸ offered) (takes_iff.mpr ⟨taken, kept⟩)
    exact ⟨offered, taken, kept, place ▸ unpruned, seen⟩

/-- **Patterns as options and in an ignore file.**  Where there is no other ignore file, the files
that are linted with the patterns as options are those that are linted with the patterns in a file, and
that lie below no directory that the patterns match.  They are the same files in any case when nothing
is taken in again, by the patterns or by other ignore files, and the patterns leave out what lies below
the directories that they match. -/
theorem lints_alike_unless_pruned (moved : MovedToFile w o dir t') (names : KeepsPaths parser)
    (rules : List Rule) :
    ∃ res res',
      ((newRunner rules).run (contextOf parser (w, o)) false).result = .ok res ∧
      ((newRunner rules).run (contextOf parser ({ w with files := t' }, o.withoutPatterns))
        false).result = .ok res' ∧
      ((ignoreRulesBelow w.files ignoreFileName (Path.clean dir) {}).rules = [] →
        ∀ p, res.Lints p ↔ res'.Lints p ∧ ∃ dirs, Offered w.files (Path.clean dir) dirs p ∧
          Unpruned (.ofPatterns dir o.excluding) (Path.clean dir) dirs) ∧
      ((∀ r ∈ (ignoreRulesBelow w.files ignoreFileName (Path.clean dir) {}).rules,
          r.negated = false) →
        (∀ pattern ∈ o.excluding, IgnoreRule.Sound pattern) →
        (IgnoreRules.ofPatterns dir o.excluding).ignores (Path.clean dir) = false →
        ∀ p, res.Lints p ↔ res'.Lints p) := by
  obtain ⟨res, result, lints⟩ := lints_by_option moved names rules
  obtain ⟨res', result', lints'⟩ := lints_by_file moved names rules
  refine ⟨res, res', result, result', fun alone p => ?_, fun plain sound outside p => ?_⟩
  · rw [lints p, lints' p, passes_iff_of_alone moved alone]
    exact and_right_comm
  · rw [lints p, lints' p, passes_iff_of_sound moved plain sound outside]

end Moved

/-- The library and the source with an ignore file that leaves the library out. -/
def libraryIgnored : FileTree where
  root := .dir [(".solidhunterignore", .file { content := "/lib".toUTF8 }),
    ("lib", .dir [("B.sol", .file { content := .empty })]),
    ("src", .dir [("A.sol", .file { content := .empty })])]

/-- All but the library. -/
def libraryLeftOut : RunOptions := { excluding := ["/lib"] }

theorem moved_librarySource : MovedToFile librarySource libraryLeftOut "/" libraryIgnored where
  known := rfl
  absolute := by decide
  here := rfl
  named := rfl
  regular := regular_librarySource
  regular' := by
    refine .dir (by decide) (by decide) ?_
    simp only [List.mem_cons, List.not_mem_nil, or_false, forall_eq_or_imp, forall_eq]
    exact ⟨.file _, regular_singleton (by decide) (.file _), regular_singleton (by decide) (.file _)⟩
  lines := by decide
  short := by decide
  more := by
    refine ⟨{ content := "/lib".toUTF8 }, @FileTree.OneMore.intro _ _ _ _ _ [] _ rfl rfl, ?_⟩
    rfl

theorem keepsPaths_treeless : KeepsPaths treeless := by
  rintro path content f ⟨⟩
  rfl

theorem rules_below_root {t : FileTree} (regular : t.root.Regular) {children : List (String × Entry)}
    (root : t.root = .dir children) :
    (ignoreRulesBelow t ignoreFileName "/" {}).rules = rulesBelow ignoreFileName "/" children := by
  have there : t.root.get? [] = some (.dir children) := congrArg some root
  exact rules_ignoreRulesBelow regular (fun _ h => absurd h List.not_mem_nil) there ignoreFileName {}

theorem lints_alike_unless_pruned_librarySource :
    MovedToFile librarySource libraryLeftOut "/" libraryIgnored ∧
      ∃ res res',
        ((newRunner []).run (contextOf treeless (librarySource, libraryLeftOut)) false).result =
          .ok res ∧
        ((newRunner []).run (contextOf treeless ({ librarySource with files := libraryIgnored },
          libraryLeftOut.withoutPatterns)) false).result = .ok res' ∧
        ∀ p, res.Lints p ↔ res'.Lints p := by
  obtain ⟨res, res', result, result', -, alike⟩ :=
    lints_alike_unless_pruned moved_librarySource keepsPaths_treeless []
  have others : (ignoreRulesBelow librarySource.files ignoreFileName "/" {}).rules = [] := by
    exact (rules_below_root regular_librarySource rfl).trans rfl
  have root : Path.clean "/" = "/" := by decide
  have plain : ∀ r ∈ (ignoreRulesBelow librarySource.files ignoreFileName "/" {}).rules,
      r.negated = false := by
    rw [others]
    simp
  have sound : ∀ pattern ∈ libraryLeftOut.excluding, IgnoreRule.Sound pattern :=
    List.forall_mem_singleton.mpr sound_lib
  exact ⟨moved_librarySource, res, res', result, result',
    alike (root ▸ plain) sound (by decide +kernel)⟩

/-- A library of which one directory is kept. -/
def keptInLibrary : Workspace where
  files := { root := .dir [("lib", .dir [("keep", .dir [("A.sol", .file { content := .empty })])])] }

/-- The library without the directory that is kept. -/
def libraryButKept : RunOptions := { excluding := ["lib", "!lib/keep"] }

/-- The same patterns, line by line. -/
def libraryButKeptFile : FileTree where
  root := .dir [(".solidhunterignore", .file { content := "lib\n!lib/keep".toUTF8 }),
    ("lib", .dir [("keep", .dir [("A.sol", .file { content := .empty })])])]

theorem moved_keptInLibrary : MovedToFile keptInLibrary libraryButKept "/" libraryButKeptFile where
  known := rfl
  absolute := by decide
  here := rfl
  named := rfl
  regular := regular_singleton (by decide) (regular_singleton (by decide)
    (regular_singleton (by decide) (.file _)))
  regular' := by
    refine .dir (by decide) (by decide) ?_
    simp only [List.mem_cons, List.not_mem_nil, or_false, forall_eq_or_imp, forall_eq]
    exact ⟨.file _, regular_singleton (by decide) (regular_singleton (by decide) (.file _))⟩
  lines := by decide
  short := by decide
  more := by
    refine ⟨{ content := "lib\n!lib/keep".toUTF8 }, @FileTree.OneMore.intro _ _ _ _ _ [] _ rfl rfl, ?_⟩
    rfl

/-- **Taken in again by the file only.**  As options the patterns keep the run out of the library, so
it never comes to the directory that the last pattern takes in again.  Those of an ignore file are asked
of the file in it, and it is linted. -/
theorem taken_in_again_by_file_only :
    MovedToFile keptInLibrary libraryButKept "/" libraryButKeptFile ∧
      ∃ res res',
        ((newRunner []).run (contextOf treeless (keptInLibrary, libraryButKept)) false).result =
          .ok res ∧
        ((newRunner []).run (contextOf treeless ({ keptInLibrary with files := libraryButKeptFile },
          libraryButKept.withoutPatterns)) false).result = .ok res' ∧
        ¬ res.Lints "/lib/keep/A.sol" ∧ res'.Lints "/lib/keep/A.sol" := by
  obtain ⟨res, result, lints⟩ := lints_by_option moved_keptInLibrary keepsPaths_treeless []
  obtain ⟨res', result', lints'⟩ := lints_by_file moved_keptInLibrary keepsPaths_treeless []
  have root : Path.clean "/" = "/" := by decide
  have top := keptInLibrary.files.stat_root
  refine ⟨moved_keptInLibrary, res, res', result, result', fun h => ?_, ?_⟩
  · obtain ⟨⟨dirs, offered, -, -, unpruned, -⟩, -⟩ := (lints _).mp h
    rw [root] at offered unpruned
    exact not_unpruned_of_single rfl (by decide +kernel) offered unpruned
  · have holds : Holds [("lib", .dir [("keep", .dir [("A.sol", .file { content := .empty })])])]
        ["lib", "keep"] "A.sol" { content := .empty } :=
      .deeper (List.mem_singleton_self _) (.deeper (List.mem_singleton_self _)
        (.here (List.mem_singleton_self _)))
    have place : Path.below (Path.ofComponents true []) (["lib", "keep"] ++ ["A.sol"]) =
        "/lib/keep/A.sol" := by decide
    have offered : Offered keptInLibrary.files "/" ["lib", "keep"] "/lib/keep/A.sol" := by
      rw [← place]
      exact .below top holds (by decide) (by decide)
    have there : keptInLibrary.files.root.get? [] = some keptInLibrary.files.root := rfl
    have stands : keptInLibrary.files.stat "/lib/keep/A.sol" = .ok (.file { content := .empty }) := by
      rw [← place]
      exact FileTree.stat_of_holds moved_keptInLibrary.regular
        (fun _ h => absurd h List.not_mem_nil) there holds
    have read : keptInLibrary.files.readSnapshot false "/lib/keep/A.sol" =
        .ok (.empty, ⟨"/lib/keep/A.sol", 0, 0, sha256 .empty⟩) := by
      rw [FileTree.readSnapshot, stands]
      rfl
    have taken : (contextOf treeless (keptInLibrary, libraryButKept)).takeUp "/lib/keep/A.sol" .empty =
        ({ path := "/lib/keep/A.sol" }, some (.ofBytes "/lib/keep/A.sol" .empty none)) :=
      RunContext.takeUp_source rfl
    have parses : (contextOf treeless (keptInLibrary, libraryButKept)).Parses "/lib/keep/A.sol" :=
      ⟨_, _, _, read, taken⟩
    have kept : (Filter.ofOptions "/" libraryButKept.withoutPatterns).takes "/lib/keep/A.sol" = true :=
      rfl
    have again : (ignoreRulesBelow libraryButKeptFile ignoreFileName "/" {}).ignores
        "/lib/keep/A.sol" = false := by
      rw [IgnoreRules.ignores, rules_below_root moved_keptInLibrary.regular' rfl]
      decide +kernel
    rw [lints', PassesFiles, root]
    exact ⟨⟨["lib", "keep"], offered, kept, again⟩, parses⟩

end SolidityLint
