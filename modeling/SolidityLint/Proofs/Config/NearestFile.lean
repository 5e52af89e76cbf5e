import SolidityLint.Config.Load
import SolidityLint.Proofs.FileTree.Regular

/-!
# Config — the nearest rule set

The search for a rule set climbs from a directory to the root and takes the rule set of the nearest
directory that holds one, unless it has to leave a repository or the home directory for it.

* `climb_ancestors`: the directories that a search runs through, which are finitely many.
* `answer_findIn`: what a search answers, with the home directory as the environment spells it.
* `nearest_rule_set_within_home_iff`: it goes beyond the home directory exactly when this stands on the
  way in another spelling.
* `search_leaves_misspelt_home`: a slash behind the home directory is enough for that.
-/

namespace SolidityLint

/-! ### The way up -/

/-- The directories from one on, each the one that holds the one before, up to the one that holds
itself. -/
inductive Climb : String → List String → Prop where
  | top {d : String} (h : Path.dir d = d) : Climb d [d]
  | up {d : String} {dirs : List String} (h : Path.dir d ≠ d) (above : Climb (Path.dir d) dirs) :
      Climb d (d :: dirs)

theorem Climb.unique {d : String} {dirs dirs' : List String} (h : Climb d dirs) (h' : Climb d dirs') :
    dirs = dirs' := by
  induction h generalizing dirs' with
  | top last =>
      cases h' with
      | top => rfl
      | up more => exact absurd last more
  | up more _ ih =>
      cases h' with
      | top last => exact absurd last more
      | up _ above => rw [ih above]

/-- **The way up ends** at the root. -/
theorem climb_ancestors {names : List String} (hn : Path.Names names) :
    Climb (Path.ofComponents true names) (Path.ancestors (Path.ofComponents true names)) := by
  have climb (back : List String) (hb : Path.Names back.reverse) :
      Climb (Path.ofComponents true back.reverse) (Path.ancestorsOf back) := by
    induction back with
    | nil => exact .top (by decide)
    | cons name back ih =>
        rw [List.reverse_cons] at hb ⊢
        have above := Path.dir_ofComponents hb
        have other : Path.ofComponents true back.reverse ≠
            Path.ofComponents true (back.reverse ++ [name]) := by
          intro same
          have lengths := congrArg List.length (Path.ofComponents_inj hb.of_append.1 hb same)
          simp at lengths
        rw [Path.ancestorsOf, List.reverse_cons]
        exact .up (above ▸ other) (above.symm ▸ ih hb.of_append.1)
  rw [Path.ancestors, Path.cleanComponents_ofComponents hn]
  simpa using climb names.reverse (by simpa using hn)

/-- All directories on the way up are lists of names. -/
theorem exists_names_of_mem_ancestors {names : List String} (hn : Path.Names names) {d : String}
    (h : d ∈ Path.ancestors (Path.ofComponents true names)) :
    ∃ front, Path.Names front ∧ d = Path.ofComponents true front := by
  have climb (back : List String) (hb : Path.Names back.reverse) (h : d ∈ Path.ancestorsOf back) :
      ∃ front, Path.Names front ∧ d = Path.ofComponents true front := by
    induction back with
    | nil =>
        rw [List.mem_singleton.mp h]
        exact ⟨[], List.forall_mem_nil _, by decide⟩
    | cons name back ih =>
        rcases List.mem_cons.mp h with rfl | above
        · exact ⟨_, hb, rfl⟩
        · rw [List.reverse_cons] at hb
          exact ih hb.of_append.1 above
  rw [Path.ancestors, Path.cleanComponents_ofComponents hn] at h
  exact climb names.reverse (by simpa using hn) h

/-! ### Answers -/

/-- The rule set file of a directory: the file there with the name that goes before. -/
inductive RuleSetFile (t : FileTree) (d : String) : String → Prop where
  | intro {better worse : List String} {name : String} (names : projectFiles = better ++ name :: worse)
      (there : t.isFile (Path.join [d, name]))
      (first : ∀ other ∈ better, ¬ t.isFile (Path.join [d, other])) :
      RuleSetFile t d (Path.join [d, name])

/-- The file is the rule set of the nearest of the directories that holds one; `nearer` are those in
front of it. -/
inductive Nearest (t : FileTree) : List String → List String → String → Prop where
  | intro {nearer further : List String} {d p : String} (there : RuleSetFile t d p)
      (none : ∀ n ∈ nearer, ∀ q, ¬ RuleSetFile t n q) : Nearest t (nearer ++ d :: further) nearer p

/-- What a search through directories answers that goes no further than those that stop it: the
nearest rule set, if nothing nearer stops it, and else nothing. -/
def Answer (t : FileTree) (stops : String → Prop) (dirs : List String) (p : String) : Prop :=
  (∃ nearer, Nearest t dirs nearer p ∧ ∀ n ∈ nearer, ¬ stops n) ∨
    p = "" ∧ ∀ nearer q, Nearest t dirs nearer q → ∃ n ∈ nearer, stops n

/-- The top of a repository. -/
def IsRepositoryTop (t : FileTree) (d : String) : Prop :=
  ∃ m ∈ repositoryMarkers, t.isDir (Path.join [d, m])

theorem ruleSetFile_iff {t : FileTree} {d p : String} :
    RuleSetFile t d p ↔ (projectFiles.map fun name => Path.join [d, name]).find? t.isFile = some p := by
  rw [List.find?_eq_some_iff_append]
  constructor
  · intro h
    cases h with
    | @intro better worse name names there first =>
        refine ⟨there, better.map fun name => Path.join [d, name],
          worse.map fun name => Path.join [d, name], by rw [names]; simp, ?_⟩
        simpa using first
  · rintro ⟨there, before, after, split, first⟩
    obtain ⟨better, rest, names, rfl, more⟩ := List.map_eq_append_iff.mp split
    obtain ⟨name, worse, rfl, rfl, rfl⟩ := List.map_eq_cons_iff.mp more
    exact .intro names there (by simpa using first)

theorem find?_eq_none_iff {t : FileTree} {d : String} :
    (projectFiles.map fun name => Path.join [d, name]).find? t.isFile = none ↔
      ∀ q, ¬ RuleSetFile t d q := by
  simp only [ruleSetFile_iff, Option.eq_none_iff_forall_ne_some]

theorem Nearest.cons_iff {t : FileTree} {d p : String} {dirs nearer : List String} :
    Nearest t (d :: dirs) nearer p ↔ (nearer = [] ∧ RuleSetFile t d p) ∨
      ∃ others, nearer = d :: others ∧ (∀ q, ¬ RuleSetFile t d q) ∧ Nearest t dirs others p := by
  constructor
  · intro h
    generalize whole : d :: dirs = all at h
    cases h with
    | @intro nearer further d' p there none =>
        cases nearer with
        | nil =>
            cases whole
            exact .inl ⟨rfl, there⟩
        | cons n nearer =>
            cases whole
            obtain ⟨own, others⟩ := List.forall_mem_cons.mp none
            exact .inr ⟨nearer, rfl, own, .intro there others⟩
  · rintro (⟨rfl, there⟩ | ⟨others, rfl, own, h⟩)
    · exact .intro there (List.forall_mem_nil _)
    · cases h with
      | @intro nearer further d' _ there none =>
          have none := List.forall_mem_cons.mpr ⟨own, none⟩
          rw [← List.cons_append]
          exact .intro there none

theorem Nearest.not_nil {t : FileTree} {nearer : List String} {p : String} :
    ¬ Nearest t [] nearer p := by
  generalize none : ([] : List String) = dirs
  rintro ⟨⟩
  simp at none

/-- There is one nearest rule set. -/
theorem Nearest.unique {t : FileTree} {dirs nearer nearer' : List String} {p p' : String}
    (h : Nearest t dirs nearer p) (h' : Nearest t dirs nearer' p') : nearer = nearer' ∧ p = p' := by
  induction dirs generalizing nearer nearer' with
  | nil => exact absurd h Nearest.not_nil
  | cons d dirs ih =>
      rw [Nearest.cons_iff] at h h'
      rcases h with ⟨rfl, there⟩ | ⟨others, rfl, none, further⟩ <;>
        rcases h' with ⟨rfl, there'⟩ | ⟨others', rfl, none', further'⟩
      · rw [ruleSetFile_iff] at there there'
        exact ⟨rfl, Option.some.inj (there.symm.trans there')⟩
      · exact absurd there (none' _)
      · exact absurd there' (none _)
      · obtain ⟨rfl, same⟩ := ih further further'
        exact ⟨rfl, same⟩

theorem Nearest.subset {t : FileTree} {dirs nearer : List String} {p : String}
    (h : Nearest t dirs nearer p) : nearer ⊆ dirs := by
  cases h with
  | intro => exact List.subset_append_left _ _

theorem RuleSetFile.ne_empty {t : FileTree} {d p : String} (absolute : Path.isAbsolute d)
    (h : RuleSetFile t d p) : p ≠ "" := by
  cases h with
  | @intro better worse name names there first =>
      have listed : name ∈ projectFiles := by simp [names]
      have solid : name ≠ "" := by
        rintro rfl
        exact absurd listed (by decide)
      have rooted := Path.isAbsolute_append (Path.isAbsolute_append absolute "/") name
      rw [Path.join_of_ne_empty (Path.ne_empty_of_isAbsolute absolute) solid,
        Path.clean_of_isAbsolute rooted]
      exact Path.ne_empty_of_isAbsolute (Path.isAbsolute_ofComponents _)

/-! ### The search -/

theorem isRepositoryTop_iff {t : FileTree} {d : String} :
    IsRepositoryTop t d ↔ (repositoryMarkers.any fun m => t.isDir (Path.join [d, m])) = true := by
  simp [IsRepositoryTop]

/-- A directory that stops a search without an answer of its own. -/
theorem Answer.stopped {t : FileTree} {stops : String → Prop} {d : String} {dirs : List String}
    (none : ∀ q, ¬ RuleSetFile t d q) (stop : stops d) : Answer t stops (d :: dirs) "" := by
  refine .inr ⟨rfl, fun nearer q h => ?_⟩
  rcases Nearest.cons_iff.mp h with ⟨-, there⟩ | ⟨others, rfl, -, -⟩
  · exact absurd there (none q)
  · exact ⟨d, List.mem_cons_self, stop⟩

/-- A directory that a search goes through. -/
theorem Answer.passed {t : FileTree} {stops : String → Prop} {d p : String} {dirs : List String}
    (none : ∀ q, ¬ RuleSetFile t d q) (free : ¬ stops d) (h : Answer t stops dirs p) :
    Answer t stops (d :: dirs) p := by
  rcases h with ⟨nearer, nearest, frees⟩ | ⟨empty, stopped⟩
  · exact .inl ⟨d :: nearer, Nearest.cons_iff.mpr (.inr ⟨nearer, rfl, none, nearest⟩),
      List.forall_mem_cons.mpr ⟨free, frees⟩⟩
  · refine .inr ⟨empty, fun nearer q h => ?_⟩
    rcases Nearest.cons_iff.mp h with ⟨-, there⟩ | ⟨others, rfl, -, further⟩
    · exact absurd there (none q)
    · obtain ⟨n, among, stop⟩ := stopped others q further
      exact ⟨n, List.mem_cons_of_mem d among, stop⟩

/-- **What a search answers**, when the tops of repositories and one directory stop it. -/
theorem answer_findIn (t : FileTree) (home : String) {dirs : List String} (solid : "" ∉ dirs) :
    Answer t (fun d => IsRepositoryTop t d ∨ d = home) dirs (findIn t home dirs) := by
  induction dirs with
  | nil => exact .inr ⟨rfl, fun nearer q h => absurd h Nearest.not_nil⟩
  | cons d dirs ih =>
      obtain ⟨own, others⟩ := List.ne_and_not_mem_of_not_mem_cons solid
      rw [findIn]
      split
      · next p found => exact .inl ⟨[], .intro (ruleSetFile_iff.mpr found) (List.forall_mem_nil _),
          List.forall_mem_nil _⟩
      · next missing =>
          have none := find?_eq_none_iff.mp missing
          split
          · next top => exact .stopped none (.inl (isRepositoryTop_iff.mpr top))
          · next inner =>
              have inner : ¬ IsRepositoryTop t d := fun top => inner (isRepositoryTop_iff.mp top)
              split
              · next same =>
                  exact .stopped none (.inr (beq_iff_eq.mp (Bool.and_eq_true_iff.mp same).2))
              · next other =>
                  refine .passed none (not_or.mpr ⟨inner, ?_⟩) (ih others)
                  rintro rfl
                  exact other (by simpa using own.symm)

/-- The directory that a search starts in. -/
theorem findProjectFile_eq (w : Workspace) (env : Environment) {start : String}
    (known : Path.isAbsolute start ∨ ∃ cwd, w.current = some cwd ∧ Path.isAbsolute cwd) :
    ∃ names, Path.Names names ∧
      Path.absolute (w.current.getD "/") start = Path.ofComponents true names ∧
      findProjectFile w env false start =
        .ok (findIn w.files (homeOf env) (Path.ancestors (Path.ofComponents true names))) := by
  by_cases absolute : Path.isAbsolute start
  · have text : Path.absolute (w.current.getD "/") start = Path.clean start := if_pos absolute
    have solid : (start == "") = false := beq_eq_false_iff_ne.mpr (Path.ne_empty_of_isAbsolute absolute)
    have clean := Path.clean_of_isAbsolute absolute
    refine ⟨_, Path.names_cleanComponents absolute, text.trans clean, ?_⟩
    simp [findProjectFile, solid, absolute, clean, bind, Except.bind]
  · obtain ⟨cwd, current, rooted⟩ := known.resolve_left absolute
    obtain ⟨names, hn, text⟩ := Path.exists_names_absolute rooted start
    refine ⟨names, hn, by rw [current]; exact text, ?_⟩
    rw [Path.absolute, if_neg absolute] at text
    by_cases empty : start = ""
    · have joined : Path.join [cwd, ""] = Path.clean cwd := by
        simp [Path.join, Path.ne_empty_of_isAbsolute rooted]
      rw [empty, joined] at text
      simp [findProjectFile, empty, Workspace.currentDir, current, rooted, text, bind, Except.bind]
    · simp [findProjectFile, empty, absolute, current, text, bind, Except.bind]

/-! ### The home directory -/

/-- A directory is the home directory when this has its path, or leads to the same place. -/
def IsHome (t : FileTree) (home d : String) : Prop :=
  Path.isAbsolute home ∧
    (Path.clean home = d ∨ ∃ real, t.realPath home = .ok real ∧ t.realPath d = .ok real)

/-- **The nearest rule set within the home directory.**  A search from a directory ends, and its
answer is the rule set of the nearest directory that holds one on the way up to the root, unless
one in front of it is the top of a repository or has the path that the environment gives for the
home directory.  So it is the answer within the home directory exactly when the search has not gone
through the home directory under another path. -/
theorem nearest_rule_set_within_home_iff (w : Workspace) (env : Environment) {start : String}
    (known : Path.isAbsolute start ∨ ∃ cwd, w.current = some cwd ∧ Path.isAbsolute cwd) :
    ∃ dirs p, Climb (Path.absolute (w.current.getD "/") start) dirs ∧
      findProjectFile w env false start = .ok p ∧
      Answer w.files (fun d => IsRepositoryTop w.files d ∨ d = homeOf env) dirs p ∧
      (Answer w.files (fun d => IsRepositoryTop w.files d ∨ IsHome w.files (homeOf env) d) dirs p ↔
        ∀ nearer, Nearest w.files dirs nearer p → ∀ d ∈ nearer, ¬ IsHome w.files (homeOf env) d) := by
  obtain ⟨names, hn, dir, found⟩ := findProjectFile_eq w env known
  have spelt {d : String} (among : d ∈ Path.ancestors (Path.ofComponents true names)) :
      Path.isAbsolute d ∧ Path.clean d = d := by
    obtain ⟨front, hf, rfl⟩ := exists_names_of_mem_ancestors hn among
    exact ⟨Path.isAbsolute_ofComponents front, Path.clean_ofComponents hf⟩
  have solid : "" ∉ Path.ancestors (Path.ofComponents true names) := fun among =>
    Path.ne_empty_of_isAbsolute (spelt among).1 rfl
  have answer := answer_findIn w.files (homeOf env) solid
  refine ⟨_, _, dir ▸ climb_ancestors hn, found, answer, ?_⟩
  generalize Path.ancestors (Path.ofComponents true names) = dirs at spelt answer
  generalize findIn w.files (homeOf env) dirs = p at answer
  constructor
  · rintro (⟨nearer', nearest', free⟩ | ⟨rfl, -⟩) nearer nearest d among isHome
    · rw [(nearest.unique nearest').1] at among
      exact free d among (.inr isHome)
    · cases nearest with
      | @intro nearer further holder _ there none =>
          exact there.ne_empty (spelt (by simp)).1 rfl
  · intro free
    rcases answer with ⟨nearer, nearest, frees⟩ | ⟨rfl, stopped⟩
    · refine .inl ⟨nearer, nearest, fun d among => ?_⟩
      rintro (top | isHome)
      · exact frees d among (.inl top)
      · exact free nearer nearest d among isHome
    · refine .inr ⟨rfl, fun nearer q nearest => ?_⟩
      obtain ⟨d, among, top | same⟩ := stopped nearer q nearest
      · exact ⟨d, among, .inl top⟩
      · obtain ⟨absolute, clean⟩ := spelt (nearest.subset among)
        exact ⟨d, among, .inr (same ▸ ⟨absolute, .inl clean⟩)⟩

/-! ### A slash behind the home directory -/

theorem isFile_child_iff {t : FileTree} (regular : t.root.Regular) {names : List String} {name : String}
    (h : Path.Names (names ++ [name])) :
    t.isFile (Path.join [Path.ofComponents true names, name]) = true ↔
      ∃ data, t.root.get? (names ++ [name]) = some (.file data) := by
  rw [Path.join_ofComponents h, FileTree.isFile]
  simp only [← FileTree.stat_iff regular h]
  split
  · next data there => simp [there]
  · next other => simpa using other

theorem isDir_child_iff {t : FileTree} (regular : t.root.Regular) {names : List String} {name : String}
    (h : Path.Names (names ++ [name])) :
    t.isDir (Path.join [Path.ofComponents true names, name]) = true ↔
      ∃ children, t.root.get? (names ++ [name]) = some (.dir children) := by
  rw [Path.join_ofComponents h, FileTree.isDir]
  simp only [← FileTree.stat_iff regular h]
  split
  · next e there => cases e <;> simp [there, Entry.isDir]
  · next trouble there => simp [there]

/-- Nothing stands in a directory that a search looks for. -/
theorem searched_in_vain {t : FileTree} (regular : t.root.Regular) {names : List String}
    (hn : Path.Names names)
    (none : ∀ name ∈ projectFiles ++ repositoryMarkers, t.root.get? (names ++ [name]) = none) :
    (∀ q, ¬ RuleSetFile t (Path.ofComponents true names) q) ∧
      ¬ IsRepositoryTop t (Path.ofComponents true names) := by
  have listed : Path.Names (projectFiles ++ repositoryMarkers) := by
    rw [Path.Names]
    decide
  have child {name : String} (h : name ∈ projectFiles ++ repositoryMarkers) :
      Path.Names (names ++ [name]) := hn.append (by simpa [Path.Names] using listed name h)
  constructor
  · rintro q ⟨split, there, -⟩
    have among : _ ∈ projectFiles ++ repositoryMarkers :=
      List.mem_append_left _ (split ▸ List.mem_append_right _ List.mem_cons_self)
    obtain ⟨data, there⟩ := (isFile_child_iff regular (child among)).mp there
    rw [none _ among] at there
    cases there
  · rintro ⟨marker, own, there⟩
    have among := List.mem_append_right projectFiles own
    obtain ⟨children, there⟩ := (isDir_child_iff regular (child among)).mp there
    rw [none _ among] at there
    cases there

/-- A rule set above a home directory, and a project inside. -/
def rulesAboveHome : Workspace where
  files := { root := .dir [("w", .dir [(".solidhunter.json", .file { content := "{}".toUTF8 }),
    ("home", .dir [("p", .dir [])])])] }

theorem regular_rulesAboveHome : rulesAboveHome.files.root.Regular := by
  have project : (Entry.dir [("p", .dir [])]).Regular := by
    refine .dir (by decide) (by decide) ?_
    simpa using .dir (by decide) (by decide) (by simp)
  refine .dir (by decide) (by decide) ?_
  simp only [List.mem_singleton, forall_eq]
  refine .dir (by decide) (by decide) ?_
  simp only [List.mem_cons, List.not_mem_nil, or_false, forall_eq_or_imp, forall_eq]
  exact ⟨.file _, project⟩

theorem names_project : Path.Names ["w", "home", "p"] := by
  rw [Path.Names]
  decide

theorem climb_rulesAboveHome : Climb "/w/home/p" ["/w/home/p", "/w/home", "/w", "/"] := by
  have climb := climb_ancestors names_project
  have dir : Path.ofComponents true ["w", "home", "p"] = "/w/home/p" := rfl
  have dirs : Path.ancestors "/w/home/p" = ["/w/home/p", "/w/home", "/w", "/"] := rfl
  rwa [dir, dirs] at climb

/-- On the way up from the project the rule set is behind the home directory. -/
theorem nearest_rulesAboveHome :
    Nearest rulesAboveHome.files ["/w/home/p", "/w/home", "/w", "/"] ["/w/home/p", "/w/home"]
        "/w/.solidhunter.json" ∧
      ∀ d ∈ ["/w/home/p", "/w/home"], ¬ IsRepositoryTop rulesAboveHome.files d := by
  have regular := regular_rulesAboveHome
  have inside : Path.Names (["w", "home"] ++ ["p"]) := names_project
  have empty : ∀ names ∈ [["w", "home", "p"], ["w", "home"]], ∀ name ∈ projectFiles ++ repositoryMarkers,
      rulesAboveHome.files.root.get? (names ++ [name]) = none := by
    simp only [projectFiles, repositoryMarkers, List.cons_append, List.nil_append,
      List.forall_mem_cons]
    simp
    decide
  have project := searched_in_vain regular names_project (empty _ (by simp))
  have home := searched_in_vain regular inside.of_append.1 (empty _ (by simp))
  have spelt : Path.ofComponents true ["w", "home", "p"] = "/w/home/p" ∧
      Path.ofComponents true ["w", "home"] = "/w/home" ∧ Path.ofComponents true ["w"] = "/w" ∧
      Path.join ["/w", ".solidhunter.json"] = "/w/.solidhunter.json" := by decide
  obtain ⟨hp, hh, hw, file⟩ := spelt
  rw [hp] at project
  rw [hh] at home
  have there : RuleSetFile rulesAboveHome.files "/w" "/w/.solidhunter.json" := by
    have own : Path.Names (["w"] ++ [".solidhunter.json"]) := by
      rw [Path.Names]
      decide
    rw [← file, ← hw]
    exact .intro rfl ((isFile_child_iff regular own).mpr ⟨_, rfl⟩) (List.forall_mem_nil _)
  have none : ∀ d ∈ ["/w/home/p", "/w/home"], ∀ q, ¬ RuleSetFile rulesAboveHome.files d q := by
    simpa using ⟨project.1, home.1⟩
  refine ⟨.intro there none, ?_⟩
  · simpa using ⟨project.2, home.2⟩

/-- The search stops at a home directory. -/
theorem nearest_rule_set_within_home_iff_rulesAboveHome :
    Path.isAbsolute "/w/home/p" ∧
      findProjectFile rulesAboveHome [("HOME", "/w/home")] false "/w/home/p" = .ok "" := by
  have absolute : Path.isAbsolute "/w/home/p" := by decide
  obtain ⟨dirs, p, climb, found, answer, -⟩ :=
    nearest_rule_set_within_home_iff rulesAboveHome [("HOME", "/w/home")] (.inl absolute)
  refine ⟨absolute, found.trans (congrArg Except.ok ?_)⟩
  have start : Path.absolute (rulesAboveHome.current.getD "/") "/w/home/p" = "/w/home/p" :=
    rfl
  rw [start] at climb
  obtain rfl := climb.unique climb_rulesAboveHome
  obtain ⟨nearest, -⟩ := nearest_rulesAboveHome
  rcases answer with ⟨nearer, nearest', free⟩ | ⟨empty, -⟩
  · obtain ⟨rfl, -⟩ := nearest.unique nearest'
    exact absurd (.inr rfl) (free "/w/home" (by simp))
  · exact empty

/-- **A slash behind the home directory** and the search does not stop there. -/
theorem search_leaves_misspelt_home :
    Climb "/w/home/p" ["/w/home/p", "/w/home", "/w", "/"] ∧
    IsHome rulesAboveHome.files "/w/home/" "/w/home" ∧
    findProjectFile rulesAboveHome [("HOME", "/w/home/")] false "/w/home/p" =
      .ok "/w/.solidhunter.json" ∧
    ¬ Answer rulesAboveHome.files
      (fun d => IsRepositoryTop rulesAboveHome.files d ∨ IsHome rulesAboveHome.files "/w/home/" d)
      ["/w/home/p", "/w/home", "/w", "/"] "/w/.solidhunter.json" ∧
    Answer rulesAboveHome.files
      (fun d => IsRepositoryTop rulesAboveHome.files d ∨ IsHome rulesAboveHome.files "/w/home/" d)
      ["/w/home/p", "/w/home", "/w", "/"] "" := by
  have isHome : IsHome rulesAboveHome.files "/w/home/" "/w/home" := ⟨by decide, .inl rfl⟩
  obtain ⟨nearest, inner⟩ := nearest_rulesAboveHome
  refine ⟨climb_rulesAboveHome, isHome, ?_, ?_, ?_⟩
  · have absolute : Path.isAbsolute "/w/home/p" := by decide
    obtain ⟨names, hn, start, found⟩ :=
      findProjectFile_eq rulesAboveHome [("HOME", "/w/home/")] (.inl absolute)
    have spelt : Path.absolute (rulesAboveHome.current.getD "/") "/w/home/p" = "/w/home/p" :=
      rfl
    rw [← start, spelt] at found
    have dirs : Path.ancestors "/w/home/p" = ["/w/home/p", "/w/home", "/w", "/"] := rfl
    rw [found, dirs]
    have solid : "" ∉ ["/w/home/p", "/w/home", "/w", "/"] := by decide
    refine congrArg Except.ok ?_
    rcases answer_findIn rulesAboveHome.files "/w/home/" solid with
      ⟨nearer, nearest', -⟩ | ⟨-, stopped⟩
    · exact (nearest'.unique nearest).2
    · obtain ⟨d, among, top | same⟩ := stopped _ _ nearest
      · exact absurd top (inner d among)
      · exact absurd (same ▸ among) (by decide)
  · rintro (⟨nearer, nearest', free⟩ | ⟨empty, -⟩)
    · obtain ⟨rfl, -⟩ := nearest.unique nearest'
      exact free "/w/home" (by simp) (.inr isHome)
    · exact absurd empty (by decide)
  · refine .inr ⟨rfl, fun nearer q nearest' => ?_⟩
    obtain ⟨rfl, -⟩ := nearest.unique nearest'
    exact ⟨"/w/home", by simp, .inr isHome⟩

end SolidityLint
