import Mathlib
import SolidityLint.FrontEnd.Foundry
import SolidityLint.Proofs.FileTree.Regular
import SolidityLint.Proofs.Json.RoundTrip
import SolidityLint.Proofs.Text.Bytes

/-!
# FrontEnd — which tree a source has

The trees of a project come from artifacts of single contracts and from whole builds, which a walk
meets in any order.  Of the artifacts the first counts that says it belongs to a source, of the builds
the last, and an artifact goes before a build.

* `lookup_foldl_addArtifact`, `lookup_foldl_addBuild`: what the artifacts and the builds of a walk give.
* `foldl_take`: neither depends on where the others come.
* `lookup_foldl_addSource_perm`: nor does it matter in which order a build gives its sources.
* `index_prefers_first_artifact`: what the index has for a source.
-/

namespace SolidityLint.Artifacts

variable {root key name : String} {index : Artifacts} {doc tree : Json}

/-! ### Lookups -/

/-- Each name is there once. -/
def Once (entries : List (String × Json)) : Prop := (entries.map (·.1)).Nodup

theorem once_nil : Once [] := List.nodup_nil

theorem lookup_filter (keep : String → Bool) (entries : Artifacts) (key : String) :
    (entries.filter fun e => keep e.1).lookup key = if keep key then entries.lookup key else none := by
  induction entries with
  | nil => simp
  | cons e entries ih =>
      obtain ⟨k, v⟩ := e
      by_cases same : key = k
      · subst same
        cases kept : keep key <;> simp [kept, ih]
      · have other : (key == k) = false := beq_eq_false_iff_ne.mpr same
        cases kept : keep k <;> simp [List.lookup_cons, kept, other, ih]

theorem not_mem_keys_of_lookup {entries : Artifacts} (h : entries.lookup key = none) :
    key ∉ entries.map (·.1) := fun among => by
  obtain ⟨e, he, rfl⟩ := List.mem_map.mp among
  simpa using List.lookup_eq_none_iff.mp h e he

/-! ### Artifacts of single contracts -/

/-- An artifact has the tree, and says that it belongs to the source. -/
def Claims (root key : String) (doc tree : Json) : Prop :=
  tree? doc = some tree ∧ ∃ path, sourcePath? tree = some path ∧ path ≠ "" ∧ keyOf root path = key

/-- The tree that an artifact has for a source. -/
def claimed? (root key : String) (doc : Json) : Option Json :=
  (tree? doc).filter fun tree => (sourcePath? tree).any fun path => path != "" && keyOf root path == key

theorem claimed?_eq_some_iff : claimed? root key doc = some tree ↔ Claims root key doc tree := by
  rw [claimed?, Claims, Option.filter_eq_some_iff]
  refine and_congr_right fun _ => ?_
  cases sourcePath? tree <;> simp

/-- **An artifact** gives a source its tree if the source has none. -/
theorem lookup_addArtifact (root : String) (index : Artifacts) (doc : Json) (key : String) :
    (addArtifact root index doc).lookup key = (index.lookup key).or (claimed? root key doc) := by
  rw [addArtifact, claimed?]
  cases tree? doc with
  | none => simp
  | some tree =>
      rw [Option.filter_some]
      dsimp only
      cases sourcePath? tree with
      | none => simp
      | some path =>
          by_cases none : path = ""
          · simp [none]
          · by_cases same : keyOf root path = key
            · cases there : index.lookup key <;> simp [none, same, there]
            · have other : (key == keyOf root path) = false := beq_eq_false_iff_ne.mpr (Ne.symm same)
              by_cases there : (index.lookup (keyOf root path)).isSome
              · simp [none, same, there]
              · simp [none, same, there, List.lookup_cons, other]

theorem once_addArtifact (once : Once index) (root : String) (doc : Json) :
    Once (addArtifact root index doc) := by
  rw [addArtifact]
  split
  · exact once
  · split
    · exact once
    · exact once
    · dsimp only
      split
      · exact once
      · next free =>
          have absent := not_mem_keys_of_lookup (Option.not_isSome_iff_eq_none.mp free)
          exact List.nodup_cons.mpr ⟨absent, once⟩

/-- **Of artifacts the first counts.** -/
theorem lookup_foldl_addArtifact (docs : List Json) (index : Artifacts) (key : String) :
    (docs.foldl (addArtifact root) index).lookup key =
      (index.lookup key).or (docs.findSome? (claimed? root key)) := by
  induction docs generalizing index with
  | nil => simp
  | cons doc docs ih =>
      rw [List.foldl_cons, ih, lookup_addArtifact, Option.or_assoc, List.findSome?_cons]
      cases claimed? root key doc <;> simp

/-! ### Builds -/

/-- The tree that a source of a build has, if it is the one of the key. -/
def given? (root key : String) (source : String × Json) : Option Json :=
  if keyOf root source.1 = key then tree? source.2 else none

/-- A build has the tree for the source. -/
def Gives (root key : String) (doc tree : Json) : Prop :=
  ∃ sources, buildSources? doc = some sources ∧
    ∃ source ∈ sources, keyOf root source.1 = key ∧ tree? source.2 = some tree

/-- The tree that a build has for a source. -/
def built? (root key : String) (doc : Json) : Option Json :=
  (buildSources? doc).bind fun sources => sources.reverse.findSome? (given? root key)

theorem lookup_addSource (root : String) (index : Artifacts) (source : String × Json) (key : String) :
    (addSource root index source).lookup key = (given? root key source).or (index.lookup key) := by
  rw [addSource, given?]
  cases tree? source.2 with
  | none => simp
  | some tree =>
      by_cases same : keyOf root source.1 = key
      · simp [same]
      · have other : (key == keyOf root source.1) = false := beq_eq_false_iff_ne.mpr (Ne.symm same)
        rw [List.lookup_cons, other, if_neg same, Option.none_or]
        simp [lookup_filter (fun k => k != keyOf root source.1), Ne.symm same]

theorem lookup_foldl_addSource (sources : List (String × Json)) (index : Artifacts) (key : String) :
    (sources.foldl (addSource root) index).lookup key =
      (sources.reverse.findSome? (given? root key)).or (index.lookup key) := by
  induction sources generalizing index with
  | nil => simp
  | cons source sources ih =>
      rw [List.foldl_cons, ih, lookup_addSource, ← Option.or_assoc, List.reverse_cons,
        List.findSome?_append]
      simp

/-- **A build** gives its sources their trees, whatever they had. -/
theorem lookup_addBuild (root : String) (index : Artifacts) (doc : Json) (key : String) :
    (addBuild root index doc).lookup key = (built? root key doc).or (index.lookup key) := by
  rw [addBuild, built?]
  cases buildSources? doc with
  | none => simp
  | some sources => exact lookup_foldl_addSource sources index key

/-- **Of builds the last counts.** -/
theorem lookup_foldl_addBuild (docs : List Json) (index : Artifacts) (key : String) :
    (docs.foldl (addBuild root) index).lookup key =
      (docs.reverse.findSome? (built? root key)).or (index.lookup key) := by
  induction docs generalizing index with
  | nil => simp
  | cons doc docs ih =>
      rw [List.foldl_cons, ih, lookup_addBuild, ← Option.or_assoc, List.reverse_cons,
        List.findSome?_append]
      simp

theorem once_addSource (once : Once index) (root : String) (source : String × Json) :
    Once (addSource root index source) := by
  rw [addSource]
  split
  · refine List.nodup_cons.mpr ⟨by simp, ?_⟩
    exact once.sublist (List.filter_sublist.map _)
  · exact once

theorem once_addBuild (once : Once index) (root : String) (doc : Json) :
    Once (addBuild root index doc) := by
  rw [addBuild]
  split
  · exact once
  · next sources _ =>
      exact sources.foldlRecOn (addSource root) (motive := Once) once
        fun _ once source _ => once_addSource once root source

/-! ### The sources of one build -/

/-- No two of the names are spellings of one source. -/
def SpelledOnce (root : String) (sources : List (String × Json)) : Prop :=
  ∀ s ∈ sources, ∀ s' ∈ sources, keyOf root s.1 = keyOf root s'.1 → s.1 = s'.1

theorem SpelledOnce.perm {sources sources' : List (String × Json)} (spelled : SpelledOnce root sources)
    (perm : sources'.Perm sources) : SpelledOnce root sources' := fun s hs s' hs' =>
  spelled s (perm.mem_iff.mp hs) s' (perm.mem_iff.mp hs')

theorem given?_eq_some_iff {source : String × Json} : given? root key source = some tree ↔
    keyOf root source.1 = key ∧ tree? source.2 = some tree := by
  rw [given?]
  split <;> simp [*]

/-- With no source in two spellings, a build has at most one tree for a source. -/
theorem findSome?_given?_eq_some_iff {sources : List (String × Json)} (names : Once sources)
    (spelled : SpelledOnce root sources) : sources.findSome? (given? root key) = some tree ↔
      ∃ source ∈ sources, keyOf root source.1 = key ∧ tree? source.2 = some tree := by
  constructor
  · intro found
    obtain ⟨source, among, given⟩ := List.exists_of_findSome?_eq_some found
    exact ⟨source, among, given?_eq_some_iff.mp given⟩
  · rintro ⟨source, among, same, has⟩
    have some_given : (sources.findSome? (given? root key)).isSome :=
      List.findSome?_isSome_iff.mpr ⟨source, among, by simp [given?_eq_some_iff.mpr ⟨same, has⟩]⟩
    obtain ⟨other, found⟩ := Option.isSome_iff_exists.mp some_given
    obtain ⟨source', among', given⟩ := List.exists_of_findSome?_eq_some found
    obtain ⟨same', has'⟩ := given?_eq_some_iff.mp given
    obtain rfl : source' = source := List.inj_on_of_nodup_map names among' among
      (spelled source' among' source among (same'.trans same.symm))
    rw [found, ← has', has]

/-- **The order in which a build gives its sources** does not matter. -/
theorem lookup_foldl_addSource_perm {sources sources' : List (String × Json)}
    (names : Once sources) (spelled : SpelledOnce root sources)
    (perm : sources'.Perm sources) (index : Artifacts) (key : String) :
    (sources'.foldl (addSource root) index).lookup key =
      (sources.foldl (addSource root) index).lookup key := by
  have given {sources' : List (String × Json)} (perm : sources'.Perm sources) (tree : Json) :
      sources'.reverse.findSome? (given? root key) = some tree ↔
        ∃ source ∈ sources, keyOf root source.1 = key ∧ tree? source.2 = some tree := by
    have perm' := sources'.reverse_perm.trans perm
    rw [findSome?_given?_eq_some_iff ((perm'.map _).nodup_iff.mpr names) (spelled.perm perm')]
    simp only [perm'.mem_iff]
  rw [lookup_foldl_addSource, lookup_foldl_addSource]
  exact congrArg (Option.or · _) (Option.ext fun tree => (given perm tree).trans (given .rfl tree).symm)

theorem mem_keys_lastOfKey {k : String} {pairs : List (String × Json)}
    (h : k ∈ (lastOfKey pairs).map (·.1)) : k ∈ pairs.map (·.1) := by
  fun_induction lastOfKey pairs with
  | case1 => exact h
  | case2 _ _ _ _ ih => exact List.mem_cons_of_mem _ (ih h)
  | case3 _ _ _ _ ih =>
      rcases List.mem_cons.mp h with rfl | later
      · exact List.mem_cons_self
      · exact List.mem_cons_of_mem _ (ih later)

theorem once_lastOfKey (pairs : List (String × Json)) : Once (lastOfKey pairs) := by
  fun_induction lastOfKey pairs with
  | case1 => exact .nil
  | case2 _ _ _ _ ih => exact ih
  | case3 k v rest last ih =>
      refine List.nodup_cons.mpr ⟨fun again => last ?_, ih⟩
      simpa using mem_keys_lastOfKey again

theorem foldlM_induction {α β : Type} {P : β → Prop} {step : β → α → Option β}
    (keeps : ∀ b a b', P b → step b a = some b' → P b') {items : List α} {b b' : β} (start : P b)
    (h : items.foldlM step b = some b') : P b' := by
  induction items generalizing b with
  | nil => exact Option.some.inj h ▸ start
  | cons a items ih =>
      obtain ⟨next, stepped, rest⟩ := Option.bind_eq_some_iff.mp h
      exact ih (keeps b a next start stepped) rest

/-- A build has each name once. -/
theorem once_buildSources {sources : List (String × Json)} (h : buildSources? doc = some sources) :
    Once sources := by
  have takeSources {found found' : List (String × Json)} {value : Json}
      (_ : Once found) (h : takeSources found value = some found') : Once found' := by
    rw [Artifacts.takeSources.eq_def] at h
    split at h
    · exact Option.some.inj h ▸ .nil
    · split at h
      · exact Option.some.inj h ▸ once_lastOfKey _
      · cases h
    · cases h
  have takeOutput {found found' : List (String × Json)} {value : Json}
      (once : Once found) (h : takeOutput found value = some found') : Once found' := by
    rw [Artifacts.takeOutput.eq_def] at h
    split at h
    · exact Option.some.inj h ▸ once
    · exact foldlM_induction (fun _ _ _ => takeSources) once h
    · cases h
  rw [buildSources?.eq_def] at h
  split at h
  · exact Option.some.inj h ▸ once_nil
  · exact foldlM_induction (fun _ _ _ => takeOutput) once_nil h
  · cases h

theorem built?_eq_some_iff
    (spelled : ∀ sources, buildSources? doc = some sources → SpelledOnce root sources) :
    built? root key doc = some tree ↔ Gives root key doc tree := by
  rw [built?, Option.bind_eq_some_iff]
  refine exists_congr fun sources => and_congr_right fun found => ?_
  have perm := sources.reverse_perm
  rw [findSome?_given?_eq_some_iff ((perm.map _).nodup_iff.mpr (once_buildSources found))
    ((spelled sources found).perm perm)]
  simp only [perm.mem_iff]

/-! ### The walk -/

/-- What the files of a walk say that are read and hold JSON. -/
def decoded (t : FileTree) (visits : List FileTree.Visit) : List (String × Json) :=
  (visits.filter isRead).filterMap fun v =>
    ((t.read v.path).toOption.bind fun content => Json.parse? (textOfBytes content)).map (v.path, ·)

/-- What the files below the output directory of a project say, in the order of a walk. -/
def documents (t : FileTree) (l : FoundryLayout) : List (String × Json) :=
  decoded t (t.walk (fun _ _ => false) l.outDir)

/-- Of these, what the builds say. -/
def builds (docs : List (String × Json)) : List Json := (docs.filter fun d => isBuildPath d.1).map (·.2)

/-- And what the artifacts of single contracts say. -/
def artifacts (docs : List (String × Json)) : List Json :=
  (docs.filter fun d => !isBuildPath d.1).map (·.2)

/-- **Artifacts and builds are kept apart**, however they follow each other. -/
theorem foldl_take (root : String) (docs : List (String × Json)) (found : Found) :
    docs.foldl (Found.take root) found =
      ⟨(artifacts docs).foldl (addArtifact root) found.artifacts,
        (builds docs).foldl (addBuild root) found.builds⟩ := by
  induction docs generalizing found with
  | nil => rfl
  | cons doc docs ih =>
      rw [List.foldl_cons, ih, Found.take]
      cases build : isBuildPath doc.1 <;> simp [artifacts, builds, build]

/-- **A walk** in which all that is to be read can be read. -/
theorem readAll_eq_ok {t : FileTree} {visits : List FileTree.Visit}
    (readable : ∀ v ∈ visits, isRead v → ∃ content, t.read v.path = .ok content) (found : Found) :
    readAll t root found visits = .ok ((decoded t visits).foldl (Found.take root) found) := by
  induction visits generalizing found with
  | nil => rfl
  | cons v visits ih =>
      obtain ⟨own, later⟩ := List.forall_mem_cons.mp readable
      rw [readAll]
      cases read : isRead v with
      | false => simpa [decoded, read] using ih later found
      | true =>
          obtain ⟨content, there⟩ := own read
          have rest := ih later (found.add root v.path content)
          rw [Found.add] at rest
          cases value : Json.parse? (textOfBytes content) <;>
            simpa [decoded, read, there, Found.add, value, Except.toOption] using rest

/-! ### The index -/

/-- The first of the documents that has a tree has this one. -/
def First (Has : Json → Json → Prop) (docs : List Json) (tree : Json) : Prop :=
  ∃ before doc after, docs = before ++ doc :: after ∧ Has doc tree ∧
    ∀ d ∈ before, ∀ other, ¬ Has d other

/-- The last of the documents that has a tree has this one. -/
def Last (Has : Json → Json → Prop) (docs : List Json) (tree : Json) : Prop :=
  ∃ before doc after, docs = before ++ doc :: after ∧ Has doc tree ∧
    ∀ d ∈ after, ∀ other, ¬ Has d other

/-- **What an index has whose own trees go before others.** -/
theorem lookup_append_filter (own others : Artifacts) (key : String) :
    (own ++ others.filter fun e => (own.lookup e.1).isNone).lookup key =
      (own.lookup key).or (others.lookup key) := by
  rw [List.lookup_append, lookup_filter (fun k => (own.lookup k).isNone)]
  cases own.lookup key <;> simp

theorem once_append_filter {own others : Artifacts} (once : Once own) (once' : Once others) :
    Once (own ++ others.filter fun e => (own.lookup e.1).isNone) := by
  rw [Once, List.map_append, List.nodup_append]
  refine ⟨once, once'.sublist (List.filter_sublist.map _), ?_⟩
  rintro _ hk _ hk' rfl
  obtain ⟨e, he, rfl⟩ := List.mem_map.mp hk'
  exact not_mem_keys_of_lookup (by simpa using (List.mem_filter.mp he).2) hk

theorem findSome?_iff_first {Has : Json → Json → Prop} {has? : Json → Option Json} {docs : List Json}
    (has : ∀ doc ∈ docs, ∀ tree, has? doc = some tree ↔ Has doc tree) :
    docs.findSome? has? = some tree ↔ First Has docs tree := by
  rw [List.findSome?_eq_some_iff]
  refine exists_congr fun before => exists_congr fun doc => exists_congr fun after => ?_
  refine and_congr_right fun split => ?_
  have among {d : Json} (hd : d ∈ before) : d ∈ docs := split ▸ List.mem_append_left _ hd
  refine and_congr (has doc (by simp [split]) tree) (forall₂_congr fun d hd => ?_)
  rw [Option.eq_none_iff_forall_ne_some]
  exact forall_congr' fun other => not_congr (has d (among hd) other)

theorem first_reverse_iff {Has : Json → Json → Prop} {docs : List Json} :
    First Has docs.reverse tree ↔ Last Has docs tree := by
  constructor
  · rintro ⟨before, doc, after, split, has, none⟩
    refine ⟨after.reverse, doc, before.reverse, ?_, has, fun d hd => none d (List.mem_reverse.mp hd)⟩
    simpa using congrArg List.reverse split
  · rintro ⟨before, doc, after, rfl, has, none⟩
    exact ⟨after.reverse, doc, before.reverse, by simp, has,
      fun d hd => none d (List.mem_reverse.mp hd)⟩

/-- **Which tree a source has**: that of the first artifact that claims it; if there is none, that of
the last build that gives it one; or else none. -/
theorem index_prefers_first_artifact (t : FileTree) (l : FoundryLayout) {out : Entry}
    (there : t.lstat l.outDir = .ok out)
    (readable : ∀ v ∈ t.walk (fun _ _ => false) l.outDir, isRead v →
      ∃ content, t.read v.path = .ok content)
    (spelled : ∀ build ∈ builds (documents t l), ∀ sources, buildSources? build = some sources →
      SpelledOnce l.root sources) :
    ∃ index, scan t l false = .ok index ∧ Once index ∧
      ∀ key tree, index.lookup key = some tree ↔
        First (Claims l.root key) (artifacts (documents t l)) tree ∨
        (∀ other, ¬ First (Claims l.root key) (artifacts (documents t l)) other) ∧
          Last (Gives l.root key) (builds (documents t l)) tree := by
  have read : readAll t l.root {} (t.walk (fun _ _ => false) l.outDir) =
      .ok ⟨(artifacts (documents t l)).foldl (addArtifact l.root) [],
        (builds (documents t l)).foldl (addBuild l.root) []⟩ := by
    rw [readAll_eq_ok readable, ← documents, foldl_take]
  refine ⟨_, by simp only [scan, there, Bool.false_eq_true, if_false, read]; rfl, ?_,
    fun key tree => ?_⟩
  · refine once_append_filter ?_ ?_
    · exact List.foldlRecOn _ _ (motive := Once) once_nil
        fun _ once doc _ => once_addArtifact once l.root doc
    · exact List.foldlRecOn _ _ (motive := Once) once_nil
        fun _ once doc _ => once_addBuild once l.root doc
  · have claims (tree : Json) :
        (artifacts (documents t l)).findSome? (claimed? l.root key) = some tree ↔
        First (Claims l.root key) (artifacts (documents t l)) tree :=
      findSome?_iff_first fun _ _ _ => claimed?_eq_some_iff
    have gives : (builds (documents t l)).reverse.findSome? (built? l.root key) = some tree ↔
        Last (Gives l.root key) (builds (documents t l)) tree := by
      rw [← first_reverse_iff]
      exact findSome?_iff_first fun build among _ =>
        built?_eq_some_iff (spelled build (List.mem_reverse.mp among))
    rw [lookup_append_filter, lookup_foldl_addArtifact, lookup_foldl_addBuild, ← gives]
    simp only [← claims, List.lookup_nil, Option.none_or, Option.or_none]
    cases (artifacts (documents t l)).findSome? (claimed? l.root key) <;> simp

/-- An artifact of a contract. -/
def artifactText : String := "\x7b\"ast\":\x7b\"absolutePath\":\"A.sol\"\x7d\x7d"

/-- A build of two sources, one of them without a tree. -/
def buildText : String :=
  "\x7b\"output\":\x7b\"sources\":\x7b\"A.sol\":\x7b\"ast\":true\x7d,"
    ++ "\"B.sol\":\x7b\"ast\":null\x7d\x7d\x7d\x7d"

/-- The file of the artifact. -/
def artifactFile : Entry := .file { content := artifactText.toUTF8 }

/-- The directory of the build. -/
def buildDir : Entry := .dir [("b.json", .file { content := buildText.toUTF8 })]

/-- A project with both. -/
def builtProject : FileTree :=
  { root := .dir [("out", .dir [("A.json", artifactFile), ("build-info", buildDir)])] }

theorem lstat_out : builtProject.lstat "/out" =
    .ok (.dir [("A.json", artifactFile), ("build-info", buildDir)]) :=
  FileTree.lstat_of_steps ["out"] rfl (by decide) rfl nofun

theorem walk_builtProject : builtProject.walk (fun _ _ => false) "/out" =
    [⟨"/out", "out", .dir [("A.json", artifactFile), ("build-info", buildDir)]⟩,
     ⟨"/out/A.json", "A.json", artifactFile⟩, ⟨"/out/build-info", "build-info", buildDir⟩,
     ⟨"/out/build-info/b.json", "b.json", .file { content := buildText.toUTF8 }⟩] := by
  have base : Path.base "/out" = "out" := rfl
  simp [FileTree.walk, lstat_out, base, FileTree.walkEntry, FileTree.walkChildren, artifactFile,
    buildDir]

theorem isRead_builtProject : (builtProject.walk (fun _ _ => false) "/out").filter isRead =
    [⟨"/out/A.json", "A.json", artifactFile⟩,
     ⟨"/out/build-info/b.json", "b.json", .file { content := buildText.toUTF8 }⟩] := by
  have single : isRead ⟨"/out/A.json", "A.json", artifactFile⟩ = true := rfl
  have build : isRead ⟨"/out/build-info/b.json", "b.json", .file { content := buildText.toUTF8 }⟩ =
      true := rfl
  rw [walk_builtProject, List.filter_cons_of_neg (by decide), List.filter_cons_of_pos single,
    List.filter_cons_of_neg (by decide), List.filter_cons_of_pos build, List.filter_nil]

theorem outDir_builtProject : FoundryLayout.outDir { root := "/" } = "/out" := rfl

/-- What the artifact says. -/
def artifactDoc : Json := .obj [("ast", .obj [("absolutePath", .str "A.sol")])]

/-- The sources of the build. -/
def builtSources : List (String × Json) :=
  [("A.sol", .obj [("ast", .bool true)]), ("B.sol", .obj [("ast", .null)])]

/-- What the build says. -/
def buildDoc : Json := .obj [("output", .obj [("sources", .obj builtSources)])]

theorem read_artifact : builtProject.read "/out/A.json" = .ok artifactText.toUTF8 :=
  FileTree.read_of_steps ["out", "A.json"] rfl (by decide) ⟨_, rfl, rfl⟩

theorem read_build : builtProject.read "/out/build-info/b.json" = .ok buildText.toUTF8 :=
  FileTree.read_of_steps ["out", "build-info", "b.json"] rfl (by decide)
    ⟨_, rfl, rfl⟩

theorem parse?_artifactText : Json.parse? artifactText = some artifactDoc := by
  have text : artifactText = artifactDoc.compact := rfl
  rw [text]
  exact Json.parse?_compact (by simp [artifactDoc, Json.numerals_obj, Json.numerals_str]) (by decide)

theorem parse?_buildText : Json.parse? buildText = some buildDoc := by
  have text : buildText = buildDoc.compact := rfl
  rw [text]
  exact Json.parse?_compact (by simp [buildDoc, builtSources, Json.numerals_obj, Json.numerals_bool,
    Json.numerals_null]) (by decide)

theorem documents_builtProject : documents builtProject { root := "/" } =
    [("/out/A.json", artifactDoc), ("/out/build-info/b.json", buildDoc)] := by
  rw [documents, outDir_builtProject, decoded, isRead_builtProject]
  simp only [List.filterMap_cons, List.filterMap_nil, read_artifact, read_build, Except.toOption,
    Option.bind_some, textOfBytes_toUTF8, parse?_artifactText, parse?_buildText, Option.map_some]

theorem claims_artifactDoc {key : String} {tree : Json} : Claims "/" key artifactDoc tree ↔
    key = "A.sol" ∧ tree = .obj [("absolutePath", .str "A.sol")] := by
  have own : tree? artifactDoc = some (.obj [("absolutePath", .str "A.sol")]) := rfl
  have source : sourcePath? (.obj [("absolutePath", .str "A.sol")]) = some "A.sol" := rfl
  have name : keyOf "/" "A.sol" = "A.sol" := rfl
  rw [Claims, own]
  constructor
  · rintro ⟨same, path, told, -, rfl⟩
    obtain rfl := Option.some.inj same
    obtain rfl := Option.some.inj (source.symm.trans told)
    exact ⟨name, rfl⟩
  · rintro ⟨rfl, rfl⟩
    exact ⟨rfl, "A.sol", source, by decide, name⟩

/-- The artifact goes before the build, though the build comes later and has the other source. -/
theorem index_prefers_first_artifact_builtProject :
    (∃ out, builtProject.lstat (FoundryLayout.outDir { root := "/" }) = .ok out) ∧
    (∀ v ∈ builtProject.walk (fun _ _ => false) (FoundryLayout.outDir { root := "/" }), isRead v →
      ∃ content, builtProject.read v.path = .ok content) ∧
    (∀ build ∈ builds (documents builtProject { root := "/" }), ∀ sources,
      buildSources? build = some sources → SpelledOnce "/" sources) ∧
    ∃ index, scan builtProject { root := "/" } false = .ok index ∧
      index.lookup "A.sol" = some (.obj [("absolutePath", .str "A.sol")]) ∧
      index.lookup "B.sol" = some .null := by
  have there : builtProject.lstat (FoundryLayout.outDir { root := "/" }) =
      .ok (.dir [("A.json", artifactFile), ("build-info", buildDir)]) := by
    rw [outDir_builtProject, lstat_out]
  have readable : ∀ v ∈ builtProject.walk (fun _ _ => false) (FoundryLayout.outDir { root := "/" }),
      isRead v → ∃ content, builtProject.read v.path = .ok content := by
    intro v among read
    have among := List.mem_filter.mpr ⟨among, read⟩
    rw [outDir_builtProject, isRead_builtProject] at among
    rcases List.mem_cons.mp among with rfl | among
    · exact ⟨_, read_artifact⟩
    · obtain rfl := List.mem_singleton.mp among
      exact ⟨_, read_build⟩
  have single : isBuildPath "/out/A.json" = false := rfl
  have whole : isBuildPath "/out/build-info/b.json" = true := rfl
  have artifactDocs : artifacts (documents builtProject { root := "/" }) = [artifactDoc] := by
    simp [documents_builtProject, artifacts, single, whole]
  have buildDocs : builds (documents builtProject { root := "/" }) = [buildDoc] := by
    simp [documents_builtProject, builds, single, whole]
  have given : buildSources? buildDoc = some builtSources := rfl
  have spelled : ∀ build ∈ builds (documents builtProject { root := "/" }), ∀ sources,
      buildSources? build = some sources → SpelledOnce "/" sources := by
    intro build among sources names
    rw [buildDocs] at among
    obtain rfl := List.mem_singleton.mp among
    obtain rfl := Option.some.inj (given.symm.trans names)
    have keys : keyOf "/" "A.sol" = "A.sol" ∧ keyOf "/" "B.sol" = "B.sol" := by decide
    simp [SpelledOnce, builtSources, keys]
  obtain ⟨index, scanned, -, has⟩ :=
    index_prefers_first_artifact builtProject { root := "/" } there readable spelled
  rw [artifactDocs, buildDocs] at has
  have gives : Gives "/" "B.sol" buildDoc .null :=
    ⟨builtSources, given, ("B.sol", .obj [("ast", .null)]), by simp [builtSources], rfl, rfl⟩
  refine ⟨⟨_, there⟩, readable, spelled, index, scanned, (has _ _).mpr (.inl ?_),
    (has _ _).mpr (.inr ⟨?_, [], buildDoc, [], rfl, gives, by simp⟩)⟩
  · exact ⟨[], artifactDoc, [], rfl, claims_artifactDoc.mpr ⟨rfl, rfl⟩, by simp⟩
  · rintro other ⟨before, doc, after, split, claims, -⟩
    have among : doc ∈ [artifactDoc] := by simp [split]
    rw [List.mem_singleton.mp among, claims_artifactDoc] at claims
    exact absurd claims.1 (by decide)

end SolidityLint.Artifacts
