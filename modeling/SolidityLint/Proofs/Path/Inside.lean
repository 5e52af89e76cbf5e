import SolidityLint.FrontEnd.Foundry
import SolidityLint.Proofs.Ignore.Coverage

/-!
# Path — three ways to ask what is inside a directory

Ignore rules ask for the component `..` in front of the way from the directory to a path; views of
a run and the index of build artifacts ask for its two letters, and so take a name below the
directory that begins with them for the way out.

* `IgnoreRule.inside?_eq`, `Path.relativeTo_eq`, `Artifacts.keyOf_eq`: each of the three on
  absolute paths in their shortest form.
* `Artifacts.finds_iff`: when the artifact of a source is found under its path.
* `ways_agree_unless_below_dots`: the three agree with the components of the paths, unless the first
  name below the directory begins with two dots.
-/

namespace SolidityLint

namespace Path

/-- An absolute path in its shortest form. -/
structure Shortest (p : String) : Prop where
  absolute : isAbsolute p
  clean : clean p = p

theorem Shortest.names {p : String} (h : Shortest p) : Names (components p) := by
  have names := names_cleanComponents h.absolute
  rw [← h.clean, clean_of_isAbsolute h.absolute, components_ofComponents names]
  exact names

theorem Shortest.ofComponents {p : String} (h : Shortest p) : ofComponents true (components p) = p := by
  have names := names_cleanComponents h.absolute
  have text := (clean_of_isAbsolute h.absolute).symm.trans h.clean
  rw [← text, components_ofComponents names]

/-- The components of a path below a directory. -/
def namesBelow (dir p : String) : List String := (components p).drop (components dir).length

/-- The way down from a directory to a path inside. -/
def wayDown (dir p : String) : String := ofComponents false (namesBelow dir p)

/-- A path is inside a directory when its components begin with those of the directory. -/
def Inside (dir p : String) : Prop := components dir <+: components p

instance (dir p : String) : Decidable (Inside dir p) :=
  inferInstanceAs (Decidable (_ <+: _))

theorem Inside.components_eq {dir p : String} (h : Inside dir p) :
    components p = components dir ++ namesBelow dir p :=
  List.prefix_iff_eq_append.mp h |>.symm

/-- The path is inside, and its first name below the directory begins with two dots. -/
structure BelowDots (dir p : String) : Prop where
  inside : Inside dir p
  dots : ∃ name ∈ (namesBelow dir p).head?, hasFront ".." name

/-! ### The text of a way down -/

theorem isPrefixOf_dots_append {name : List Char} (solid : name ≠ []) (here : name ≠ ['.'])
    (behind : List Char) : ['.', '.'].isPrefixOf (name ++ behind) = ['.', '.'].isPrefixOf name := by
  match name with
  | [] => exact absurd rfl solid
  | [c] =>
      have other : ('.' == c) = false := beq_eq_false_iff_ne.mpr fun dot => here (by rw [dot])
      simp [List.isPrefixOf, other]
  | c :: d :: name => simp [List.isPrefixOf]

/-- A way down begins with two dots when its first name does. -/
theorem hasFront_dots_ofComponents {names : List String} (h : Names names) :
    hasFront ".." (ofComponents false names) = true ↔ ∃ name ∈ names.head?, hasFront ".." name := by
  cases names with
  | nil => simp [ofComponents, hasFront]
  | cons name names =>
      have own := (List.forall_mem_cons.mp h).1
      have solid : name.toList ≠ [] := fun empty => own.nonempty (String.toList_eq_nil_iff.mp empty)
      have here : name.toList ≠ ['.'] := fun dot => own.here (String.toList_inj.mp dot)
      obtain ⟨behind, text⟩ : ∃ behind, (ofComponents false (name :: names)).toList =
          name.toList ++ behind := by
        cases names with
        | nil => exact ⟨[], by simp [ofComponents]⟩
        | cons next names =>
            exact ⟨'/' :: (String.intercalate "/" (next :: names)).toList,
              by simp [ofComponents, String.intercalate_cons_cons]⟩
      have front := isPrefixOf_dots_append solid here behind
      rw [← text] at front
      simp only [List.head?_cons, Option.mem_def, Option.some.injEq, exists_eq_left']
      exact Bool.eq_iff_iff.mp front

theorem isAbsolute_wayDown {names : List String} (h : Names names) :
    isAbsolute (ofComponents false names) = false := by
  cases names with
  | nil => rfl
  | cons name names =>
      have own := (List.forall_mem_cons.mp h).1
      cases chars : name.toList with
      | nil => exact absurd (String.toList_eq_nil_iff.mp chars) own.nonempty
      | cons c cs =>
          have other : c ≠ '/' := by
            rintro rfl
            exact own.slash (by simp [chars])
          cases names <;> simp [isAbsolute, ofComponents, String.intercalate_cons_cons, chars, other]

/-- A way down is in its shortest form. -/
theorem clean_wayDown {names : List String} (h : Names names) :
    clean (ofComponents false names) = ofComponents false names := by
  have parts : components (ofComponents false names) = names ∨ names = [] := by
    cases names with
    | nil => exact .inr rfl
    | cons name names =>
        refine .inl ?_
        have rooted := components_ofComponents h
        have text : (ofComponents true (name :: names)).toList =
            '/' :: (ofComponents false (name :: names)).toList := by simp [ofComponents]
        rw [components, text, splitAtChar_eq_splitOn] at rooted
        rw [components, splitAtChar_eq_splitOn]
        simpa [List.splitOn, List.splitOnP_cons_eq_if_modifyHead] using rooted
  rcases parts with parts | rfl
  · rw [clean, isAbsolute_wayDown h, cleanComponents, parts, resolve_names h]
    rfl
  · decide

end Path

open SolidityLint.Path

/-! ### The three -/

/-- Ignore rules look at what is inside their base. -/
theorem IgnoreRule.inside?_eq {dir p : String} (hd : Shortest dir) (hp : Shortest p) :
    IgnoreRule.inside? dir p = if Inside dir p then some (wayDown dir p) else none := by
  have way (r : String) := IgnoreRule.inside?_iff hd.names hp.names (r := r)
  rw [hd.ofComponents, hp.ofComponents] at way
  split
  · next inside => exact (way _).mpr ⟨_, inside.components_eq, rfl⟩
  · next outside =>
      rw [Option.eq_none_iff_forall_ne_some]
      intro r h
      obtain ⟨rest, names, -⟩ := (way r).mp h
      exact outside ⟨rest, names.symm⟩

/-- A view asks more of the way than an ignore rule does. -/
theorem Path.relativeTo_eq_inside? {dir : String} (solid : dir ≠ "") (p : String) :
    relativeTo dir p = match IgnoreRule.inside? dir p with
      | none => p
      | some r => if hasFront ".." r then p else r := by
  rw [relativeTo, if_neg (by simpa using solid), IgnoreRule.inside?]
  cases relative? dir p with
  | none => rfl
  | some r =>
      by_cases out : (r == ".." || hasFront "../" r) = true
      · have front : hasFront ".." r = true := by
          rcases Bool.or_eq_true_iff.mp out with up | up
          · rw [beq_iff_eq.mp up]
            decide
          · rw [hasFront, List.isPrefixOf_iff_prefix] at up ⊢
            exact .trans (by decide) up
        simp [out, front]
      · simp [out]

/-- What a view shows of a path. -/
theorem Path.relativeTo_eq {dir p : String} (hd : Shortest dir) (hp : Shortest p) :
    relativeTo dir p =
      if Inside dir p ∧ ¬ hasFront ".." (wayDown dir p) then wayDown dir p else p := by
  rw [relativeTo_eq_inside? (ne_empty_of_isAbsolute hd.absolute), IgnoreRule.inside?_eq hd hp]
  by_cases inside : Inside dir p
  · by_cases front : hasFront ".." (wayDown dir p) <;> simp [inside, front]
  · simp [inside]

/-- The index of artifacts asks what a view asks. -/
theorem Artifacts.keyOf_eq {root p : String} (hp : Shortest p) :
    Artifacts.keyOf root p = relativeTo root p := by
  rw [Artifacts.keyOf, if_pos hp.absolute, hp.clean]

theorem Path.Shortest.names_namesBelow {p : String} (hp : Shortest p) (dir : String) :
    Names (namesBelow dir p) :=
  fun name h => hp.names name (List.mem_of_mem_drop h)

/-- A way down is its own key. -/
theorem Artifacts.keyOf_wayDown {root p : String} (hp : Shortest p) :
    Artifacts.keyOf root (wayDown root p) = wayDown root p := by
  have names := hp.names_namesBelow root
  rw [Artifacts.keyOf, wayDown, isAbsolute_wayDown names, if_neg Bool.false_ne_true,
    clean_wayDown names]

theorem Artifacts.lookup_addArtifact_isSome {root path : String} {data tree : Json}
    (htree : tree? data = some tree) (hpath : sourcePath? tree = some path) (solid : path ≠ "")
    (index : Artifacts) (key : String) :
    ((addArtifact root index data).lookup key).isSome =
      ((index.lookup key).isSome || key == keyOf root path) := by
  rw [addArtifact, htree]
  simp only [hpath]
  by_cases same : key = keyOf root path
  · subst same
    split
    · next known => simp [known]
    · simp
  · have other : (key == keyOf root path) = false := beq_eq_false_iff_ne.mpr same
    rw [other, Bool.or_false]
    split
    · rfl
    · rw [List.lookup_cons, other]

/-- The artifact that says no more than where its source is. -/
def Artifacts.artifactOf (path : String) : Json :=
  .obj [("ast", .obj [("absolutePath", .str path)])]

theorem Artifacts.tree?_artifactOf (path : String) :
    tree? (artifactOf path) = some (.obj [("absolutePath", .str path)]) := by
  simp [tree?, valuesOf, artifactOf, Json.sameKey]

theorem Artifacts.sourcePath?_tree (path : String) :
    sourcePath? (.obj [("absolutePath", .str path)]) = some path := by
  simp [sourcePath?, valuesOf, Json.sameKey]

/-- Every artifact whose source is the way down to a path is found for it. -/
def Artifacts.Finds (root p : String) : Prop :=
  ∀ index data tree, tree? data = some tree → sourcePath? tree = some (wayDown root p) →
    ((addArtifact root index data).lookup (keyOf root p)).isSome

/-- The artifact is found exactly when the key of the path is the way down to it. -/
theorem Artifacts.finds_iff {root p : String} (hp : Shortest p) :
    Finds root p ↔ keyOf root p = wayDown root p := by
  have solid : wayDown root p ≠ "" := by
    intro empty
    have clean := clean_wayDown (hp.names_namesBelow root)
    rw [← wayDown, empty] at clean
    exact absurd clean (by decide)
  constructor
  · intro finds
    have tree := tree?_artifactOf (wayDown root p)
    have path := sourcePath?_tree (wayDown root p)
    have found := finds [] _ _ tree path
    rw [lookup_addArtifact_isSome tree path solid, keyOf_wayDown hp] at found
    simpa using found
  · intro key index data tree htree hpath
    rw [lookup_addArtifact_isSome htree hpath solid, keyOf_wayDown hp, key]
    simp

/-! ### Where they agree -/

/-- **Agreement on what is inside.**  Rules relative to a directory look at the way down to a path
exactly when it is inside.  A view shows the way down exactly then, and the path itself for all
others, and the index of artifacts has just these keys and finds every artifact under them, unless
the first name below the directory begins with two dots: then both take the path for one outside. -/
theorem ways_agree_unless_below_dots {dir p : String} (hd : Shortest dir) (hp : Shortest p) :
    (∀ patterns, ∀ r ∈ (IgnoreRules.ofPatterns dir patterns).rules,
      r.hits p = (decide (Inside dir p) && r.globs.any (·.accepts (wayDown dir p)))) ∧
    (¬ BelowDots dir p →
      relativeTo dir p = (if Inside dir p then wayDown dir p else p) ∧
      Artifacts.keyOf dir p = (if Inside dir p then wayDown dir p else p) ∧
      (Inside dir p → Artifacts.Finds dir p)) ∧
    (BelowDots dir p →
      relativeTo dir p = p ∧ Artifacts.keyOf dir p = p ∧ ¬ Artifacts.Finds dir p) := by
  have dots : BelowDots dir p ↔ Inside dir p ∧ hasFront ".." (wayDown dir p) := by
    rw [wayDown, hasFront_dots_ofComponents (hp.names_namesBelow dir)]
    exact ⟨fun h => ⟨h.inside, h.dots⟩, fun h => ⟨h.1, h.2⟩⟩
  have other : p ≠ wayDown dir p := by
    intro same
    have relative := isAbsolute_wayDown (hp.names_namesBelow dir)
    rw [← wayDown, ← same, hp.absolute] at relative
    cases relative
  rw [dots, Artifacts.finds_iff hp, Artifacts.keyOf_eq hp, relativeTo_eq hd hp]
  refine ⟨fun patterns r hr => ?_, fun plain => ?_, fun ⟨inside, front⟩ => ?_⟩
  · have base : r.base = dir := by
      obtain ⟨pattern, -, read⟩ := IgnoreRules.exists_pattern hr
      rw [IgnoreRule.base_of_ofPattern? read, hd.clean]
    rw [IgnoreRule.hits, base, IgnoreRule.inside?_eq hd hp]
    by_cases inside : Inside dir p <;> simp [inside]
  · by_cases inside : Inside dir p
    · have plain : ¬ hasFront ".." (wayDown dir p) := fun front => plain ⟨inside, front⟩
      simp [inside, plain]
    · simp [inside]
  · simp [inside, front, other]

/-- The three agree on a source in a directory of its own. -/
theorem ways_agree_unless_below_dots_source :
    Shortest "/w" ∧ Shortest "/w/src/A.sol" ∧ Inside "/w" "/w/src/A.sol" ∧
    wayDown "/w" "/w/src/A.sol" = "src/A.sol" ∧ relativeTo "/w" "/w/src/A.sol" = "src/A.sol" ∧
    Artifacts.Finds "/w" "/w/src/A.sol" := by
  have hd : Shortest "/w" := ⟨rfl, rfl⟩
  have hp : Shortest "/w/src/A.sol" := ⟨rfl, rfl⟩
  have inside : Inside "/w" "/w/src/A.sol" := by decide
  have way : wayDown "/w" "/w/src/A.sol" = "src/A.sol" := rfl
  have plain : ¬ BelowDots "/w" "/w/src/A.sol" := fun h => absurd h.dots (by decide)
  obtain ⟨shown, -, finds⟩ := (ways_agree_unless_below_dots hd hp).2.1 plain
  exact ⟨hd, hp, inside, way, by rw [shown, if_pos inside, way], finds inside⟩

/-- **A name that begins with two dots** is inside for an ignore rule and outside for a view and
for the index of artifacts. -/
theorem ways_differ_below_dots :
    Shortest "/w" ∧ Shortest "/w/..lib/A.sol" ∧ Inside "/w" "/w/..lib/A.sol" ∧
    (IgnoreRules.ofPatterns "/w" ["*.sol"]).ignores "/w/..lib/A.sol" ∧
    relativeTo "/w" "/w/..lib/A.sol" = "/w/..lib/A.sol" ∧
    Artifacts.keyOf "/w" "/w/..lib/A.sol" = "/w/..lib/A.sol" ∧
    ¬ Artifacts.Finds "/w" "/w/..lib/A.sol" := by
  have hp : Shortest "/w/..lib/A.sol" := ⟨rfl, rfl⟩
  refine ⟨⟨by decide +kernel, by decide +kernel⟩, hp, by decide +kernel, by decide +kernel,
    rfl, rfl, ?_⟩
  rw [Artifacts.finds_iff hp]
  decide

end SolidityLint
