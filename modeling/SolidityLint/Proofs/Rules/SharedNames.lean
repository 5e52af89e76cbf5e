import Mathlib.Data.List.Forall2
import Mathlib.Data.List.ReduceOption
import SolidityLint.Rules.Miscellaneous

/-!
# Rules — names that files share

The rule about contract names goes once through the entries of a project and notes each name with
the path of the file that declares it first; the map is shared by all names, and an entry may lack a
file, or a file its tree.  `lookup_noteNames` is what one entry adds to it, and
`lookup_declaredElsewhere` what a whole project does: the path of the first file with another path
that declares the name (`firstDeclaring?`).

Which contracts are reported depends on the files of the project alone (`perm_sharedContracts`), and
sharing a name is mutual; only the file that is cited depends on the order.
-/

namespace SolidityLint

namespace Rules

/-! ### Who declares a name -/

/-- The file was parsed and declares a contract of the name. -/
def Declares (g : SourceFile) (name : String) : Prop :=
  g.root.isSome ∧ ∃ c ∈ contracts g, c.node.name = name

instance (g : SourceFile) (name : String) : Decidable (Declares g name) :=
  inferInstanceAs (Decidable (_ ∧ _))

/-- Another file than the one at the path declares the name. -/
def DeclaresElsewhere (path name : String) (g : SourceFile) : Prop :=
  g.path ≠ path ∧ Declares g name

instance (path name : String) (g : SourceFile) : Decidable (DeclaresElsewhere path name g) :=
  inferInstanceAs (Decidable (_ ∧ _))

/-- The contracts of a file whose name another file of the project declares. -/
def sharedContracts (f : SourceFile) (project : List (Option SourceFile)) : List Cursor :=
  (contracts f).filter fun c => ∃ g ∈ project.reduceOption, DeclaresElsewhere f.path c.node.name g

/-- The first entry of the project with another path that declares the name holds the file `g`. -/
def Cites (path name : String) (project : List (Option SourceFile)) (g : SourceFile) : Prop :=
  ∃ before after, project = before ++ some g :: after ∧ DeclaresElsewhere path name g ∧
    ∀ b, some b ∈ before → ¬ DeclaresElsewhere path name b

/-- The finding about a contract that cites another file. -/
def sharedFinding (f : SourceFile) (c : Cursor) (g : SourceFile) : Finding :=
  f.findingAtName c.node ("Contract name " ++ c.node.name ++ " is already declared in " ++ g.path)

/-- The first file of the project with another path that declares the name. -/
def firstDeclaring? (path name : String) (project : List (Option SourceFile)) : Option SourceFile :=
  project.findSome? fun entry => entry.filter fun g => DeclaresElsewhere path name g

/-- It stands at the first entry that holds one. -/
theorem firstDeclaring?_eq_some_iff {path name : String} {project : List (Option SourceFile)}
    {g : SourceFile} : firstDeclaring? path name project = some g ↔ Cites path name project g := by
  simp only [firstDeclaring?, List.findSome?_eq_some_iff, Option.filter_eq_some_iff,
    Option.filter_eq_none_iff, decide_eq_true_eq, Cites]
  constructor
  · rintro ⟨before, entry, after, rfl, ⟨rfl, there⟩, first⟩
    exact ⟨before, after, rfl, there, fun b hb => first (some b) hb b rfl⟩
  · rintro ⟨before, after, rfl, there, first⟩
    exact ⟨before, some g, after, rfl, ⟨rfl, there⟩, fun entry he b hb => first b (hb ▸ he)⟩

theorem isSome_firstDeclaring? {path name : String} {project : List (Option SourceFile)} :
    (firstDeclaring? path name project).isSome ↔
      ∃ g ∈ project.reduceOption, DeclaresElsewhere path name g := by
  simp only [firstDeclaring?, List.findSome?_isSome_iff, Option.isSome_filter, Option.any_eq_true,
    decide_eq_true_eq, List.reduceOption_mem_iff]
  constructor
  · rintro ⟨entry, he, g, rfl, there⟩
    exact ⟨g, he, there⟩
  · rintro ⟨g, hg, there⟩
    exact ⟨some g, hg, g, rfl, there⟩

/-! ### The names that are noted -/

/-- **One contract**: a name that is there stays with its path. -/
theorem lookup_noteName (path : String) (declared : List (String × String)) (c : Cursor)
    (name : String) :
    (noteName path declared c).lookup name =
      (declared.lookup name).or (if c.node.name = name then some path else none) := by
  unfold noteName
  split
  · next known =>
      by_cases own : c.node.name = name
      · obtain ⟨first, known⟩ := Option.isSome_iff_exists.mp known
        rw [← own, known, Option.some_or]
      · rw [if_neg own, Option.or_none]
  · next unknown =>
      have unknown := Option.not_isSome_iff_eq_none.mp unknown
      rw [List.lookup_cons]
      by_cases own : c.node.name = name
      · subst own
        simp [unknown]
      · have other : (name == c.node.name) = false := beq_eq_false_iff_ne.mpr (Ne.symm own)
        simp [other, own]

/-- **The contracts of a file.** -/
theorem lookup_foldl_noteName (path : String) (cs : List Cursor) (declared : List (String × String))
    (name : String) :
    (cs.foldl (noteName path) declared).lookup name =
      (declared.lookup name).or (if ∃ c ∈ cs, c.node.name = name then some path else none) := by
  induction cs generalizing declared with
  | nil => simp
  | cons c cs ih =>
      rw [List.foldl_cons, ih, lookup_noteName, Option.or_assoc]
      refine congrArg _ ?_
      by_cases own : c.node.name = name
      · simp [own]
      · simp [own]

/-- **One entry** adds the names that its file declares, if that is another one. -/
theorem lookup_noteNames (path : String) (declared : List (String × String))
    (entry : Option SourceFile) (name : String) :
    (noteNames path declared entry).lookup name =
      (declared.lookup name).or
        ((entry.filter fun g => DeclaresElsewhere path name g).map (·.path)) := by
  cases entry with
  | none => simp [noteNames]
  | some g =>
      rw [noteNames, Option.filter_some]
      by_cases own : g.path = path
      · simp [own, DeclaresElsewhere]
      · cases root : g.root with
        | none => simp [root, DeclaresElsewhere, Declares]
        | some tree =>
            have other : (g.path == path) = false := beq_eq_false_iff_ne.mpr own
            rw [if_neg (by simp [other]), lookup_foldl_noteName]
            by_cases declares : ∃ c ∈ contracts g, c.node.name = name
            · simp [declares, DeclaresElsewhere, Declares, own, root]
            · simp [declares, DeclaresElsewhere, Declares, own, root]

theorem lookup_foldl_noteNames (path : String) (project : List (Option SourceFile))
    (declared : List (String × String)) (name : String) :
    (project.foldl (noteNames path) declared).lookup name =
      (declared.lookup name).or ((firstDeclaring? path name project).map (·.path)) := by
  induction project generalizing declared with
  | nil => simp [firstDeclaring?]
  | cons entry project ih =>
      rw [List.foldl_cons, ih, lookup_noteNames, Option.or_assoc, firstDeclaring?, firstDeclaring?,
        List.findSome?_cons]
      refine congrArg _ ?_
      cases entry.filter fun g => DeclaresElsewhere path name g with
      | none => rfl
      | some g => rfl

/-- **A whole project**: each name is there with the path of the first file that declares it. -/
theorem lookup_declaredElsewhere (path name : String) (project : List (Option SourceFile)) :
    (declaredElsewhere path project).lookup name =
      (firstDeclaring? path name project).map (·.path) := by
  rw [declaredElsewhere, lookup_foldl_noteNames]
  rfl

/-! ### What is reported -/

/-- The rule as a search for each name. -/
theorem duplicateContractName_eq (f : SourceFile) (project : List (Option SourceFile)) :
    duplicateContractName f project =
      (contracts f).filterMap fun c =>
        (firstDeclaring? f.path c.node.name project).map (sharedFinding f c) := by
  rw [duplicateContractName]
  split
  · next none => rw [List.isEmpty_iff.mp none, List.filterMap_nil]
  · simp only [lookup_declaredElsewhere, Option.map_map]
    rfl

/-- **The findings** are about the contracts whose name is shared, and each cites a file. -/
theorem forall₂_duplicateContractName (f : SourceFile) (project : List (Option SourceFile)) :
    List.Forall₂ (fun c x => ∃ g, Cites f.path c.node.name project g ∧ x = sharedFinding f c g)
      (sharedContracts f project) (duplicateContractName f project) := by
  rw [duplicateContractName_eq]
  simp only [sharedContracts, ← isSome_firstDeclaring?, Bool.decide_eq_true]
  induction contracts f with
  | nil => exact .nil
  | cons c cs ih =>
      rw [List.filter_cons, List.filterMap_cons]
      cases found : firstDeclaring? f.path c.node.name project with
      | none => exact ih
      | some g => exact .cons ⟨g, firstDeclaring?_eq_some_iff.mp found, rfl⟩ ih

theorem mem_sharedContracts {f : SourceFile} {project : List (Option SourceFile)} {c : Cursor} :
    c ∈ sharedContracts f project ↔
      c ∈ contracts f ∧ ∃ g, some g ∈ project ∧ g.path ≠ f.path ∧ Declares g c.node.name := by
  simp only [sharedContracts, List.mem_filter, decide_eq_true_eq, List.reduceOption_mem_iff]
  rfl

/-- **The order** of the project does not matter for what is reported. -/
theorem perm_sharedContracts (f : SourceFile) {project other : List (Option SourceFile)}
    (perm : project.Perm other) : sharedContracts f project = sharedContracts f other := by
  refine List.filter_congr fun c _ => decide_eq_decide.mpr ?_
  simp only [List.reduceOption_mem_iff, perm.mem_iff]

/-- Two lists that stand each in a relation to a third one. -/
theorem forall₂_of_left {α β γ : Type} {R : α → β → Prop} {S : α → γ → Prop} {as : List α}
    {bs : List β} {cs : List γ} (h : List.Forall₂ R as bs) (h' : List.Forall₂ S as cs) :
    List.Forall₂ (fun b c => ∃ a, R a b ∧ S a c) bs cs := by
  induction h generalizing cs with
  | nil => cases h'; exact .nil
  | cons first _ ih =>
      cases h' with
      | cons first' rest' => exact .cons ⟨_, first, first'⟩ (ih rest')

/-- **Names that files share.**  In any project list, with entries that lack a file and files that
lack a tree:

* the one pass over the list notes exactly the names that some parsed file with another path
  declares, each with the path of the first such file;
* the findings in a file are about the contracts whose name some parsed file of the list with
  another path declares, in order, and each cites the path of the first such file;
* if two files of the list with different paths declare a name, all contracts of that name are
  reported in either;
* another order of the list leads to findings about the same contracts, which differ at most in the
  path that is cited. -/
theorem names_reported_when_shared (project : List (Option SourceFile)) :
    (∀ path name cited, (declaredElsewhere path project).lookup name = some cited ↔
      ∃ g, Cites path name project g ∧ g.path = cited) ∧
    (∀ f, List.Forall₂
      (fun c x => ∃ g, Cites f.path c.node.name project g ∧ x = sharedFinding f c g)
      (sharedContracts f project) (duplicateContractName f project)) ∧
    (∀ f c, c ∈ sharedContracts f project ↔
      c ∈ contracts f ∧ ∃ g, some g ∈ project ∧ g.path ≠ f.path ∧ Declares g c.node.name) ∧
    (∀ a b name, some a ∈ project → some b ∈ project → a.path ≠ b.path →
      Declares a name → Declares b name →
      (∀ c ∈ contracts a, c.node.name = name → c ∈ sharedContracts a project) ∧
      ∀ c ∈ contracts b, c.node.name = name → c ∈ sharedContracts b project) ∧
    ∀ f other, project.Perm other →
      sharedContracts f project = sharedContracts f other ∧
      List.Forall₂ (fun x y => ∃ c g g', x = sharedFinding f c g ∧ y = sharedFinding f c g')
        (duplicateContractName f project)
        (duplicateContractName f other) := by
  refine ⟨fun path name cited => ?_, fun f => forall₂_duplicateContractName f project,
    fun _ _ => mem_sharedContracts,
    fun a b name ha hb apart da db => ⟨fun c hc hname => ?_, fun c hc hname => ?_⟩,
    fun f other perm => ⟨perm_sharedContracts f perm, ?_⟩⟩
  · simp only [lookup_declaredElsewhere, Option.map_eq_some_iff, firstDeclaring?_eq_some_iff]
  · exact mem_sharedContracts.mpr ⟨hc, b, hb, apart.symm, hname ▸ db⟩
  · exact mem_sharedContracts.mpr ⟨hc, a, ha, apart, hname ▸ da⟩
  · have here := forall₂_duplicateContractName f project
    have there := forall₂_duplicateContractName f other
    rw [← perm_sharedContracts f perm] at there
    refine (forall₂_of_left here there).imp ?_
    rintro x y ⟨c, ⟨g, -, rfl⟩, g', -, rfl⟩
    exact ⟨c, g, g', rfl, rfl⟩

/-! ### Two tokens -/

/-- A file with a contract that is called `Token`. -/
def tokenFile (path : String) : SourceFile :=
  .ofBytes path "contract Token \x7b\x7d".toUTF8 (some (.mk
    ⟨2, "SourceUnit", ⟨0, 17, 0⟩, [], [("nodes", [some 0])]⟩
    [.mk ⟨1, "ContractDefinition", ⟨0, 17, 0⟩, [("name", .str "Token")], []⟩ []]))

/-- A project with two tokens, a gap and a file that was not parsed. -/
def tokenProject : List (Option SourceFile) :=
  [some (.ofBytes "/broken.sol" "contract Token \x7b".toUTF8 none), some (tokenFile "/a.sol"), none,
    some (tokenFile "/b.sol")]

/-- Either token is reported, and cites the other. -/
theorem names_reported_when_shared_token :
    (∃ c ∈ contracts (tokenFile "/a.sol"), c.node.name = "Token" ∧
      c ∈ sharedContracts (tokenFile "/a.sol") tokenProject) ∧
    (∃ c ∈ contracts (tokenFile "/b.sol"), c.node.name = "Token" ∧
      c ∈ sharedContracts (tokenFile "/b.sol") tokenProject) ∧
    (duplicateContractName (tokenFile "/a.sol") tokenProject).map (·.message) =
      ["Contract name Token is already declared in /b.sol"] ∧
    (duplicateContractName (tokenFile "/b.sol") tokenProject).map (·.message) =
      ["Contract name Token is already declared in /a.sol"] := by
  have first : Declares (tokenFile "/a.sol") "Token" := by decide +kernel
  have second : Declares (tokenFile "/b.sol") "Token" := by decide +kernel
  obtain ⟨-, c, hc, hname⟩ := id first
  obtain ⟨-, d, hd, hname'⟩ := id second
  obtain ⟨inA, inB⟩ := (names_reported_when_shared tokenProject).2.2.2.1 (tokenFile "/a.sol")
    (tokenFile "/b.sol") "Token" (by simp [tokenProject]) (by simp [tokenProject])
    (by decide +kernel) first second
  exact ⟨⟨c, hc, hname, inA c hc hname⟩, ⟨d, hd, hname', inB d hd hname'⟩, by decide +kernel,
    by decide +kernel⟩

end Rules

end SolidityLint
