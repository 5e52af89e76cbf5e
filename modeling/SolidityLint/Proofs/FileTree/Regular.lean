import SolidityLint.Proofs.Path.Names

/-!
# FileTree — trees without links

In a tree without links a path means what stands at the end of its names (`stat_iff`, `lstat_of_get?`),
and a walk reaches exactly the files to which no directory on the way is passed over
(`mem_walkChildren_file`).
-/

namespace SolidityLint

/-! ### Trees -/

/-- There are no links below the entry, and the children of directories are in the order of their
names. -/
inductive Entry.Regular : Entry → Prop where
  | file (data : FileData) : Regular (.file data)
  | dir {children : List (String × Entry)} (names : ∀ c ∈ children, Path.IsName c.1)
      (ordered : children.Pairwise (·.1 < ·.1)) (h : ∀ c ∈ children, Regular c.2) :
      Regular (.dir children)

/-- What stands at the end of the names is no link. -/
def Entry.Real (root : Entry) (names : List String) : Prop :=
  ∃ e, root.get? names = some e ∧ ∀ target, e ≠ .link target

theorem Entry.get?_append (e : Entry) (ns ms : List String) :
    e.get? (ns ++ ms) = (e.get? ns).bind (·.get? ms) := by
  induction ns generalizing e with
  | nil => simp [get?]
  | cons n ns ih =>
      cases e with
      | dir children =>
          simp only [List.cons_append, get?]
          cases children.lookup n with
          | none => rfl
          | some e => exact ih e
      | file _ | link _ => rfl

theorem mem_of_lookup {α : Type} {key : String} {value : α} {entries : List (String × α)}
    (h : entries.lookup key = some value) : (key, value) ∈ entries := by
  obtain ⟨before, after, rfl, -⟩ := List.lookup_eq_some_iff.mp h
  simp

theorem lookup_of_mem {α : Type} {entries : List (String × α)} (ordered : entries.Pairwise (·.1 < ·.1))
    {key : String} {value : α} (h : (key, value) ∈ entries) : entries.lookup key = some value := by
  obtain ⟨before, after, rfl⟩ := List.append_of_mem h
  refine List.lookup_eq_some_iff.mpr ⟨before, after, rfl, fun e he => ?_⟩
  have less := (List.pairwise_append.mp ordered).2.2 e he _ List.mem_cons_self
  exact bne_iff_ne.mpr fun same => String.lt_irrefl _ (same ▸ less)

theorem Entry.Regular.get? {e e' : Entry} (h : e.Regular) {names : List String}
    (there : e.get? names = some e') : e'.Regular := by
  induction names generalizing e with
  | nil =>
      cases there
      exact h
  | cons n names ih =>
      cases h with
      | file => cases there
      | dir _ _ h =>
          obtain ⟨child, found, there⟩ := Option.bind_eq_some_iff.mp there
          exact ih (h _ (mem_of_lookup found)) there

namespace FileTree

/-! ### What a path means -/

/-- Names that lead to something through no link, and not to a link, resolve to themselves. -/
theorem resolveFrom_of_real {root : Entry} (follow : Bool) (links : Nat) {todo : List String}
    (names : Path.Names todo) (done : List String) (real : root.Real (done ++ todo)) :
    resolveFrom root follow links done todo = .ok (done ++ todo) := by
  induction todo generalizing done with
  | nil => rw [resolveFrom, List.append_nil]
  | cons n todo ih =>
      obtain ⟨name, others⟩ := List.forall_mem_cons.mp names
      have next := ih others (done ++ [n]) (by simpa using real)
      obtain ⟨e, there, plain⟩ := real
      rw [Entry.get?_append] at there
      obtain ⟨d, here, below⟩ := Option.bind_eq_some_iff.mp there
      cases d with
      | file _ | link _ => cases below
      | dir children =>
          obtain ⟨child, found, below⟩ := Option.bind_eq_some_iff.mp below
          rw [resolveFrom, here]
          cases child with
          | file | dir => simpa [name.here, name.up, found] using next
          | link target =>
              cases todo with
              | nil =>
                  cases below
                  exact absurd rfl (plain target)
              | cons => cases below

/-- A path means what its steps lead to, if they are names that run through no link and lead to
none. -/
theorem stat_of_steps {t : FileTree} {path : String} (names : List String) {e : Entry}
    (steps : Path.steps path = names) (h : Path.Names names) (there : t.root.get? names = some e)
    (plain : ∀ target, e ≠ .link target) : t.stat path = .ok e := by
  rw [stat, resolve, steps, resolveFrom_of_real true maxLinks h [] ⟨e, there, plain⟩]
  simp [bind, Except.bind, there]

theorem lstat_of_steps {t : FileTree} {path : String} (names : List String) {e : Entry}
    (steps : Path.steps path = names) (h : Path.Names names) (there : t.root.get? names = some e)
    (plain : ∀ target, e ≠ .link target) : t.lstat path = .ok e := by
  rw [lstat, steps, resolveFrom_of_real false maxLinks h [] ⟨e, there, plain⟩]
  simp [bind, Except.bind, there]

theorem read_of_steps {t : FileTree} {path : String} (names : List String) {content : ByteArray}
    (steps : Path.steps path = names) (h : Path.Names names)
    (there : ∃ data, t.root.get? names = some (.file data) ∧ data.content = content) :
    t.read path = .ok content := by
  obtain ⟨data, there, rfl⟩ := there
  rw [read, stat_of_steps names steps h there nofun]

/-- Nothing in a tree without links is a link. -/
theorem plain_of_get? {root e : Entry} (regular : root.Regular) {names : List String}
    (there : root.get? names = some e) (target : String) : e ≠ .link target := by
  rintro rfl
  cases regular.get? there

theorem resolveFrom_eq_ok {root : Entry} (regular : root.Regular) {follow : Bool} {links : Nat}
    {todo : List String} (names : Path.Names todo) {done resolved : List String}
    (h : resolveFrom root follow links done todo = .ok resolved) : resolved = done ++ todo := by
  induction todo generalizing done with
  | nil =>
      rw [resolveFrom] at h
      cases h
      simp
  | cons n todo ih =>
      obtain ⟨name, others⟩ := List.forall_mem_cons.mp names
      rw [resolveFrom] at h
      split at h
      · next children here =>
          simp only [beq_iff_eq, name.here, name.up, if_false] at h
          cases found : children.lookup n with
          | none =>
              rw [found] at h
              cases h
          | some child =>
              have plain : child.Regular := by
                cases regular.get? here with
                | dir _ _ h => exact h _ (mem_of_lookup found)
              rw [found] at h
              cases plain with
              | file | dir =>
                  rw [ih others h]
                  simp
      · cases h

/-- **What a path means** is what stands at the end of its names. -/
theorem stat_iff {t : FileTree} (regular : t.root.Regular) {names : List String}
    (h : Path.Names names) {e : Entry} :
    t.stat (Path.ofComponents true names) = .ok e ↔ t.root.get? names = some e := by
  constructor
  · intro found
    rw [stat, resolve, Path.steps_ofComponents h] at found
    cases resolved : resolveFrom t.root true maxLinks [] names with
    | error e =>
        rw [resolved] at found
        cases found
    | ok ns =>
        obtain rfl : ns = names := resolveFrom_eq_ok regular h resolved
        rw [resolved] at found
        cases there : t.root.get? ns with
        | none => simp [bind, Except.bind, there] at found
        | some e' =>
            simp only [bind, Except.bind, there] at found
            cases found
            rfl
  · intro there
    exact stat_of_steps _ (Path.steps_ofComponents h) h there (plain_of_get? regular there)

theorem stat_root (t : FileTree) : t.stat "/" = .ok t.root := by
  have none : Path.steps "/" = [] := rfl
  rw [stat, resolve, none, resolveFrom]
  rfl

theorem lstat_of_get? {t : FileTree} (regular : t.root.Regular) {names : List String}
    (h : Path.Names names) {e : Entry} (there : t.root.get? names = some e) :
    t.lstat (Path.ofComponents true names) = .ok e :=
  lstat_of_steps _ (Path.steps_ofComponents h) h there (plain_of_get? regular there)

/-! ### Going down -/

/-- A file below a directory: the names of the directories that lead to it, and its own. -/
inductive Holds : List (String × Entry) → List String → String → FileData → Prop where
  | here {children : List (String × Entry)} {name : String} {data : FileData}
      (h : (name, .file data) ∈ children) : Holds children [] name data
  | deeper {children inner : List (String × Entry)} {dir name : String} {dirs : List String}
      {data : FileData} (h : (dir, .dir inner) ∈ children) (rest : Holds inner dirs name data) :
      Holds children (dir :: dirs) name data

theorem Holds.names {children : List (String × Entry)} {dirs : List String} {name : String}
    {data : FileData} (h : Holds children dirs name data) (regular : (Entry.dir children).Regular) :
    Path.Names (dirs ++ [name]) := by
  induction h with
  | here h =>
      cases regular with
      | dir names => simpa [Path.Names] using names _ h
  | deeper h _ ih =>
      cases regular with
      | dir names _ inner => exact List.forall_mem_cons.mpr ⟨names _ h, ih (inner _ h)⟩

/-- None of the directories on the way down is passed over. -/
def Passes (skip : String → String → Bool) (path : String) : List String → Prop
  | [] => True
  | dir :: dirs => skip (Path.child path dir) dir = false ∧ Passes skip (Path.child path dir) dirs

/-! ### Walking -/

section Walk

variable {skip : String → String → Bool}

theorem walkChildren_append (skip : String → String → Bool) (path : String)
    (before after : List (String × Entry)) :
    walkChildren skip path (before ++ after) =
      walkChildren skip path before ++ walkChildren skip path after := by
  induction before with
  | nil => simp [walkChildren]
  | cons c before ih => simp [walkChildren, ih]

theorem mem_walkChildren {path : String} {children : List (String × Entry)} {v : Visit} :
    v ∈ walkChildren skip path children ↔
      ∃ c ∈ children, (c.2.isDir && skip (Path.child path c.1) c.1) = false ∧
        v ∈ walkEntry skip (Path.child path c.1) c.1 c.2 := by
  induction children with
  | nil => simp [walkChildren]
  | cons c children ih =>
      obtain ⟨name, e⟩ := c
      simp only [walkChildren, List.mem_append, ih, List.mem_cons, exists_eq_or_imp]
      refine or_congr_left ?_
      cases passed : (e.isDir && skip (Path.child path name) name) with
      | true => simp_all [Path.child]
      | false => simp_all [Path.child]

theorem regular_of_mem_walkChildren {children : List (String × Entry)}
    (regular : (Entry.dir children).Regular) {path : String} {v : Visit}
    (h : v ∈ walkChildren skip path children) : v.entry.Regular := by
  obtain ⟨⟨name, e⟩, hc, -, hv⟩ := mem_walkChildren.mp h
  have plain : e.Regular := by
    cases regular with
    | dir _ _ inner => exact inner _ hc
  cases plain with
  | file data =>
      obtain rfl := List.mem_singleton.mp hv
      exact .file data
  | @dir inner names ordered within =>
      rcases List.mem_cons.mp hv with rfl | hv
      · exact .dir names ordered within
      · exact regular_of_mem_walkChildren (.dir names ordered within) hv
termination_by sizeOf children
decreasing_by
  have := List.sizeOf_lt_of_mem hc
  simp only [Prod.mk.sizeOf_spec, Entry.dir.sizeOf_spec] at this
  omega

theorem holds_of_mem_walkChildren {path p name : String} {children : List (String × Entry)}
    {data : FileData} (h : ⟨p, name, .file data⟩ ∈ walkChildren skip path children) :
    ∃ dirs, Holds children dirs name data ∧ p = Path.below path (dirs ++ [name]) ∧
      Passes skip path dirs := by
  obtain ⟨⟨first, e⟩, hc, passed, hv⟩ := mem_walkChildren.mp h
  cases e with
  | file data' =>
      cases List.mem_singleton.mp hv
      exact ⟨[], .here hc, rfl, trivial⟩
  | link target => cases List.mem_singleton.mp hv
  | dir inner =>
      rcases List.mem_cons.mp hv with same | hv
      · cases same
      · obtain ⟨dirs, holds, place, passes⟩ := holds_of_mem_walkChildren hv
        exact ⟨first :: dirs, .deeper hc holds, place, passed, passes⟩
termination_by sizeOf children
decreasing_by
  have := List.sizeOf_lt_of_mem hc
  simp only [Prod.mk.sizeOf_spec, Entry.dir.sizeOf_spec] at this
  omega

theorem mem_walkChildren_of_holds {children : List (String × Entry)} {dirs : List String}
    {name : String} {data : FileData} (h : Holds children dirs name data) {path : String}
    (passes : Passes skip path dirs) :
    ⟨Path.below path (dirs ++ [name]), name, .file data⟩ ∈ walkChildren skip path children := by
  induction h generalizing path with
  | here h => exact mem_walkChildren.mpr ⟨_, h, rfl, List.mem_singleton_self _⟩
  | deeper h _ ih =>
      obtain ⟨passed, passes⟩ := passes
      exact mem_walkChildren.mpr ⟨_, h, passed, List.mem_cons_of_mem _ (ih passes)⟩

/-- **A walk** comes to the files to which no directory on the way is passed over. -/
theorem mem_walkChildren_file {path p name : String} {children : List (String × Entry)}
    {data : FileData} :
    ⟨p, name, .file data⟩ ∈ walkChildren skip path children ↔
      ∃ dirs, Holds children dirs name data ∧ p = Path.below path (dirs ++ [name]) ∧
        Passes skip path dirs := by
  constructor
  · exact holds_of_mem_walkChildren
  · rintro ⟨dirs, holds, rfl, passes⟩
    exact mem_walkChildren_of_holds holds passes

end Walk

end FileTree

end SolidityLint
