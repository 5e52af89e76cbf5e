import Mathlib.Data.List.Perm.Subperm
import Mathlib.Logic.Relation
import SolidityLint.Proofs.FileTree.RealPath
import SolidityLint.Proofs.Run.Discovery

/-!
# Run — walks through links

A walk that comes to a link to a directory walks through that directory at once, before it goes on,
unless the directory has been walked through, by whatever path.  What is still ahead is then a stack of
interrupted walks.  The queue of `walkAll` takes the same steps in another order, and enters the same
directories.

* `mem_filesUnder_iff_found`: what is found below a directory, links followed.
* `LinkedWalk.Sound.next`: what holds of a walk through links at each step.
* `linked_walk_ends`: it ends, however links run.
-/

namespace SolidityLint

open FileTree (Visit)

/-! ### Steps -/

/-- What a step finds by itself. -/
def Found.single (t : FileTree) (f : Filter) (v : Visit) : Found := Found.visit t f {} v

theorem Found.visit_eq (t : FileTree) (f : Filter) (found : Found) (v : Visit) :
    Found.visit t f found v =
      ⟨(single t f v).files ++ found.files, (single t f v).targets ++ found.targets⟩ := by
  obtain ⟨path, name, entry⟩ := v
  cases entry with
  | dir => rfl
  | file =>
      simp only [single, visit]
      split <;> rfl
  | link =>
      simp only [single, visit]
      split
      · rfl
      · split
        · split <;> rfl
        · split <;> rfl

/-- A link to a directory is followed when that is asked for. -/
theorem Found.single_of_dir {t : FileTree} {f : Filter} {path name text real : String}
    (leads : t.realPath path = .ok real) (dir : t.isDir real) :
    single t f ⟨path, name, .link text⟩ =
      if f.options.followLinks ∧ f.excluding.ignores path = false then { targets := [real] }
      else {} := by
  simp only [single, visit, leads, dir]
  cases f.options.followLinks <;> cases f.excluding.ignores path <;> rfl

/-- A link to a file is taken as one. -/
theorem Found.single_of_file {t : FileTree} {f : Filter} {path name text real : String}
    (leads : t.realPath path = .ok real) (file : ¬ t.isDir real) :
    single t f ⟨path, name, .link text⟩ =
      if hasFront "." name || !f.takes path then {} else { files := [path] } := by
  simp [single, visit, leads, file]

/-- A file is taken unless it is hidden or no source. -/
theorem Found.mem_files_taken {f : Filter} {path name p : String} :
    p ∈ (if hasFront "." name || !f.takes path then ({} : Found) else { files := [path] }).files ↔
      p = path ∧ hasFront "." name = false ∧ f.takes p := by
  split
  · next passed =>
      refine ⟨fun shown => absurd shown List.not_mem_nil, ?_⟩
      rintro ⟨rfl, seen, taken⟩
      simp [seen, taken] at passed
  · next taken =>
      simp only [Bool.or_eq_true, Bool.not_eq_true', not_or, Bool.not_eq_true,
        Bool.not_eq_false] at taken
      refine List.mem_singleton.trans ⟨?_, And.left⟩
      rintro rfl
      exact ⟨rfl, taken⟩

theorem Found.mem_files_link {t : FileTree} {f : Filter} {path name text p : String} :
    p ∈ (single t f ⟨path, name, .link text⟩).files ↔ p = path ∧ hasFront "." name = false ∧
      f.takes p ∧ ∃ real, t.realPath p = .ok real ∧ ¬ t.isDir real := by
  cases leads : t.realPath path with
  | error trouble =>
      rw [single, visit, leads]
      refine ⟨fun shown => absurd shown List.not_mem_nil, ?_⟩
      rintro ⟨rfl, -, -, real, leads', -⟩
      cases leads.symm.trans leads'
  | ok real =>
      by_cases dir : t.isDir real
      · have none : (single t f ⟨path, name, .link text⟩).files = [] := by
          rw [single_of_dir leads dir]
          split <;> rfl
        rw [none]
        refine ⟨fun shown => absurd shown List.not_mem_nil, ?_⟩
        rintro ⟨rfl, -, -, real', leads', file⟩
        cases leads.symm.trans leads'
        exact absurd dir file
      · rw [single_of_file leads dir, mem_files_taken]
        refine and_congr_right fun same => and_congr_right fun _ => (and_iff_left ?_).symm
        exact ⟨real, same ▸ leads, dir⟩

/-- The source file that a step finds. -/
theorem Found.mem_files_single {t : FileTree} {f : Filter} {v : Visit} {p : String} :
    p ∈ (single t f v).files ↔ p = v.path ∧ hasFront "." v.name = false ∧ f.takes p ∧
      ((∃ data, v.entry = .file data) ∨
        ∃ text real, v.entry = .link text ∧ t.realPath p = .ok real ∧ ¬ t.isDir real) := by
  obtain ⟨path, name, entry⟩ := v
  cases entry with
  | dir => simp [single, visit]
  | file data =>
      rw [single, visit, mem_files_taken]
      simp
  | link text =>
      rw [mem_files_link]
      simp

/-- It is no directory. -/
theorem Found.leaf_of_mem_files {t : FileTree} {f : Filter} {v : Visit} {p : String}
    (h : p ∈ (single t f v).files) : v.entry.isDir = false := by
  obtain ⟨-, -, -, kind⟩ := mem_files_single.mp h
  rcases kind with ⟨data, is⟩ | ⟨text, real, is, -⟩ <;> (rw [is]; rfl)

/-- The real directory that a step leads to. -/
theorem Found.mem_targets_single {t : FileTree} {f : Filter} {v : Visit} {real : String} :
    real ∈ (single t f v).targets ↔ (∃ text, v.entry = .link text) ∧ t.realPath v.path = .ok real ∧
      t.isDir real ∧ f.options.followLinks ∧ f.excluding.ignores v.path = false := by
  obtain ⟨path, name, entry⟩ := v
  cases entry with
  | dir => simp [single, visit]
  | file data =>
      simp only [single, visit]
      split <;> simp
  | link text =>
      cases leads : t.realPath path with
      | error trouble => simp [single, visit, leads]
      | ok target =>
          by_cases dir : t.isDir target
          · rw [single_of_dir leads dir]
            split
            · next enters =>
                simp only [List.mem_singleton, Entry.link.injEq, exists_eq', Except.ok.injEq, enters,
                  and_true, true_and]
                exact ⟨fun same => ⟨same.symm, same ▸ dir⟩, fun same => same.1.symm⟩
            · next passed => simp [passed]
          · have none : (single t f ⟨path, name, .link text⟩).targets = [] := by
              rw [single_of_file leads dir]
              split <;> rfl
            rw [none]
            refine ⟨fun shown => absurd shown List.not_mem_nil, ?_⟩
            rintro ⟨-, leads', dir', -⟩
            cases leads'
            exact absurd dir' dir

/-- A step leads to one directory at most. -/
theorem Found.targets_single (t : FileTree) (f : Filter) (v : Visit) :
    (single t f v).targets = (single t f v).targets.head?.toList := by
  obtain ⟨path, name, entry⟩ := v
  cases entry with
  | dir => rfl
  | file =>
      simp only [single, visit]
      split <;> rfl
  | link =>
      simp only [single, visit]
      split
      · rfl
      · split <;> split <;> rfl

theorem Found.isRealDir_of_mem {t : FileTree} {f : Filter} {v : Visit} {real : String}
    (h : real ∈ (single t f v).targets) : t.IsRealDir real := by
  obtain ⟨-, leads, dir, -⟩ := mem_targets_single.mp h
  exact FileTree.isRealDir_of_realPath leads dir

theorem Found.foldl_visit_eq (t : FileTree) (f : Filter) (vs : List Visit) (found : Found) :
    (∀ p, p ∈ (vs.foldl (visit t f) found).files ↔
      p ∈ found.files ∨ ∃ v ∈ vs, p ∈ (single t f v).files) ∧
    ∀ r, r ∈ (vs.foldl (visit t f) found).targets ↔
      r ∈ found.targets ∨ ∃ v ∈ vs, r ∈ (single t f v).targets := by
  induction vs generalizing found with
  | nil => simp
  | cons v vs ih =>
      obtain ⟨files, targets⟩ := ih (visit t f found v)
      rw [List.foldl_cons]
      constructor
      · intro p
        rw [files, visit_eq, List.mem_append]
        simp only [List.exists_mem_cons_iff, or_assoc]
        exact or_left_comm
      · intro r
        rw [targets, visit_eq, List.mem_append]
        simp only [List.exists_mem_cons_iff, or_assoc]
        exact or_left_comm

/-! ### Directories that are entered -/

section Walk

variable {t : FileTree} {f : Filter} {root first : String}

/-- Where the walk through a real directory starts, if the first of them is given by another path. -/
def rootOf (root first real : String) : String := if real = first then root else real

/-- The real directories that are entered: the first, and those that links in them lead to. -/
inductive Entered (t : FileTree) (f : Filter) (root first : String) : String → Prop where
  | first : Entered t f root first first
  | linked {real target : String} {v : Visit} (outer : Entered t f root first real)
      (hv : v ∈ t.walk f.skips (rootOf root first real))
      (leads : target ∈ (Found.single t f v).targets) : Entered t f root first target

/-- The source files in them. -/
def FoundFrom (t : FileTree) (f : Filter) (root first p : String) : Prop :=
  ∃ real, Entered t f root first real ∧
    ∃ v ∈ t.walk f.skips (rootOf root first real), p ∈ (Found.single t f v).files

theorem Entered.isRealDir (start : t.IsRealDir first) {real : String}
    (h : Entered t f root first real) : t.IsRealDir real := by
  cases h with
  | first => exact start
  | linked _ _ leads => exact Found.isRealDir_of_mem leads

/-- **There are no more of them than directories.** -/
theorem length_le_of_entered (start : t.IsRealDir first) {visited : List String}
    (nodup : visited.Nodup) (h : ∀ real ∈ visited, Entered t f root first real) :
    visited.length ≤ t.dirCount := by
  have all : visited ⊆ t.realDirs := fun real hr => ((h real hr).isRealDir start).mem_realDirs
  have count : t.realDirs.length = t.dirCount := by
    rw [FileTree.realDirs, List.length_map, FileTree.dirCount]
  exact count ▸ (nodup.subperm all).length_le

/-- What is closed under links holds all of them. -/
theorem Entered.mem_of_closed {visited : List String} (start : first ∈ visited)
    (closed : ∀ real ∈ visited, ∀ v ∈ t.walk f.skips (rootOf root first real),
      (Found.single t f v).targets ⊆ visited) {real : String} (h : Entered t f root first real) :
    real ∈ visited := by
  induction h with
  | first => exact start
  | linked _ hv leads ih => exact closed _ ih _ hv leads

/-! ### The queue -/

/-- What holds in the middle of `walkAll`. -/
structure Queue (t : FileTree) (f : Filter) (root first : String) (left : Nat)
    (visited : List String) (todo : List (String × String)) (files : List String) : Prop where
  nodup : visited.Nodup
  entered : ∀ real ∈ visited, Entered t f root first real
  /-- Only the first directory is given by another path than its real one. -/
  ahead : ∀ item ∈ todo, Entered t f root first item.2 ∧
    (item = (root, first) ∨ first ∈ visited ∧ item.1 = item.2)
  start : first ∈ visited ∨ first ∈ todo.map (·.2)
  linked : ∀ real ∈ visited, ∀ v ∈ t.walk f.skips (rootOf root first real),
    ∀ target ∈ (Found.single t f v).targets, target ∈ visited ∨ target ∈ todo.map (·.2)
  taken : ∀ real ∈ visited, ∀ v ∈ t.walk f.skips (rootOf root first real),
    (Found.single t f v).files ⊆ files
  found : ∀ p ∈ files, FoundFrom t f root first p
  room : t.dirCount < left + visited.length

/-- What an unvisited item of the queue stands for. -/
theorem Queue.root_eq {left : Nat} {visited files : List String} {path real : String}
    {rest : List (String × String)} (q : Queue t f root first left visited ((path, real) :: rest) files)
    (unknown : real ∉ visited) : path = rootOf root first real := by
  obtain ⟨-, same | ⟨known, same⟩⟩ := q.ahead _ List.mem_cons_self
  · cases same
    rw [rootOf, if_pos rfl]
  · have other : real ≠ first := fun is => unknown (is ▸ known)
    rw [rootOf, if_neg other]
    exact same

theorem Queue.skip {left : Nat} {visited files : List String} {path real : String}
    {rest : List (String × String)} (q : Queue t f root first left visited ((path, real) :: rest) files)
    (known : real ∈ visited) : Queue t f root first left visited rest files where
  nodup := q.nodup
  entered := q.entered
  ahead := (List.forall_mem_cons.mp q.ahead).2
  start := by
    rcases q.start with start | start
    · exact .inl start
    · rcases List.mem_cons.mp start with rfl | later
      · exact .inl known
      · exact .inr later
  linked := by
    intro outer ho v hv target leads
    rcases q.linked outer ho v hv target leads with seen | ahead
    · exact .inl seen
    · rcases List.mem_cons.mp ahead with rfl | later
      · exact .inl known
      · exact .inr later
  taken := q.taken
  found := q.found
  room := q.room

theorem Queue.enter {left : Nat} {visited files : List String} {path real : String}
    {rest : List (String × String)}
    (q : Queue t f root first (left + 1) visited ((path, real) :: rest) files)
    (unknown : real ∉ visited) :
    Queue t f root first left (real :: visited)
      ((Found.below t f path { files }).targets.reverse.map (fun r => (r, r)) ++ rest)
      (Found.below t f path { files }).files := by
  obtain ⟨files', targets'⟩ := Found.foldl_visit_eq t f (t.walk f.skips path) { files }
  rw [← Found.below] at files' targets'
  simp only [List.not_mem_nil, false_or] at targets'
  have place := q.root_eq unknown
  obtain ⟨own, ahead⟩ := List.forall_mem_cons.mp q.ahead
  have entered : Entered t f root first real := own.1
  have first_mem : first ∈ real :: visited := by
    rcases own.2 with same | ⟨known, -⟩
    · cases same
      exact List.mem_cons_self
    · exact List.mem_cons_of_mem _ known
  refine ⟨List.nodup_cons.mpr ⟨unknown, q.nodup⟩, List.forall_mem_cons.mpr ⟨entered, q.entered⟩,
    ?_, .inl first_mem, ?_, ?_, ?_, ?_⟩
  · intro item hi
    rcases List.mem_append.mp hi with new | old
    · obtain ⟨target, ht, rfl⟩ := List.mem_map.mp new
      obtain ⟨v, hv, leads⟩ := (targets' target).mp (List.mem_reverse.mp ht)
      exact ⟨.linked entered (place ▸ hv) leads, .inr ⟨first_mem, rfl⟩⟩
    · obtain ⟨own, kind⟩ := ahead item old
      exact ⟨own, kind.imp_right (.imp_left (List.mem_cons_of_mem _))⟩
  · intro outer ho v hv target leads
    rcases List.mem_cons.mp ho with rfl | ho
    · have new := (targets' target).mpr ⟨v, place ▸ hv, leads⟩
      exact .inr (by simpa using .inl new)
    · rcases q.linked outer ho v hv target leads with seen | ahead
      · exact .inl (List.mem_cons_of_mem _ seen)
      · rcases List.mem_cons.mp ahead with rfl | later
        · exact .inl List.mem_cons_self
        · exact .inr (by simpa using .inr (by simpa using later))
  · intro outer ho v hv p hp
    rcases List.mem_cons.mp ho with rfl | ho
    · exact (files' p).mpr (.inr ⟨v, place ▸ hv, hp⟩)
    · exact (files' p).mpr (.inl (q.taken outer ho v hv hp))
  · intro p hp
    rcases (files' p).mp hp with known | ⟨v, hv, shown⟩
    · exact q.found p known
    · exact ⟨real, entered, v, place ▸ hv, shown⟩
  · have room := q.room
    rw [List.length_cons]
    omega

/-- **The queue runs empty** before its bound is reached. -/
theorem Queue.mem_walkAll_iff (start : t.IsRealDir first) {left : Nat} {visited : List String}
    {todo : List (String × String)} {files : List String}
    (q : Queue t f root first left visited todo files) {p : String} :
    p ∈ walkAll t f left visited todo files ↔ FoundFrom t f root first p := by
  fun_induction walkAll t f left visited todo files with
  | case1 left visited files =>
      have start := q.start.resolve_right (by simp)
      refine ⟨q.found p, fun ⟨real, entered, v, hv, shown⟩ => ?_⟩
      have known := entered.mem_of_closed start fun outer ho v hv target leads =>
        (q.linked outer ho v hv target leads).resolve_right (by simp)
      exact q.taken real known v hv shown
  | case2 left visited files path real rest known ih => exact ih (q.skip (by simpa using known))
  | case3 visited files path real rest unknown =>
      have unknown : real ∉ visited := by simpa using unknown
      have entered := List.forall_mem_cons.mpr ⟨(q.ahead _ List.mem_cons_self).1, q.entered⟩
      have bound := length_le_of_entered start (List.nodup_cons.mpr ⟨unknown, q.nodup⟩) entered
      have room := q.room
      rw [List.length_cons] at bound
      omega
  | case4 visited files path real rest unknown left found ih =>
      exact ih (q.enter (by simpa using unknown))

/-- **What is found below a directory**, links followed. -/
theorem mem_filesUnder_iff_found {dir real : String} (start : t.IsRealDir real)
    (leads : t.realPath dir = .ok real) {p : String} :
    p ∈ filesUnder t f dir ↔ FoundFrom t f (walkRoot t dir real) real p := by
  have start' : Queue t f (walkRoot t dir real) real (t.dirCount + 1) []
      [(walkRoot t dir real, real)] [] :=
    { nodup := .nil
      entered := List.forall_mem_nil _
      ahead := by
        intro item hi
        obtain rfl := List.mem_singleton.mp hi
        exact ⟨.first, .inl rfl⟩
      start := .inr List.mem_cons_self
      linked := List.forall_mem_nil _
      taken := List.forall_mem_nil _
      found := List.forall_mem_nil _
      room := Nat.lt_succ_self _ }
  rw [filesUnder, leads]
  exact start'.mem_walkAll_iff start

/-! ### The stack -/

/-- A walk through links in the middle. -/
structure LinkedWalk where
  /-- The real directories that the walk has been through or is in. -/
  visited : List String := []
  files : List String := []
  /-- What is still ahead in the directories that it is in, the innermost first. -/
  active : List (List Visit) := []

namespace LinkedWalk

/-- Walks through a directory next, unless that has been visited by whatever path. -/
def call (t : FileTree) (f : Filter) (dir : String) (s : LinkedWalk) : LinkedWalk :=
  match t.realPath dir with
  | .error _ => { s with active := t.walk f.skips dir :: s.active }
  | .ok real =>
    if s.visited.contains real then s
    else { s with
      visited := real :: s.visited
      active := t.walk f.skips (walkRoot t dir real) :: s.active }

/-- The next step of the innermost walk, and the directory that it calls for. -/
def next? (t : FileTree) (f : Filter) (s : LinkedWalk) : Option (LinkedWalk × Option String) :=
  match s.active with
  | [] => none
  | [] :: outer => some ({ s with active := outer }, none)
  | (v :: ahead) :: outer =>
    let found := Found.visit t f { files := s.files } v
    some ({ s with files := found.files, active := ahead :: outer }, found.targets.head?)

/-- A step, with the call that it makes. -/
inductive Step (t : FileTree) (f : Filter) (s : LinkedWalk) : LinkedWalk → Prop where
  | plain {s' : LinkedWalk} (h : s.next? t f = some (s', none)) : Step t f s s'
  | call {s' : LinkedWalk} {dir : String} (h : s.next? t f = some (s', some dir)) :
      Step t f s (s'.call t f dir)

/-- The steps of a walk. -/
abbrev Steps (t : FileTree) (f : Filter) : LinkedWalk → LinkedWalk → Prop :=
  Relation.ReflTransGen (Step t f)

/-- What a step does: it leaves a directory, or it comes to what is ahead. -/
theorem next?_cases {s s' : LinkedWalk} {dir : Option String} (h : s.next? t f = some (s', dir)) :
    (s.active = [] :: s'.active ∧ s'.visited = s.visited ∧ s'.files = s.files ∧ dir = none) ∨
    ∃ v ahead outer, s.active = (v :: ahead) :: outer ∧ s' = { s with
      files := (Found.single t f v).files ++ s.files
      active := ahead :: outer } ∧ dir = (Found.single t f v).targets.head? := by
  rw [next?] at h
  split at h
  · cases h
  · next outer stack =>
      cases h
      exact .inl ⟨stack, rfl, rfl, rfl⟩
  · next v ahead outer stack =>
      cases h
      refine .inr ⟨v, ahead, outer, stack, ?_, ?_⟩
      · rw [Found.visit_eq]
      · rw [Found.visit_eq, List.append_nil]

theorem next?_eq_none_iff {s : LinkedWalk} : s.next? t f = none ↔ s.active = [] := by
  rw [next?]
  split
  · next stack => simp [stack]
  · next stack => simp [stack]
  · next stack => simp [stack]

/-- A step calls for real directories only. -/
theorem isRealDir_of_next? {s s' : LinkedWalk} {dir : String}
    (h : s.next? t f = some (s', some dir)) : t.IsRealDir dir := by
  rcases next?_cases h with ⟨-, -, -, none⟩ | ⟨v, -, -, -, -, head⟩
  · cases none
  · exact Found.isRealDir_of_mem (List.mem_of_mem_head? head.symm)

/-- **A call** for a real directory returns at once or adds it. -/
theorem call_cases {dir : String} (real : t.IsRealDir dir) (s : LinkedWalk) :
    (dir ∈ s.visited ∧ s.call t f dir = s) ∨
    (dir ∉ s.visited ∧ s.call t f dir = { s with
      visited := dir :: s.visited
      active := t.walk f.skips dir :: s.active }) := by
  obtain ⟨children, stands⟩ := real.lstat
  have place : walkRoot t dir dir = dir := by rw [walkRoot, stands]
  rw [call, real.realPath]
  by_cases known : dir ∈ s.visited
  · exact .inl ⟨known, by simp [known]⟩
  · exact .inr ⟨known, by simp [known, place]⟩

/-! ### What holds at each step -/

/-- What holds in the middle of a walk. -/
structure Sound (t : FileTree) (f : Filter) (root first : String) (s : LinkedWalk) : Prop where
  nodup : s.visited.Nodup
  entered : ∀ real ∈ s.visited, Entered t f root first real
  start : first ∈ s.visited
  active : ∀ vs ∈ s.active, ∃ real, Entered t f root first real ∧
    vs ⊆ t.walk f.skips (rootOf root first real)
  settled : ∀ real ∈ s.visited, ∀ v ∈ t.walk f.skips (rootOf root first real),
    (∃ vs ∈ s.active, v ∈ vs) ∨
      (Found.single t f v).targets ⊆ s.visited ∧ (Found.single t f v).files ⊆ s.files
  found : ∀ p ∈ s.files, FoundFrom t f root first p

theorem Sound.leave {s s' : LinkedWalk} (sound : s.Sound t f root first)
    (stack : s.active = [] :: s'.active) (visited : s'.visited = s.visited)
    (files : s'.files = s.files) : s'.Sound t f root first where
  nodup := visited ▸ sound.nodup
  entered := visited ▸ sound.entered
  start := visited ▸ sound.start
  active vs hvs := sound.active vs (stack ▸ List.mem_cons_of_mem _ hvs)
  settled := by
    intro real hr v hv
    rw [visited] at hr ⊢
    rw [files]
    refine (sound.settled real hr v hv).imp_left fun ⟨vs, hvs, mem⟩ => ?_
    rw [stack] at hvs
    rcases List.mem_cons.mp hvs with rfl | hvs
    · exact absurd mem List.not_mem_nil
    · exact ⟨vs, hvs, mem⟩
  found := files ▸ sound.found

/-- Coming to what leads to no directory that has not been visited, in any of the walks. -/
theorem Sound.pass {s : LinkedWalk} (sound : s.Sound t f root first) (inner : List (List Visit))
    {v : Visit} {ahead : List Visit} {outer : List (List Visit)}
    (stack : s.active = inner ++ (v :: ahead) :: outer)
    (targets : (Found.single t f v).targets ⊆ s.visited) :
    Sound t f root first { s with
      files := (Found.single t f v).files ++ s.files
      active := inner ++ ahead :: outer } where
  nodup := sound.nodup
  entered := sound.entered
  start := sound.start
  active := by
    intro vs hvs
    rcases List.mem_append.mp hvs with hvs | hvs
    · exact sound.active vs (stack ▸ List.mem_append_left _ hvs)
    rcases List.mem_cons.mp hvs with rfl | hvs
    · obtain ⟨real, entered, all⟩ := sound.active (v :: vs) (by simp [stack])
      exact ⟨real, entered, List.Subset.trans (List.subset_cons_self v vs) all⟩
    · exact sound.active vs (by simp [stack, hvs])
  settled := by
    intro real hr w hw
    rcases sound.settled real hr w hw with ⟨vs, hvs, mem⟩ | ⟨targets, files⟩
    · rw [stack, List.mem_append, List.mem_cons] at hvs
      rcases hvs with hvs | rfl | hvs
      · exact .inl ⟨vs, by simp [hvs], mem⟩
      · rcases List.mem_cons.mp mem with rfl | mem
        · exact .inr ⟨targets, List.subset_append_left _ _⟩
        · exact .inl ⟨ahead, by simp, mem⟩
      · exact .inl ⟨vs, by simp [hvs], mem⟩
    · exact .inr ⟨targets, List.Subset.trans files (List.subset_append_right _ _)⟩
  found := by
    intro p hp
    rcases List.mem_append.mp hp with own | known
    · obtain ⟨real, entered, all⟩ := sound.active (v :: ahead) (by simp [stack])
      exact ⟨real, entered, v, all List.mem_cons_self, own⟩
    · exact sound.found p known

/-- Going into a directory that has not been visited. -/
theorem Sound.enter {s : LinkedWalk} (sound : s.Sound t f root first) {real : String}
    (entered : Entered t f root first real) (unknown : real ∉ s.visited) :
    Sound t f root first { s with
      visited := real :: s.visited
      active := t.walk f.skips real :: s.active } := by
  have other : real ≠ first := fun same => unknown (same ▸ sound.start)
  have place : rootOf root first real = real := if_neg other
  refine ⟨List.nodup_cons.mpr ⟨unknown, sound.nodup⟩,
    List.forall_mem_cons.mpr ⟨entered, sound.entered⟩, List.mem_cons_of_mem _ sound.start,
    List.forall_mem_cons.mpr ⟨⟨real, entered, by rw [place]; exact List.Subset.refl _⟩, sound.active⟩,
    ?_, sound.found⟩
  intro outer ho v hv
  rcases List.mem_cons.mp ho with rfl | ho
  · exact .inl ⟨_, List.mem_cons_self, place ▸ hv⟩
  · rcases sound.settled outer ho v hv with ⟨vs, hvs, mem⟩ | ⟨targets, files⟩
    · exact .inl ⟨vs, List.mem_cons_of_mem _ hvs, mem⟩
    · exact .inr ⟨fun target ht => List.mem_cons_of_mem _ (targets ht), files⟩

/-- The size of what is ahead. -/
def size (s : LinkedWalk) : Nat := sumOf (s.active.map fun vs => vs.length + 1)

/-- **A step** adds a real directory, or less is ahead after it. -/
theorem Sound.next {s s' : LinkedWalk} (sound : s.Sound t f root first) (h : Step t f s s') :
    s'.Sound t f root first ∧
      ((∃ real, s'.visited = real :: s.visited) ∨ s'.visited = s.visited ∧ s'.size < s.size) := by
  cases h with
  | plain h =>
      rcases next?_cases h with ⟨stack, visited, files, -⟩ | ⟨v, ahead, outer, stack, rfl, head⟩
      · refine ⟨sound.leave stack visited files, .inr ⟨visited, ?_⟩⟩
        simp [size, sumOf, stack]
      · have none : (Found.single t f v).targets = [] := List.head?_eq_none_iff.mp head.symm
        refine ⟨sound.pass [] stack (by simp [none]), .inr ⟨rfl, ?_⟩⟩
        simp [size, sumOf, stack]
  | @call s' dir h =>
      have real := isRealDir_of_next? h
      rcases next?_cases h with ⟨-, -, -, none⟩ | ⟨v, ahead, outer, stack, rfl, head⟩
      · cases none
      have one : (Found.single t f v).targets = [dir] := by
        rw [Found.targets_single, ← head]
        rfl
      rcases call_cases (f := f) real _ with ⟨known, same⟩ | ⟨unknown, new⟩
      · rw [same]
        refine ⟨sound.pass [] stack (by simpa [one] using known), .inr ⟨rfl, ?_⟩⟩
        simp [size, sumOf, stack]
      · rw [new]
        obtain ⟨outside, entered, all⟩ := sound.active (v :: ahead) (by simp [stack])
        have linked : Entered t f root first dir :=
          entered.linked (all List.mem_cons_self) (one ▸ List.mem_cons_self)
        have inside := sound.enter linked unknown
        have stack' : t.walk f.skips dir :: s.active =
            [t.walk f.skips dir] ++ (v :: ahead) :: outer := by rw [stack]; rfl
        exact ⟨inside.pass [t.walk f.skips dir] stack' (by simp [one]), .inl ⟨dir, rfl⟩⟩

/-- The call with which a walk starts. -/
theorem call_eq {dir : String} (leads : t.realPath dir = .ok first) :
    call t f dir {} = { visited := [first], active := [t.walk f.skips (walkRoot t dir first)] } := by
  simp [call, leads]

theorem sound_call {dir : String} (leads : t.realPath dir = .ok first) :
    Sound t f (walkRoot t dir first) first (call t f dir {}) := by
  have place : rootOf (walkRoot t dir first) first first = walkRoot t dir first := if_pos rfl
  rw [call_eq leads]
  refine ⟨List.pairwise_singleton _ first, ?_, List.mem_singleton_self first, ?_, ?_,
    List.forall_mem_nil _⟩
  · simpa using .first
  · simp only [List.mem_singleton, forall_eq]
    exact ⟨first, .first, by rw [place]; exact List.Subset.refl _⟩
  · simp only [List.mem_singleton, forall_eq, place]
    exact fun v hv => .inl ⟨_, rfl, hv⟩

/-- **No walk goes on for ever.** -/
theorem Sound.acc (real : t.IsRealDir first) {s : LinkedWalk} (sound : s.Sound t f root first) :
    Acc (fun s' s => Step t f s s') s := by
  refine .intro s fun s' step => ?_
  obtain ⟨sound', less⟩ := sound.next step
  have bound := length_le_of_entered real sound'.nodup sound'.entered
  exact sound'.acc real
termination_by (t.dirCount - s.visited.length, s.size)
decreasing_by
  rcases less with ⟨dir, more⟩ | ⟨same, less⟩
  · rw [more, List.length_cons] at bound ⊢
    exact Prod.Lex.left _ _ (by omega)
  · rw [same]
    exact Prod.Lex.right _ less

theorem exists_last {s : LinkedWalk} (h : Acc (fun s' s => Step t f s s') s) :
    ∃ last, Steps t f s last ∧ last.active = [] := by
  induction h with
  | intro s _ ih =>
      cases ahead : s.next? t f with
      | none => exact ⟨s, .refl, next?_eq_none_iff.mp ahead⟩
      | some next =>
          obtain ⟨s', step⟩ : ∃ s', Step t f s s' := by
            obtain ⟨s', _ | dir⟩ := next
            · exact ⟨_, .plain ahead⟩
            · exact ⟨_, .call ahead⟩
          obtain ⟨last, steps, ends⟩ := ih s' step
          exact ⟨last, steps.head step, ends⟩

theorem Sound.steps {s s' : LinkedWalk} (sound : s.Sound t f root first) (h : Steps t f s s') :
    s'.Sound t f root first := by
  induction h with
  | refl => exact sound
  | tail _ step ih => exact (ih.next step).1

theorem Sound.mem_files_iff {s : LinkedWalk} (sound : s.Sound t f root first) (ends : s.active = [])
    {p : String} : p ∈ s.files ↔ FoundFrom t f root first p := by
  refine ⟨sound.found p, fun ⟨real, entered, v, hv, shown⟩ => ?_⟩
  have settled {real : String} (hr : real ∈ s.visited) {v : Visit}
      (hv : v ∈ t.walk f.skips (rootOf root first real)) :=
    (sound.settled real hr v hv).resolve_left (by simp [ends])
  have known := entered.mem_of_closed sound.start fun outer ho v hv => (settled ho hv).1
  exact (settled known hv).2 shown

end LinkedWalk

end Walk

open LinkedWalk

/-- **A walk through links ends.**  The call with which a walk through a directory starts adds its real
path, and each call that it makes on its way returns at once, for a directory that has been visited,
or adds a real directory that has not.  So no more directories are walked through than there are, the
walk goes not on for ever, and at its end it has the source files that a run finds below the
directory. -/
theorem linked_walk_ends {t : FileTree} {dir : String} (h : t.isDir dir) (f : Filter) :
    (∃ real, t.IsRealDir real ∧ t.realPath dir = .ok real ∧ (call t f dir {}).visited = [real]) ∧
    (∀ s, Steps t f (call t f dir {}) s → s.visited.length ≤ t.dirCount ∧
      ∀ s' target, s.next? t f = some (s', some target) →
        (target ∈ s'.visited ∧ s'.call t f target = s') ∨
        (t.IsRealDir target ∧ target ∉ s'.visited ∧
          (s'.call t f target).visited = target :: s'.visited)) ∧
    Acc (fun s' s => Step t f s s') (call t f dir {}) ∧
    ∃ last, Steps t f (call t f dir {}) last ∧ last.active = [] ∧
      ∀ p, p ∈ last.files ↔ p ∈ filesUnder t f dir := by
  obtain ⟨real, isReal, leads⟩ := FileTree.exists_realDir_of_isDir h
  have start : Sound t f (walkRoot t dir real) real (call t f dir {}) := sound_call leads
  have ends := start.acc isReal
  refine ⟨⟨real, isReal, leads, by rw [call_eq leads]⟩, fun s steps => ⟨?_, fun s' target calls => ?_⟩,
    ends, ?_⟩
  · have sound := start.steps steps
    exact length_le_of_entered isReal sound.nodup sound.entered
  · have realTarget := isRealDir_of_next? calls
    rcases call_cases (f := f) realTarget s' with known | ⟨unknown, new⟩
    · exact .inl known
    · exact .inr ⟨realTarget, unknown, by rw [new]⟩
  · obtain ⟨last, steps, ends⟩ := exists_last ends
    refine ⟨last, steps, ends, fun p => ?_⟩
    rw [(start.steps steps).mem_files_iff ends, mem_filesUnder_iff_found isReal leads]

/-- Two directories that link to each other, and one of them to itself and to the one above. -/
def linkedInCircles : FileTree where
  root := .dir [
    ("a", .dir [("A.sol", .file { content := .empty }), ("b", .link "../b"), ("self", .link ".")]),
    ("b", .dir [("a", .link "/a"), ("up", .link "..")])]

theorem linked_walk_ends_linkedInCircles :
    linkedInCircles.isDir "/a" ∧
      let f : Filter := .ofOptions "/" { followLinks := true }
      ∃ last, Steps linkedInCircles f (call linkedInCircles f "/a" {}) last ∧ last.active = [] := by
  have real : linkedInCircles.HasDir ["a"] := ⟨List.forall_mem_singleton.mpr (by decide), _, rfl⟩
  have isDir : linkedInCircles.isDir "/a" := FileTree.IsRealDir.isDir ⟨["a"], real, by decide⟩
  obtain ⟨-, -, -, last, steps, ends, -⟩ :=
    linked_walk_ends isDir (.ofOptions "/" { followLinks := true })
  exact ⟨isDir, last, steps, ends⟩

end SolidityLint
