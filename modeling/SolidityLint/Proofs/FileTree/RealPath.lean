import SolidityLint.Proofs.FileTree.Regular

/-!
# FileTree — real paths

What a path means stands at the end of names that lead through no link, whatever links the path
itself runs through.  These names make up its real path, which means itself, and a directory has one
of its own: there are no more real paths of directories than directories.

* `resolveFrom_eq_ok_iff`: the steps by which a path is resolved.
* `Resolves.real`: they end at something that is no link.
* `exists_realDir_of_isDir`: the real path of a directory.
* `IsRealDir.mem_realDirs`: it is among the paths to which a walk through the whole tree comes.
-/

namespace SolidityLint

theorem Entry.get?_concat_eq_some {e child : Entry} {names : List String} {name : String} :
    e.get? (names ++ [name]) = some child ↔
      ∃ children, e.get? names = some (.dir children) ∧ children.lookup name = some child := by
  rw [get?_append, Option.bind_eq_some_iff]
  constructor
  · rintro ⟨d, here, below⟩
    cases d with
    | file | link => cases below
    | dir children =>
        obtain ⟨c, found, same⟩ := Option.bind_eq_some_iff.mp below
        cases same
        exact ⟨children, here, found⟩
  · rintro ⟨children, here, found⟩
    exact ⟨_, here, by simp [get?, found]⟩

namespace FileTree

/-! ### Steps -/

/-- Names are resolved from a directory on, by way of no more than so many links. -/
inductive Resolves (root : Entry) (follow : Bool) :
    Nat → List String → List String → List String → Prop where
  | done {links : Nat} {names : List String} : Resolves root follow links names [] names
  | here {links : Nat} {dir rest names : List String} {children : List (String × Entry)}
      (stands : root.get? dir = some (.dir children)) (more : Resolves root follow links dir rest names) :
      Resolves root follow links dir ("." :: rest) names
  | up {links : Nat} {dir rest names : List String} {children : List (String × Entry)}
      (stands : root.get? dir = some (.dir children))
      (more : Resolves root follow links dir.dropLast rest names) :
      Resolves root follow links dir (".." :: rest) names
  | down {links : Nat} {dir rest names : List String} {name : String} (here : name ≠ ".")
      (up : name ≠ "..") (real : root.Real (dir ++ [name]))
      (more : Resolves root follow links (dir ++ [name]) rest names) :
      Resolves root follow links dir (name :: rest) names
  | through {links : Nat} {dir rest names : List String} {name target : String} (here : name ≠ ".")
      (up : name ≠ "..") (link : root.get? (dir ++ [name]) = some (.link target))
      (goes : rest ≠ [] ∨ follow = true)
      (more : Resolves root follow links (if Path.isAbsolute target then [] else dir)
        (Path.steps target ++ rest) names) :
      Resolves root follow (links + 1) dir (name :: rest) names
  | last {links : Nat} {dir : List String} {name target : String} (here : name ≠ ".") (up : name ≠ "..")
      (link : root.get? (dir ++ [name]) = some (.link target)) (stays : follow = false) :
      Resolves root follow links dir [name] (dir ++ [name])

theorem resolves_of_resolveFrom {root : Entry} {follow : Bool} {links : Nat}
    {dir todo names : List String} (h : resolveFrom root follow links dir todo = .ok names) :
    Resolves root follow links dir todo names := by
  fun_induction resolveFrom root follow links dir todo with
  | case1 =>
      cases h
      exact .done
  | case2 _ _ _ _ _ stands here ih => exact beq_iff_eq.mp here ▸ .here stands (ih h)
  | case3 _ _ _ _ _ stands _ up ih => exact beq_iff_eq.mp up ▸ .up stands (ih h)
  | case5 links dir name rest children stands here up target link stays =>
      cases h
      obtain ⟨none, stays⟩ := Bool.and_eq_true_iff.mp stays
      obtain rfl := List.isEmpty_iff.mp none
      exact .last (by simpa using here) (by simpa using up)
        (Entry.get?_concat_eq_some.mpr ⟨children, stands, link⟩) (by simpa using stays)
  | case7 dir name rest children stands here up target link goes links ih =>
      refine .through (by simpa using here) (by simpa using up)
        (Entry.get?_concat_eq_some.mpr ⟨children, stands, link⟩) ?_ (by simpa using ih h)
      rcases Bool.eq_false_or_eq_true follow with follows | stays
      · exact .inr follows
      · exact .inl (by simpa [stays] using goes)
  | case8 links dir name rest children stands here up child plain found ih =>
      exact .down (by simpa using here) (by simpa using up)
        ⟨child, Entry.get?_concat_eq_some.mpr ⟨children, stands, found⟩, plain⟩ (ih h)
  | case4 | case6 | case9 => cases h

theorem resolveFrom_of_resolves {root : Entry} {follow : Bool} {links : Nat}
    {dir todo names : List String} (h : Resolves root follow links dir todo names) :
    resolveFrom root follow links dir todo = .ok names := by
  induction h with
  | done => rw [resolveFrom]
  | here stands _ ih => rw [resolveFrom, stands]; simpa using ih
  | up stands _ ih => rw [resolveFrom, stands]; simpa using ih
  | down here up real _ ih =>
      obtain ⟨child, there, plain⟩ := real
      obtain ⟨children, stands, found⟩ := Entry.get?_concat_eq_some.mp there
      rw [resolveFrom, stands]
      cases child with
      | file | dir => simpa [here, up, found] using ih
      | link target => exact absurd rfl (plain target)
  | through here up link goes _ ih =>
      obtain ⟨children, stands, found⟩ := Entry.get?_concat_eq_some.mp link
      rw [resolveFrom, stands]
      rcases goes with goes | follows
      · simpa [here, up, found, goes] using ih
      · simpa [here, up, found, follows] using ih
  | last here up link stays =>
      obtain ⟨children, stands, found⟩ := Entry.get?_concat_eq_some.mp link
      rw [resolveFrom, stands]
      simp [here, up, found, stays]

/-- **The steps of a path.** -/
theorem resolveFrom_eq_ok_iff {root : Entry} {follow : Bool} {links : Nat}
    {dir todo names : List String} : resolveFrom root follow links dir todo = .ok names ↔
      Resolves root follow links dir todo names :=
  ⟨resolves_of_resolveFrom, resolveFrom_of_resolves⟩

/-- More links may be on the way than there are. -/
theorem Resolves.mono {root : Entry} {follow : Bool} {links : Nat} {dir todo names : List String}
    (h : Resolves root follow links dir todo names) {more : Nat} (le : links ≤ more) :
    Resolves root follow more dir todo names := by
  induction h generalizing more with
  | done => exact .done
  | here stands _ ih => exact .here stands (ih le)
  | up stands _ ih => exact .up stands (ih le)
  | down here up real _ ih => exact .down here up real (ih le)
  | last here up link stays => exact .last here up link stays
  | through here up link goes _ ih =>
      cases more with
      | zero => exact absurd le (Nat.not_succ_le_zero _)
      | succ more => exact .through here up link goes (ih (Nat.le_of_succ_le_succ le))

theorem Resolves.names {root : Entry} {follow : Bool} {links : Nat} {dir todo names : List String}
    (h : Resolves root follow links dir todo names) (before : Path.Names dir)
    (parts : ∀ c ∈ todo, c ≠ "" ∧ '/' ∉ c.toList) : Path.Names names := by
  have next {dir : List String} (before : Path.Names dir) {name : String} (here : name ≠ ".")
      (up : name ≠ "..") (part : name ≠ "" ∧ '/' ∉ name.toList) : Path.Names (dir ++ [name]) :=
    before.append (by simpa [Path.Names] using ⟨part.1, part.2, here, up⟩)
  induction h with
  | done => exact before
  | here _ _ ih => exact ih before (List.forall_mem_cons.mp parts).2
  | up _ _ ih =>
      exact ih (fun n hn => before n (List.dropLast_subset _ hn)) (List.forall_mem_cons.mp parts).2
  | down here up _ _ ih =>
      obtain ⟨part, others⟩ := List.forall_mem_cons.mp parts
      exact ih (next before here up part) others
  | last here up => exact next before here up (parts _ List.mem_cons_self)
  | @through links dir rest names name target here up _ _ _ ih =>
      refine ih ?_ fun c hc => ?_
      · split
        · exact List.forall_mem_nil _
        · exact before
      · rcases List.mem_append.mp hc with own | other
        · exact Path.mem_steps own
        · exact parts c (List.mem_cons_of_mem _ other)

/-- **The end of a path** is no link, unless the tree is one. -/
theorem Resolves.real {root : Entry} {links : Nat} {dir todo names : List String}
    (h : Resolves root true links dir todo names) (before : dir = [] ∨ root.Real dir) :
    names = [] ∨ root.Real names := by
  induction h with
  | done => exact before
  | here _ _ ih => exact ih before
  | @up links dir rest names children stands more ih =>
      refine ih ?_
      rcases dir.eq_nil_or_concat with rfl | ⟨front, name, rfl⟩
      · exact .inl rfl
      · rw [List.concat_eq_append] at stands ⊢
        obtain ⟨inner, holds, -⟩ := Entry.get?_concat_eq_some.mp stands
        rw [List.dropLast_concat]
        exact .inr ⟨_, holds, fun target => nofun⟩
  | down _ _ real _ ih => exact ih (.inr real)
  | through _ _ _ _ _ ih =>
      refine ih ?_
      split
      · exact .inl rfl
      · exact before
  | last _ _ _ stays => cases stays

/-- Up to a link at its end, a path is resolved in the same way whether that is followed or not. -/
theorem Resolves.unfollowed {root : Entry} {links : Nat} {dir todo names : List String}
    (h : Resolves root true links dir todo names) : Resolves root false links dir todo names ∨
      ∃ link target, Resolves root false links dir todo link ∧ root.get? link = some (.link target) := by
  induction h with
  | done => exact .inl .done
  | here stands _ ih =>
      exact ih.imp (.here stands) fun ⟨link, target, h, there⟩ => ⟨link, target, .here stands h, there⟩
  | up stands _ ih =>
      exact ih.imp (.up stands) fun ⟨link, target, h, there⟩ => ⟨link, target, .up stands h, there⟩
  | down here up real _ ih =>
      exact ih.imp (.down here up real) fun ⟨link, target, h, there⟩ =>
        ⟨link, target, .down here up real h, there⟩
  | @through links dir rest names name target here up link goes _ ih =>
      by_cases more : rest = []
      · subst more
        exact .inr ⟨_, target, .last here up link rfl, link⟩
      · exact ih.imp (.through here up link (.inl more)) fun ⟨q, target, h, there⟩ =>
          ⟨q, target, .through here up link (.inl more) h, there⟩
  | last _ _ _ stays => cases stays

/-! ### Real paths -/

theorem stat_eq_ok_iff {t : FileTree} {p : String} {e : Entry} : t.stat p = .ok e ↔
    ∃ names, Resolves t.root true maxLinks [] (Path.steps p) names ∧ t.root.get? names = some e := by
  simp only [← resolveFrom_eq_ok_iff, stat, resolve, bind, Except.bind]
  cases resolveFrom t.root true maxLinks [] (Path.steps p) with
  | error => simp
  | ok names => cases there : t.root.get? names <;> simp [there]

theorem lstat_eq_ok_iff {t : FileTree} {p : String} {e : Entry} : t.lstat p = .ok e ↔
    ∃ names, Resolves t.root false maxLinks [] (Path.steps p) names ∧
      t.root.get? names = some e := by
  simp only [← resolveFrom_eq_ok_iff, lstat, bind, Except.bind]
  cases resolveFrom t.root false maxLinks [] (Path.steps p) with
  | error => simp
  | ok names => cases there : t.root.get? names <;> simp [there]

theorem realPath_eq_ok_iff {t : FileTree} {p real : String} : t.realPath p = .ok real ↔
    ∃ names, Resolves t.root true maxRealLinks [] (Path.steps p) names ∧
      Path.ofComponents true names = real := by
  simp only [← resolveFrom_eq_ok_iff, realPath]
  cases resolveFrom t.root true maxRealLinks [] (Path.steps p) <;> simp [Except.map]

theorem isDir_iff {t : FileTree} {p : String} :
    t.isDir p ↔ ∃ children, t.stat p = .ok (.dir children) := by
  rw [isDir]
  cases t.stat p with
  | error => simp
  | ok e => cases e <;> simp [Entry.isDir]

/-- By the path of a directory stands a link, or the directory. -/
theorem lstat_of_stat_dir {t : FileTree} {p : String} {children : List (String × Entry)}
    (h : t.stat p = .ok (.dir children)) :
    (∃ target, t.lstat p = .ok (.link target)) ∨ t.lstat p = .ok (.dir children) := by
  obtain ⟨names, resolves, there⟩ := stat_eq_ok_iff.mp h
  rcases resolves.unfollowed with same | ⟨link, target, short, stands⟩
  · exact .inr (lstat_eq_ok_iff.mpr ⟨names, same, there⟩)
  · exact .inl ⟨target, lstat_eq_ok_iff.mpr ⟨link, short, stands⟩⟩

theorem names_of_resolves {root : Entry} {follow : Bool} {links : Nat} {p : String}
    {names : List String} (h : Resolves root follow links [] (Path.steps p) names) :
    Path.Names names :=
  h.names (List.forall_mem_nil _) fun _ hc => Path.mem_steps hc

/-- A directory, by the names that lead to it through no link. -/
def HasDir (t : FileTree) (names : List String) : Prop :=
  Path.Names names ∧ ∃ children, t.root.get? names = some (.dir children)

theorem HasDir.real {t : FileTree} {names : List String} (h : t.HasDir names) : t.root.Real names := by
  obtain ⟨-, children, there⟩ := h
  exact ⟨_, there, fun target => nofun⟩

/-- A directory is its own real path. -/
theorem HasDir.realPath {t : FileTree} {names : List String} (h : t.HasDir names) :
    t.realPath (Path.ofComponents true names) = .ok (Path.ofComponents true names) := by
  rw [FileTree.realPath, Path.steps_ofComponents h.1,
    resolveFrom_of_real true maxRealLinks h.1 [] h.real]
  rfl

theorem HasDir.lstat {t : FileTree} {names : List String} (h : t.HasDir names) :
    ∃ children, t.lstat (Path.ofComponents true names) = .ok (.dir children) := by
  obtain ⟨children, there⟩ := h.2
  exact ⟨children, lstat_of_steps _ (Path.steps_ofComponents h.1) h.1 there fun target => nofun⟩

/-- The real path of a directory. -/
def IsRealDir (t : FileTree) (p : String) : Prop :=
  ∃ names, t.HasDir names ∧ p = Path.ofComponents true names

theorem IsRealDir.realPath {t : FileTree} {p : String} (h : t.IsRealDir p) : t.realPath p = .ok p := by
  obtain ⟨names, dir, rfl⟩ := h
  exact dir.realPath

theorem IsRealDir.lstat {t : FileTree} {p : String} (h : t.IsRealDir p) :
    ∃ children, t.lstat p = .ok (.dir children) := by
  obtain ⟨names, dir, rfl⟩ := h
  exact dir.lstat

theorem IsRealDir.isDir {t : FileTree} {p : String} (h : t.IsRealDir p) : t.isDir p := by
  obtain ⟨names, dir, rfl⟩ := h
  obtain ⟨children, there⟩ := dir.2
  exact isDir_iff.mpr
    ⟨children, stat_of_steps _ (Path.steps_ofComponents dir.1) dir.1 there fun target => nofun⟩

/-- **A directory has a real path**, whatever path it is given by. -/
theorem exists_realDir_of_isDir {t : FileTree} {p : String} (h : t.isDir p) :
    ∃ real, t.IsRealDir real ∧ t.realPath p = .ok real := by
  obtain ⟨children, stands⟩ := isDir_iff.mp h
  obtain ⟨names, resolves, there⟩ := stat_eq_ok_iff.mp stands
  have more := resolves.mono (show maxLinks ≤ maxRealLinks by decide)
  exact ⟨_, ⟨names, ⟨names_of_resolves resolves, children, there⟩, rfl⟩,
    realPath_eq_ok_iff.mpr ⟨names, more, rfl⟩⟩

/-- What a path really is, if that is a directory. -/
theorem isRealDir_of_realPath {t : FileTree} {p real : String} (h : t.realPath p = .ok real)
    (dir : t.isDir real) : t.IsRealDir real := by
  obtain ⟨names, resolves, rfl⟩ := realPath_eq_ok_iff.mp h
  obtain ⟨children, stands⟩ := isDir_iff.mp dir
  obtain ⟨meant, resolves', there⟩ := stat_eq_ok_iff.mp stands
  have named := names_of_resolves resolves
  rw [Path.steps_ofComponents named] at resolves'
  have same : meant = names := by
    rcases resolves.real (.inl rfl) with rfl | real
    · cases resolves'
      rfl
    · have own := resolveFrom_of_real true maxLinks named [] real
      rw [resolveFrom_of_resolves resolves'] at own
      exact Except.ok.inj own
  exact ⟨names, ⟨named, children, same ▸ there⟩, rfl⟩

/-! ### How many there are -/

/-- The real paths of all directories. -/
def realDirs (t : FileTree) : List String :=
  ((t.walk (fun _ _ => false) "/").filter (·.entry.isDir)).map (·.path)

theorem mem_walkEntry_of_get? {e e' : Entry} {outer below : List String}
    (ho : Path.Names outer) (hb : Path.Names below) (there : e.get? below = some e') (name : String) :
    ∃ v ∈ walkEntry (fun _ _ => false) (Path.ofComponents true outer) name e,
      v.path = Path.ofComponents true (outer ++ below) ∧ v.entry = e' := by
  induction below generalizing e outer name with
  | nil =>
      cases there
      rw [List.append_nil]
      cases e' with
      | file | link => exact ⟨_, List.mem_singleton_self _, rfl, rfl⟩
      | dir => exact ⟨_, List.mem_cons_self, rfl, rfl⟩
  | cons n below ih =>
      cases e with
      | file | link => cases there
      | dir children =>
          obtain ⟨child, found, there⟩ := Option.bind_eq_some_iff.mp there
          obtain ⟨own, others⟩ := List.forall_mem_cons.mp hb
          have down : Path.Names (outer ++ [n]) := ho.append (by simpa [Path.Names] using own)
          obtain ⟨v, hv, path, entry⟩ := ih down others there n
          refine ⟨v, List.mem_cons_of_mem _ (mem_walkChildren.mpr ⟨_, mem_of_lookup found, ?_, ?_⟩),
            by simpa using path, entry⟩
          · simp
          · rwa [Path.child_ofComponents ho]

/-- **The real path of a directory is one of the real paths of all.** -/
theorem IsRealDir.mem_realDirs {t : FileTree} {p : String} (h : t.IsRealDir p) : p ∈ t.realDirs := by
  obtain ⟨names, ⟨hn, children, there⟩, rfl⟩ := h
  obtain ⟨v, hv, path, entry⟩ :=
    mem_walkEntry_of_get? (List.forall_mem_nil _) hn there (Path.base "/")
  have root : Path.ofComponents true [] = "/" := by decide
  have all : t.walk (fun _ _ => false) "/" = walkEntry (fun _ _ => false) "/" (Path.base "/") t.root := by
    have none : Path.steps "/" = [] := rfl
    rw [walk, FileTree.lstat, none, resolveFrom]
    rfl
  rw [root, ← all] at hv
  exact List.mem_map.mpr ⟨v, List.mem_filter.mpr ⟨hv, by rw [entry]; rfl⟩, path⟩

end FileTree

end SolidityLint
