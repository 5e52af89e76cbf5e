import SolidityLint.Proofs.FileTree.RealPath
import SolidityLint.Proofs.FileTree.WalkOrder

/-!
# FileTree — one change

A change at one place leaves all that stands elsewhere as it is, the children of the directories that
lead to the place apart.  So it leaves alone what paths mean that do not lead to the place, and a path
leads there only by its last name or through a link.

* `Entry.alikeBut_update`: what a change leaves as it is.
* `Resolves.alike`: paths that mean the same after it.
* `Resolves.last_or_linked`: paths that lead to a place.
-/

namespace SolidityLint

namespace Entry

/-! ### What a change leaves as it is -/

theorem mem_setChild {name : String} {e : Option Entry} {children : List (String × Entry)}
    {c : String × Entry} (h : c ∈ setChild name e children) :
    c ∈ children ∨ c.1 = name ∧ e = some c.2 := by
  have own (h : c ∈ (e.map ((name, ·))).toList) : c.1 = name ∧ e = some c.2 := by
    cases e with
    | none => cases h
    | some e =>
        obtain rfl := List.mem_singleton.mp h
        exact ⟨rfl, rfl⟩
  induction children with
  | nil => exact .inr (own h)
  | cons first rest ih =>
      obtain ⟨k, d⟩ := first
      rw [setChild] at h
      split at h
      · rcases List.mem_append.mp h with new | old
        · exact .inr (own new)
        · exact .inl (List.mem_cons_of_mem _ old)
      · split at h
        · rcases List.mem_append.mp h with new | old
          · exact .inr (own new)
          · exact .inl old
        · rcases List.mem_cons.mp h with rfl | h
          · exact .inl List.mem_cons_self
          · exact (ih h).imp_left (List.mem_cons_of_mem _)

theorem lookup_eq_none_of_lt {name : String} {children : List (String × Entry)}
    (less : ∀ c ∈ children, name < c.1) : children.lookup name = none :=
  List.lookup_eq_none_iff.mpr fun c hc =>
    bne_iff_ne.mpr fun same => String.lt_irrefl name (by simpa [← same] using less c hc)

theorem lookup_setChild {name : String} {e : Option Entry} {children : List (String × Entry)}
    (ordered : children.Pairwise (·.1 < ·.1)) (k : String) :
    (setChild name e children).lookup k = if k = name then e else children.lookup k := by
  have put {rest : List (String × Entry)} (less : ∀ c ∈ rest, name < c.1) :
      ((e.map ((name, ·))).toList ++ rest).lookup k = if k = name then e else rest.lookup k := by
    by_cases same : k = name
    · subst same
      cases e <;> simp [lookup_eq_none_of_lt less]
    · have other : (k == name) = false := beq_eq_false_iff_ne.mpr same
      cases e <;> simp [List.lookup_cons, other, same]
  induction children with
  | nil => simpa [setChild] using put (List.forall_mem_nil _)
  | cons first rest ih =>
      obtain ⟨key, d⟩ := first
      obtain ⟨less, rest_ordered⟩ := List.pairwise_cons.mp ordered
      rw [setChild]
      split
      · next same =>
          obtain rfl := beq_iff_eq.mp same
          rw [put less, List.lookup_cons]
          by_cases own : k = key
          · simp [own]
          · simp [own, beq_eq_false_iff_ne.mpr own]
      · next other =>
          have other : key ≠ name := fun same => other (beq_iff_eq.mpr same)
          split
          · next smaller =>
              exact put (List.forall_mem_cons.mpr
                ⟨smaller, fun c hc => String.lt_trans smaller (less c hc)⟩)
          · rw [List.lookup_cons, List.lookup_cons, ih rest_ordered]
            by_cases own : k = key
            · subst own
              simp [other]
            · simp [beq_eq_false_iff_ne.mpr own]

theorem pairwise_setChild {name : String} {e : Option Entry} {children : List (String × Entry)}
    (ordered : children.Pairwise (·.1 < ·.1)) : (setChild name e children).Pairwise (·.1 < ·.1) := by
  have put {rest : List (String × Entry)} (ordered : rest.Pairwise (·.1 < ·.1))
      (less : ∀ c ∈ rest, name < c.1) :
      ((e.map ((name, ·))).toList ++ rest).Pairwise (·.1 < ·.1) := by
    cases e with
    | none => exact ordered
    | some e => exact List.pairwise_cons.mpr ⟨less, ordered⟩
  induction children with
  | nil => simp [setChild]
  | cons first rest ih =>
      obtain ⟨key, d⟩ := first
      obtain ⟨less, rest_ordered⟩ := List.pairwise_cons.mp ordered
      rw [setChild]
      split
      · next same => exact put rest_ordered (beq_iff_eq.mp same ▸ less)
      · next other =>
          have other : key ≠ name := fun same => other (beq_iff_eq.mpr same)
          split
          · next smaller =>
              exact put ordered (List.forall_mem_cons.mpr
                ⟨smaller, fun c hc => String.lt_trans smaller (less c hc)⟩)
          · next larger =>
              refine List.pairwise_cons.mpr ⟨fun c hc => ?_, ih rest_ordered⟩
              rcases mem_setChild hc with old | ⟨new, -⟩
              · exact less c old
              · rw [new]
                refine String.not_le.mp fun le => other ?_
                exact String.le_antisymm (String.not_lt.mp larger) le

theorem ordered_setChild {children : List (String × Entry)} (named : ∀ c ∈ children, Path.IsName c.1)
    (sorted : children.Pairwise (·.1 < ·.1)) (within : ∀ c ∈ children, c.2.Ordered) {name : String}
    (own : Path.IsName name) {e : Option Entry} (new : ∀ d ∈ e, d.Ordered) :
    (Entry.dir (setChild name e children)).Ordered := by
  refine .dir ?_ (pairwise_setChild sorted) ?_
  · intro c hc
    rcases mem_setChild hc with old | ⟨same, -⟩
    · exact named c old
    · exact same ▸ own
  · intro c hc
    rcases mem_setChild hc with old | ⟨-, same⟩
    · exact within c old
    · exact new c.2 same

/-- The same, or directories both. -/
inductive Kindred : Option Entry → Option Entry → Prop where
  | same (e : Option Entry) : Kindred e e
  | dirs (children children' : List (String × Entry)) :
      Kindred (some (.dir children)) (some (.dir children'))

theorem Kindred.symm {e e' : Option Entry} (h : Kindred e e') : Kindred e' e := by
  cases h with
  | same => exact .same e
  | dirs children children' => exact .dirs children' children

theorem Kindred.dir {e e' : Option Entry} (h : Kindred e e') {children : List (String × Entry)}
    (dir : e = some (.dir children)) : ∃ children', e' = some (.dir children') := by
  cases h with
  | same => exact ⟨children, dir⟩
  | dirs _ children' => exact ⟨children', rfl⟩

theorem Kindred.leaf {e e' : Option Entry} (h : Kindred e e') {own : Entry} (leaf : own.isDir = false)
    (there : e = some own) : e' = some own := by
  cases h with
  | same => exact there
  | dirs =>
      cases there
      cases leaf

/-- The trees are alike but for what stands at the place and below. -/
def AlikeBut (place : List String) (r r' : Entry) : Prop :=
  ∀ names, ¬ place <+: names → Kindred (r.get? names) (r'.get? names)

theorem AlikeBut.symm {place : List String} {r r' : Entry} (h : AlikeBut place r r') :
    AlikeBut place r' r :=
  fun names apart => (h names apart).symm

/-- A directory where one child changes is as alike as the child. -/
theorem alikeBut_setChild {children : List (String × Entry)} (sorted : children.Pairwise (·.1 < ·.1))
    {name : String} {e : Option Entry} {place : List String}
    (below : ∀ names, ¬ place <+: names →
      Kindred ((children.lookup name).bind (·.get? names)) (e.bind (·.get? names))) :
    AlikeBut (name :: place) (.dir children) (.dir (setChild name e children)) := by
  intro names apart
  cases names with
  | nil => exact .dirs _ _
  | cons k names =>
      rw [get?, get?, lookup_setChild sorted]
      by_cases same : k = name
      · subst same
        rw [if_pos rfl]
        exact below names fun front => apart (List.cons_prefix_cons.mpr ⟨rfl, front⟩)
      · rw [if_neg same]
        exact .same _

/-- **What a change leaves as it is**: everything but what stands at its place. -/
theorem alikeBut_update {r : Entry} (ordered : r.Ordered) {dir : List String}
    {children : List (String × Entry)} (stands : r.get? dir = some (.dir children)) {name : String}
    (own : Path.IsName name) {e : Option Entry} (new : ∀ d ∈ e, d.Ordered) :
    ∃ r', update (fun _ => e) (dir ++ [name]) (some r) = some r' ∧ r'.Ordered ∧
      r'.get? (dir ++ [name]) = e ∧ AlikeBut (dir ++ [name]) r r' := by
  induction dir generalizing r with
  | nil =>
      cases stands
      cases ordered with
      | dir named sorted within =>
          refine ⟨.dir (setChild name e children), rfl,
            ordered_setChild named sorted within own new, ?_, ?_⟩
          · simp [get?, lookup_setChild sorted]
          · exact alikeBut_setChild sorted fun names apart => absurd names.nil_prefix apart
  | cons n dir ih =>
      cases ordered with
      | file | link => cases stands
      | @dir outer named sorted within =>
          obtain ⟨child, found, stands⟩ := Option.bind_eq_some_iff.mp stands
          have among := mem_of_lookup found
          obtain ⟨child', updated, ordered', there, alike⟩ := ih (within _ among) stands
          have new' : ∀ d ∈ some child', d.Ordered := fun d hd => Option.some.inj hd ▸ ordered'
          refine ⟨.dir (setChild n (some child') outer), ?_,
            ordered_setChild named sorted within (named _ among) new', ?_, ?_⟩
          · rw [List.cons_append, update, found, updated]
          · rw [List.cons_append, get?, lookup_setChild sorted, if_pos rfl]
            exact there
          · refine alikeBut_setChild sorted fun names apart => ?_
            rw [found]
            exact alike names apart

end Entry

namespace FileTree

/-- **A change at a place** of a tree. -/
theorem setAt_spec {t : FileTree} (ordered : t.root.Ordered) {dir : List String}
    {children : List (String × Entry)} (stands : t.root.get? dir = some (.dir children))
    {name : String} (own : Path.IsName name) {e : Option Entry} (new : ∀ d ∈ e, d.Ordered) :
    (t.setAt (dir ++ [name]) e).root.Ordered ∧
      (t.setAt (dir ++ [name]) e).root.get? (dir ++ [name]) = e ∧
      Entry.AlikeBut (dir ++ [name]) t.root (t.setAt (dir ++ [name]) e).root := by
  obtain ⟨root, updated, spec⟩ := Entry.alikeBut_update ordered stands own new
  rwa [setAt, updated, Option.getD_some]

/-! ### Paths that do not lead to a place -/

/-- A link leads to the place. -/
def LinkedTo (root : Entry) (place : List String) : Prop :=
  ∃ links dir name target, root.get? (dir ++ [name]) = some (.link target) ∧
    Resolves root true links dir [name] place

theorem exists_dir_of_prefix {root e : Entry} {front names : List String} (h : front <+: names)
    (there : root.get? names = some e) (other : names ≠ front) :
    ∃ children, root.get? front = some (.dir children) := by
  obtain ⟨rest, rfl⟩ := h
  rw [Entry.get?_append] at there
  obtain ⟨d, stands, below⟩ := Option.bind_eq_some_iff.mp there
  cases rest with
  | nil => simp at other
  | cons =>
      cases d with
      | file | link => cases below
      | dir children => exact ⟨children, stands⟩

theorem Resolves.dir_of_cons {root : Entry} {follow : Bool} {links : Nat}
    {dir rest names : List String} {name : String}
    (h : Resolves root follow links dir (name :: rest) names) :
    ∃ children, root.get? dir = some (.dir children) := by
  have above {e : Entry} {n : String} (there : root.get? (dir ++ [n]) = some e) :
      ∃ children, root.get? dir = some (.dir children) := by
    obtain ⟨children, stands, -⟩ := Entry.get?_concat_eq_some.mp there
    exact ⟨children, stands⟩
  cases h with
  | here stands | up stands => exact ⟨_, stands⟩
  | down _ _ real =>
      obtain ⟨e, there, -⟩ := real
      exact above there
  | through _ _ link | last _ _ link => exact above link

/-- Only what is still to be done leads away. -/
theorem Resolves.todo_ne_nil {root : Entry} {follow : Bool} {links : Nat} {dir todo names : List String}
    (h : Resolves root follow links dir todo names) (moved : names ≠ dir) : todo ≠ [] := by
  rintro rfl
  cases h
  exact moved rfl

theorem Resolves.dir_of_ne {root : Entry} {follow : Bool} {links : Nat} {dir todo names : List String}
    (h : Resolves root follow links dir todo names) (moved : names ≠ dir) :
    ∃ children, root.get? dir = some (.dir children) := by
  obtain ⟨name, rest, rfl⟩ := List.exists_cons_of_ne_nil (h.todo_ne_nil moved)
  exact h.dir_of_cons

/-- Behind a path comes what stands in its directory. -/
theorem Resolves.concat {root : Entry} {links : Nat} {dir todo names : List String}
    (h : Resolves root true links dir todo names) {name : String} (here : name ≠ ".") (up : name ≠ "..")
    (real : root.Real (names ++ [name])) :
    Resolves root true links dir (todo ++ [name]) (names ++ [name]) := by
  induction h with
  | done => exact .down here up real .done
  | here stands _ ih => exact .here stands (ih real)
  | up stands _ ih => exact .up stands (ih real)
  | down here up there _ ih => exact .down here up there (ih real)
  | through here up link _ _ ih =>
      refine .through here up link (.inr rfl) ?_
      simpa using ih real
  | last _ _ _ stays => cases stays

/-- Nothing at the place leads on: no directory is there, and no link. -/
def DeadEnd (root : Entry) (place : List String) : Prop :=
  ∀ e, root.get? place = some e → ∃ data, e = .file data

theorem DeadEnd.not_dir {root : Entry} {place : List String} (h : DeadEnd root place)
    {children : List (String × Entry)} : root.get? place ≠ some (.dir children) := fun there => by
  obtain ⟨data, file⟩ := h _ there
  cases file

theorem DeadEnd.not_link {root : Entry} {place : List String} (h : DeadEnd root place)
    {target : String} : root.get? place ≠ some (.link target) := fun there => by
  obtain ⟨data, file⟩ := h _ there
  cases file

/-- What stands anywhere but at a dead end is not below it. -/
theorem DeadEnd.apart {root e : Entry} {place names : List String} (h : DeadEnd root place)
    (there : root.get? names = some e) (other : names ≠ place) : ¬ place <+: names := fun front => by
  obtain ⟨children, dir⟩ := exists_dir_of_prefix front there other
  exact h.not_dir dir

/-! What leads on before a change at a dead end leads on behind it. -/

namespace DeadEnd

variable {r r' : Entry} {place names : List String} (dead : DeadEnd r place)
  (alike : Entry.AlikeBut place r r')

include dead alike

theorem dir_after {children : List (String × Entry)} (there : r.get? names = some (.dir children)) :
    ∃ children', r'.get? names = some (.dir children') :=
  (alike names (dead.apart there fun same => dead.not_dir (same ▸ there))).dir there

theorem link_after {target : String} (there : r.get? names = some (.link target)) :
    r'.get? names = some (.link target) :=
  (alike names (dead.apart there fun same => dead.not_link (same ▸ there))).leaf rfl there

theorem real_after (other : names ≠ place) (real : r.Real names) : r'.Real names := by
  obtain ⟨e, there, plain⟩ := real
  have kindred := alike names (dead.apart there other)
  cases e with
  | dir =>
      obtain ⟨children', there'⟩ := kindred.dir there
      exact ⟨_, there', by simp⟩
  | file => exact ⟨_, kindred.leaf rfl there, plain⟩
  | link target => exact absurd rfl (plain target)

end DeadEnd

/-- **What a path means**, if not what stands at the place, it means after a change there. -/
theorem Resolves.alike {r r' : Entry} {place : List String} (alike : Entry.AlikeBut place r r')
    (dead : DeadEnd r place) {follow : Bool} {links : Nat} {dir todo names : List String}
    (h : Resolves r follow links dir todo names) (other : names ≠ place) :
    Resolves r' follow links dir todo names := by
  induction h with
  | done => exact .done
  | here stands _ ih =>
      obtain ⟨children', stands'⟩ := dead.dir_after alike stands
      exact .here stands' (ih other)
  | up stands _ ih =>
      obtain ⟨children', stands'⟩ := dead.dir_after alike stands
      exact .up stands' (ih other)
  | down here up real more ih =>
      refine .down here up (dead.real_after alike (fun own => ?_) real) (ih other)
      -- From a dead end nothing leads on, so the place is where the path ends.
      obtain ⟨children, stands⟩ := more.dir_of_ne (own ▸ other)
      exact dead.not_dir (own ▸ stands)
  | through here up link goes _ ih =>
      exact .through here up (dead.link_after alike link) goes (ih other)
  | last here up link stays => exact .last here up (dead.link_after alike link) stays

/-- **A path that leads to a place** does so by its last name, or through a link. -/
theorem Resolves.last_or_linked {root : Entry} {place : List String} {name : String}
    (dead : DeadEnd root (place ++ [name])) {follow : Bool} {links : Nat} {dir todo names : List String}
    (h : Resolves root follow links dir todo names) (leads : names = place ++ [name])
    (other : dir ≠ place ++ [name]) :
    todo.getLast? = some name ∨ LinkedTo root (place ++ [name]) := by
  have behind {first : String} {rest : List String} (more : rest ≠ [])
      (h : rest.getLast? = some name ∨ LinkedTo root (place ++ [name])) :
      (first :: rest).getLast? = some name ∨ LinkedTo root (place ++ [name]) :=
    h.imp_left fun last => by rw [List.getLast?_cons_of_ne_nil more, last]
  induction h with
  | done => exact absurd leads other
  | here stands more ih =>
      exact behind (more.todo_ne_nil (leads ▸ other.symm)) (ih leads other)
  | @up links dir rest names children stands more ih =>
      have above : dir.dropLast ≠ place ++ [name] := fun same => by
        have front : place ++ [name] <+: dir := same ▸ List.dropLast_prefix dir
        refine dead.apart stands (fun at_ => ?_) front
        rw [at_] at same
        simp at same
      exact behind (more.todo_ne_nil (leads ▸ above.symm)) (ih leads above)
  | @down links dir rest names first here up real more ih =>
      cases rest with
      | nil =>
          cases more
          exact .inl (by simpa using (List.append_inj' leads rfl).2)
      | cons =>
          obtain ⟨children, stands⟩ := more.dir_of_cons
          exact behind (List.cons_ne_nil _ _)
            (ih leads fun same => dead.not_dir (same ▸ stands))
  | @through links dir rest names first target here up link goes more ih =>
      cases rest with
      | nil =>
          have follows := goes.resolve_left (by simp)
          subst follows leads
          exact .inr ⟨_, dir, first, target, link, .through here up link goes more⟩
      | cons next rest =>
          have base : (if Path.isAbsolute target then [] else dir) ≠ place ++ [name] := by
            split
            · simp
            · exact other
          refine behind (List.cons_ne_nil _ _) ((ih leads base).imp_left fun last => ?_)
          simpa [List.getLast?_append, List.getLast?_cons] using last
  | last => exact .inl (by simpa using (List.append_inj' leads rfl).2)

/-! ### A file that comes, goes or changes -/

/-- The trees differ in one file, which is there in both or in one of them, and no link leads to its
place. -/
structure OneFileApart (t t' : FileTree) (place : List String) (name : String) : Prop where
  ordered : t.root.Ordered
  ordered' : t'.root.Ordered
  alike : Entry.AlikeBut (place ++ [name]) t.root t'.root
  dead : DeadEnd t.root (place ++ [name])
  dead' : DeadEnd t'.root (place ++ [name])
  unlinked : ¬ LinkedTo t.root (place ++ [name])
  unlinked' : ¬ LinkedTo t'.root (place ++ [name])

namespace OneFileApart

variable {t t' : FileTree} {place : List String} {name : String}

theorem symm (h : OneFileApart t t' place name) : OneFileApart t' t place name :=
  ⟨h.ordered', h.ordered, h.alike.symm, h.dead', h.dead, h.unlinked', h.unlinked⟩

/-- Only a path with the name of the file at its end means the file. -/
theorem ne_of_last (h : OneFileApart t t' place name) {follow : Bool} {links : Nat} {p : String}
    {names : List String} (resolves : Resolves t.root follow links [] (Path.steps p) names)
    (last : (Path.components p).getLast? ≠ some name) : names ≠ place ++ [name] := fun same => by
  rcases resolves.last_or_linked h.dead same (by simp) with own | linked
  · have here : name ≠ "." := (names_of_resolves resolves name (by simp [same])).here
    exact last (Path.getLast?_components_of_steps own here)
  · exact h.unlinked linked

/-- A directory is one by the same paths. -/
theorem stat_dir (h : OneFileApart t t' place name) {p : String} {children : List (String × Entry)}
    (dir : t.stat p = .ok (.dir children)) : ∃ children', t'.stat p = .ok (.dir children') := by
  obtain ⟨names, resolves, there⟩ := stat_eq_ok_iff.mp dir
  have other : names ≠ place ++ [name] := fun same => h.dead.not_dir (same ▸ there)
  obtain ⟨children', there'⟩ := (h.alike names (h.dead.apart there other)).dir there
  exact ⟨children', stat_eq_ok_iff.mpr ⟨names, resolves.alike h.alike h.dead other, there'⟩⟩

theorem isDir (h : OneFileApart t t' place name) {p : String} (dir : t.isDir p) : t'.isDir p := by
  obtain ⟨children, stands⟩ := isDir_iff.mp dir
  exact isDir_iff.mpr (h.stat_dir stands)

theorem isDir_iff_isDir (h : OneFileApart t t' place name) {p : String} : t.isDir p ↔ t'.isDir p :=
  ⟨h.isDir, h.symm.isDir⟩

theorem lstat_dir (h : OneFileApart t t' place name) {p : String} {children : List (String × Entry)}
    (dir : t.lstat p = .ok (.dir children)) :
    ∃ names children', Resolves t.root false maxLinks [] (Path.steps p) names ∧
      t.root.get? names = some (.dir children) ∧ t'.root.get? names = some (.dir children') ∧
      t'.lstat p = .ok (.dir children') := by
  obtain ⟨names, resolves, there⟩ := lstat_eq_ok_iff.mp dir
  have other : names ≠ place ++ [name] := fun same => h.dead.not_dir (same ▸ there)
  obtain ⟨children', there'⟩ := (h.alike names (h.dead.apart there other)).dir there
  exact ⟨names, children', resolves, there, there',
    lstat_eq_ok_iff.mpr ⟨names, resolves.alike h.alike h.dead other, there'⟩⟩

theorem lstat_link (h : OneFileApart t t' place name) {p target : String}
    (link : t.lstat p = .ok (.link target)) : t'.lstat p = .ok (.link target) := by
  obtain ⟨names, resolves, there⟩ := lstat_eq_ok_iff.mp link
  have other : names ≠ place ++ [name] := fun same => by
    obtain ⟨data, file⟩ := h.dead _ (same ▸ there)
    cases file
  exact lstat_eq_ok_iff.mpr ⟨names, resolves.alike h.alike h.dead other,
    (h.alike names (h.dead.apart there other)).leaf rfl there⟩

/-- A directory has the same real path by the same paths. -/
theorem realPath_dir (h : OneFileApart t t' place name) {p real : String}
    (leads : t.realPath p = .ok real) (dir : t.isDir real) : t'.realPath p = .ok real := by
  obtain ⟨names, ⟨own, children, there⟩, same⟩ := isRealDir_of_realPath leads dir
  obtain ⟨meant, resolves, rfl⟩ := realPath_eq_ok_iff.mp leads
  obtain rfl := Path.ofComponents_inj (names_of_resolves resolves) own same
  have other : meant ≠ place ++ [name] := fun same => h.dead.not_dir (same ▸ there)
  exact realPath_eq_ok_iff.mpr ⟨meant, resolves.alike h.alike h.dead other, rfl⟩

/-- So has what is not called as the file is. -/
theorem realPath_of_last (h : OneFileApart t t' place name) {p real : String}
    (last : (Path.components p).getLast? ≠ some name) (leads : t.realPath p = .ok real) :
    t'.realPath p = .ok real := by
  obtain ⟨names, resolves, rfl⟩ := realPath_eq_ok_iff.mp leads
  exact realPath_eq_ok_iff.mpr
    ⟨names, resolves.alike h.alike h.dead (h.ne_of_last resolves last), rfl⟩

/-- What is not called as the file is still leads somewhere. -/
theorem stat_of_last (h : OneFileApart t t' place name) {p : String} {e : Entry}
    (last : (Path.components p).getLast? ≠ some name) (stands : t.stat p = .ok e) :
    ∃ e', t'.stat p = .ok e' := by
  obtain ⟨names, resolves, there⟩ := stat_eq_ok_iff.mp stands
  have other := h.ne_of_last resolves last
  have still : ∃ e', t'.root.get? names = some e' := by
    have kindred := h.alike names (h.dead.apart there other)
    cases e with
    | dir =>
        obtain ⟨children', there'⟩ := kindred.dir there
        exact ⟨_, there'⟩
    | file | link => exact ⟨_, kindred.leaf rfl there⟩
  obtain ⟨e', there'⟩ := still
  exact ⟨e', stat_eq_ok_iff.mpr ⟨names, resolves.alike h.alike h.dead other, there'⟩⟩

/-- What is not called as the file is has the same content. -/
theorem read_of_last (h : OneFileApart t t' place name) {p : String} {content : ByteArray}
    (last : (Path.components p).getLast? ≠ some name) (read : t.read p = .ok content) :
    t'.read p = .ok content := by
  have stands : ∃ data, t.stat p = .ok (.file data) ∧ data.content = content := by
    rw [FileTree.read] at read
    split at read
    · cases read
    · next data stands => exact ⟨data, stands, Except.ok.inj read⟩
    · cases read
  obtain ⟨data, stands, rfl⟩ := stands
  obtain ⟨names, resolves, there⟩ := stat_eq_ok_iff.mp stands
  have other := h.ne_of_last resolves last
  have stands' : t'.stat p = .ok (.file data) := stat_eq_ok_iff.mpr ⟨names,
    resolves.alike h.alike h.dead other, (h.alike names (h.dead.apart there other)).leaf rfl there⟩
  rw [FileTree.read, stands']

/-- Below a directory there are the same files and links, those that are called as the file is
apart. -/
theorem get?_below (h : OneFileApart t t' place name) {dir below : List String} {n : String}
    {children children' : List (String × Entry)} (stands : t.root.get? dir = some (.dir children))
    (stands' : t'.root.get? dir = some (.dir children')) {e : Entry}
    (there : (Entry.dir children).get? (below ++ [n]) = some e) (leaf : e.isDir = false)
    (other : n ≠ name ∨ ∃ target, e = .link target) :
    (Entry.dir children').get? (below ++ [n]) = some e := by
  have whole {r : Entry} {children : List (String × Entry)}
      (stands : r.get? dir = some (.dir children)) :
      r.get? (dir ++ (below ++ [n])) = (Entry.dir children).get? (below ++ [n]) := by
    rw [Entry.get?_append, stands]
    rfl
  rw [← whole stands] at there
  rw [← whole stands']
  have apart : dir ++ (below ++ [n]) ≠ place ++ [name] := fun same => by
    rcases other with other | ⟨target, link⟩
    · rw [← List.append_assoc] at same
      exact other (by simpa using (List.append_inj' same rfl).2)
    · obtain ⟨data, file⟩ := h.dead _ (same ▸ there)
      cases link.symm.trans file
  exact (h.alike _ (h.dead.apart there apart)).leaf leaf there

/-- **A walk** comes to the same files and links, those that are called as the file is apart. -/
theorem mem_walk (h : OneFileApart t t' place name) {skip : String → String → Bool}
    {names : List String} (hn : Path.Names names) {children : List (String × Entry)}
    (dir : t.lstat (Path.ofComponents true names) = .ok (.dir children)) {v : Visit}
    (leaf : v.entry.isDir = false) (other : v.name ≠ name ∨ ∃ target, v.entry = .link target)
    (hv : v ∈ t.walk skip (Path.ofComponents true names)) :
    v ∈ t'.walk skip (Path.ofComponents true names) := by
  obtain ⟨real, children', -, stands, stands', dir'⟩ := h.lstat_dir dir
  have walk {t : FileTree} {children : List (String × Entry)}
      (dir : t.lstat (Path.ofComponents true names) = .ok (.dir children)) :
      v ∈ t.walk skip (Path.ofComponents true names) ↔
        v ∈ walkChildren skip (Path.ofComponents true names) children := by
    rw [FileTree.walk, dir]
    refine List.mem_cons.trans ⟨fun both => both.resolve_left fun here => ?_, .inr⟩
    rw [here] at leaf
    cases leaf
  rw [walk dir, mem_walkChildren_leaf (h.ordered.get? stands) hn leaf] at hv
  rw [walk dir', mem_walkChildren_leaf (h.ordered'.get? stands') hn leaf]
  obtain ⟨below, there, path, passes⟩ := hv
  exact ⟨below, h.get?_below stands stands' there leaf other, path, passes⟩

end OneFileApart

end FileTree

end SolidityLint
