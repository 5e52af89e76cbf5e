import SolidityLint.Proofs.FileTree.Regular

/-!
# FileTree — the order of a walk

The children of a directory stand in the order of their names, so a walk comes to what is below in
the order of the names that lead there, compared one by one: a directory before what it holds, and
a file after all that a directory with a smaller name holds.  Links, which a walk does not follow,
change nothing in this.

* `mem_walkChildren_leaf`: what a walk comes to, directories apart.
* `pairwise_walkChildren`: in which order.
-/

namespace SolidityLint

/-! ### Trees with links -/

/-- The children of directories have names and are in their order. -/
inductive Entry.Ordered : Entry → Prop where
  | file (data : FileData) : Ordered (.file data)
  | link (target : String) : Ordered (.link target)
  | dir {children : List (String × Entry)} (names : ∀ c ∈ children, Path.IsName c.1)
      (ordered : children.Pairwise (·.1 < ·.1)) (h : ∀ c ∈ children, Ordered c.2) :
      Ordered (.dir children)

theorem Entry.Regular.ordered {e : Entry} (h : e.Regular) : e.Ordered := by
  induction h with
  | file data => exact .file data
  | dir names ordered _ ih => exact .dir names ordered ih

theorem Entry.Ordered.get? {e e' : Entry} (h : e.Ordered) {names : List String}
    (there : e.get? names = some e') : e'.Ordered := by
  induction names generalizing e with
  | nil =>
      cases there
      exact h
  | cons n names ih =>
      cases h with
      | file | link => cases there
      | dir _ _ h =>
          obtain ⟨child, found, there⟩ := Option.bind_eq_some_iff.mp there
          exact ih (h _ (mem_of_lookup found)) there

/-- What leads to an entry are names. -/
theorem Entry.Ordered.names {e e' : Entry} (h : e.Ordered) {names : List String}
    (there : e.get? names = some e') : Path.Names names := by
  induction names generalizing e with
  | nil => exact List.forall_mem_nil _
  | cons n names ih =>
      cases h with
      | file | link => cases there
      | dir named _ h =>
          obtain ⟨child, found, there⟩ := Option.bind_eq_some_iff.mp there
          exact List.forall_mem_cons.mpr ⟨named _ (mem_of_lookup found),
            ih (h _ (mem_of_lookup found)) there⟩

namespace FileTree

theorem ordered_of_lstat {t : FileTree} (ordered : t.root.Ordered) {path : String} {e : Entry}
    (h : t.lstat path = .ok e) : e.Ordered := by
  rw [lstat] at h
  cases resolved : resolveFrom t.root false maxLinks [] (Path.steps path) with
  | error trouble =>
      rw [resolved] at h
      cases h
  | ok names =>
      rw [resolved] at h
      simp only [bind, Except.bind] at h
      split at h
      · next e' there =>
          cases h
          exact ordered.get? there
      · cases h

/-! ### What a walk comes to -/

section Walk

variable {skip : String → String → Bool}

/-- All that a walk comes to is at its start or below. -/
theorem exists_path_of_mem_walkEntry {e : Entry} (ordered : e.Ordered) {names : List String}
    (hn : Path.Names names) {name : String} {v : Visit}
    (h : v ∈ walkEntry skip (Path.ofComponents true names) name e) :
    ∃ more, Path.Names (names ++ more) ∧ v.path = Path.ofComponents true (names ++ more) := by
  have start : ∃ more, Path.Names (names ++ more) ∧
      Path.ofComponents true names = Path.ofComponents true (names ++ more) := ⟨[], by simpa using hn⟩
  induction ordered generalizing names name with
  | file | link =>
      obtain rfl := List.mem_singleton.mp h
      exact start
  | @dir children named _ _ ih =>
      rcases List.mem_cons.mp h with rfl | h
      · exact start
      obtain ⟨c, hc, -, hv⟩ := mem_walkChildren.mp h
      rw [Path.child_ofComponents hn] at hv
      have down : Path.Names (names ++ [c.1]) := hn.append (by simpa [Path.Names] using named c hc)
      obtain ⟨more, hmore, place⟩ := ih c hc down hv ⟨[], by simpa using down⟩
      exact ⟨c.1 :: more, by simpa using hmore, by simpa using place⟩

theorem exists_child_of_mem_walkChildren {children : List (String × Entry)}
    (ordered : (Entry.dir children).Ordered) {names : List String} (hn : Path.Names names) {v : Visit}
    (h : v ∈ walkChildren skip (Path.ofComponents true names) children) :
    ∃ c ∈ children, ∃ more, Path.components v.path = names ++ c.1 :: more := by
  obtain ⟨c, hc, -, hv⟩ := mem_walkChildren.mp h
  cases ordered with
  | dir named _ within =>
      have down : Path.Names (names ++ [c.1]) := hn.append (by simpa [Path.Names] using named c hc)
      rw [Path.child_ofComponents hn] at hv
      obtain ⟨more, hmore, place⟩ := exists_path_of_mem_walkEntry (within c hc) down hv
      exact ⟨c, hc, more, by rw [place, Path.components_ofComponents hmore]; simp⟩

/-- **A walk** comes to what is no directory if no directory on the way is passed over. -/
theorem mem_walkChildren_leaf {children : List (String × Entry)}
    (ordered : (Entry.dir children).Ordered) {names : List String} (hn : Path.Names names) {v : Visit}
    (leaf : v.entry.isDir = false) :
    v ∈ walkChildren skip (Path.ofComponents true names) children ↔
      ∃ below, (Entry.dir children).get? (below ++ [v.name]) = some v.entry ∧
        v.path = Path.ofComponents true (names ++ (below ++ [v.name])) ∧
        Passes skip (Path.ofComponents true names) below := by
  generalize is : Entry.dir children = e at ordered
  induction ordered generalizing children names with
  | file | link => cases is
  | @dir children named sorted _ ih =>
      cases is
      have down {n : String} {e : Entry} (hc : (n, e) ∈ children) : Path.Names (names ++ [n]) :=
        hn.append (by simpa [Path.Names] using named _ hc)
      rw [mem_walkChildren]
      constructor
      · rintro ⟨⟨n, e⟩, hc, passed, hv⟩
        rw [Path.child_ofComponents hn] at hv passed
        cases e with
        | file data | link target =>
            obtain rfl := List.mem_singleton.mp hv
            exact ⟨[], by simp [Entry.get?, lookup_of_mem sorted hc], rfl, trivial⟩
        | dir inner =>
            rcases List.mem_cons.mp hv with rfl | hv
            · cases leaf
            obtain ⟨below, there, place, passes⟩ := (ih _ hc (down hc) rfl).mp hv
            refine ⟨n :: below, by simp [Entry.get?, lookup_of_mem sorted hc, there],
              by simpa using place, ?_, ?_⟩ <;> rw [Path.child_ofComponents hn]
            · exact passed
            · exact passes
      · rintro ⟨below, there, place, passes⟩
        cases below with
        | nil =>
            have found : children.lookup v.name = some v.entry := by simpa [Entry.get?] using there
            refine ⟨_, mem_of_lookup found, by simp [leaf], ?_⟩
            obtain ⟨path, name, entry⟩ := v
            rw [Path.child_ofComponents hn]
            obtain rfl : path = Path.ofComponents true (names ++ [name]) := place
            cases entry with
            | file | link => exact List.mem_singleton_self _
            | dir => cases leaf
        | cons n below =>
            obtain ⟨e, found, there⟩ := Option.bind_eq_some_iff.mp there
            have hc := mem_of_lookup found
            obtain ⟨passed, passes⟩ := passes
            cases e with
            | file | link => cases below <;> cases there
            | dir inner =>
                refine ⟨_, hc, passed, List.mem_cons_of_mem _ ?_⟩
                rw [Path.child_ofComponents hn] at passes ⊢
                exact (ih _ hc (down hc) rfl).mpr ⟨below, there, by simpa using place, passes⟩

/-! ### In which order -/

theorem append_lt_append_iff (ns : List String) {as bs : List String} :
    ns ++ as < ns ++ bs ↔ as < bs := by
  induction ns with
  | nil => rfl
  | cons n ns ih =>
      rw [List.cons_append, List.cons_append, List.cons_lt_cons_iff, ih]
      exact ⟨fun h => (h.resolve_left (String.lt_irrefl n)).2, fun less => .inr ⟨rfl, less⟩⟩

/-- The first visit comes to what stands before the other in the order of their names. -/
def Visit.Before (v v' : Visit) : Prop := Path.components v.path < Path.components v'.path

theorem pairwise_walkChildren_of_entries {children : List (String × Entry)}
    (ordered : (Entry.dir children).Ordered) {names : List String} (hn : Path.Names names)
    (each : ∀ c ∈ children,
      (walkEntry skip (Path.ofComponents true (names ++ [c.1])) c.1 c.2).Pairwise Visit.Before) :
    (walkChildren skip (Path.ofComponents true names) children).Pairwise Visit.Before := by
  induction children with
  | nil => exact .nil
  | cons c children ih =>
      cases ordered with
      | dir named sorted within =>
          obtain ⟨first, others⟩ := List.forall_mem_cons.mp each
          obtain ⟨less, sorted⟩ := List.pairwise_cons.mp sorted
          obtain ⟨own, named⟩ := List.forall_mem_cons.mp named
          obtain ⟨ordered, within⟩ := List.forall_mem_cons.mp within
          have here : (Entry.dir [c]).Ordered :=
            .dir (by simpa using own) (List.pairwise_singleton _ _) (by simpa using ordered)
          have rest : (Entry.dir children).Ordered := .dir named sorted within
          rw [← List.singleton_append, walkChildren_append]
          refine List.pairwise_append.mpr ⟨?_, ih rest others, fun v hv v' hv' => ?_⟩
          · have alone : walkChildren skip (Path.ofComponents true names) [c] = [] ∨
                walkChildren skip (Path.ofComponents true names) [c] =
                  walkEntry skip (Path.ofComponents true (names ++ [c.1])) c.1 c.2 := by
              rw [← Path.child_ofComponents hn, walkChildren, walkChildren, List.append_nil]
              cases passed : (c.2.isDir && skip (Path.child (Path.ofComponents true names) c.1) c.1) with
              | true => exact .inl (if_pos passed)
              | false => exact .inr (if_neg (Bool.eq_false_iff.mp passed))
            rcases alone with none | all
            · exact none ▸ .nil
            · exact all ▸ first
          · obtain ⟨d, hd, more, place⟩ := exists_child_of_mem_walkChildren here hn hv
            obtain ⟨d', hd', more', place'⟩ := exists_child_of_mem_walkChildren rest hn hv'
            obtain rfl := List.mem_singleton.mp hd
            rw [Visit.Before, place, place', append_lt_append_iff]
            exact List.cons_lt_cons_iff.mpr (.inl (less d' hd'))

/-- **The order of a walk** is that of the names that lead to what it comes to. -/
theorem pairwise_walkChildren {children : List (String × Entry)}
    (ordered : (Entry.dir children).Ordered) {names : List String} (hn : Path.Names names) :
    (walkChildren skip (Path.ofComponents true names) children).Pairwise Visit.Before := by
  have entries {e : Entry} (ordered : e.Ordered) {names : List String} (hn : Path.Names names)
      (name : String) :
      (walkEntry skip (Path.ofComponents true names) name e).Pairwise Visit.Before := by
    induction ordered generalizing names name with
    | file | link => exact List.pairwise_singleton _ _
    | @dir children named sorted within ih =>
        refine List.pairwise_cons.mpr ⟨fun v hv => ?_, ?_⟩
        · obtain ⟨c, -, more, place⟩ := exists_child_of_mem_walkChildren (.dir named sorted within) hn hv
          rw [Visit.Before, Path.components_ofComponents hn, place]
          simpa using (append_lt_append_iff names).mpr (List.nil_lt_cons c.1 more)
        · refine pairwise_walkChildren_of_entries (.dir named sorted within) hn fun c hc => ?_
          exact ih c hc (hn.append (by simpa [Path.Names] using named c hc)) c.1
  cases ordered with
  | dir named sorted within =>
      refine pairwise_walkChildren_of_entries (.dir named sorted within) hn fun c hc => ?_
      exact entries (within c hc) (hn.append (by simpa [Path.Names] using named c hc)) c.1

end Walk

end FileTree

end SolidityLint
