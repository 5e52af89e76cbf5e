import SolidityLint.Proofs.Ast.Plan

/-!
# Ast — well nested trees

In a well nested tree every node lies inside its parent, the name of a node inside the node,
siblings do not overlap, and what a node stores in a list stands there in source order
(`WellNested`).  Nothing is said about the order of the children: decoding sorts them
(`children_precede`), by words whose differences wrap, so that this too is a fact about trees whose
spans are proper.

* `WellNested.pairwise_nodes`: of two nodes that a walk over a decoded, well nested tree meets, the
  later one stands below the earlier or behind it.
-/

namespace SolidityLint

/-! ### Spans -/

namespace Span

/-- The span starts in the source and does not end before it starts. -/
def Proper (s : Span) : Prop := 0 ≤ s.offset ∧ s.offset ≤ s.stop

/-- The span lies inside another. -/
def Inside (s t : Span) : Prop := t.offset ≤ s.offset ∧ s.offset ≤ s.stop ∧ s.stop ≤ t.stop

/-- The span ends before another starts. -/
def Precedes (s t : Span) : Prop := s.stop ≤ t.offset

instance (s : Span) : Decidable s.Proper := inferInstanceAs (Decidable (_ ∧ _))
instance (s t : Span) : Decidable (s.Inside t) := inferInstanceAs (Decidable (_ ∧ _))
instance (s t : Span) : Decidable (s.Precedes t) := inferInstanceAs (Decidable (_ ≤ _))

variable {r s t : Span}

theorem Proper.inside (h : s.Proper) : s.Inside s := ⟨Int64.le_refl _, h.2, Int64.le_refl _⟩

theorem Inside.trans (h : r.Inside s) (h' : s.Inside t) : r.Inside t :=
  ⟨Int64.le_trans h'.1 h.1, h.2.1, Int64.le_trans h.2.2 h'.2.2⟩

theorem Inside.proper (h : s.Inside t) (ht : t.Proper) : s.Proper :=
  ⟨Int64.le_trans ht.1 h.1, h.2.1⟩

/-- What precedes a span precedes what lies inside it, also when it lies itself inside. -/
theorem Precedes.of_inside {s' t' : Span} (h : s.Precedes t) (hs : s'.Inside s) (ht : t'.Inside t) :
    s'.Precedes t' :=
  Int64.le_trans hs.2.2 (Int64.le_trans h ht.1)

/-- A proper span has the length between its ends, and neither wraps. -/
theorem Proper.toInt_stop (h : s.Proper) :
    0 ≤ s.offset.toInt ∧ 0 ≤ s.length.toInt ∧
      s.stop.toInt = s.offset.toInt + s.length.toInt := by
  obtain ⟨start, order⟩ := h
  rw [Int64.le_iff_toInt_le] at start order
  have zero : (0 : Int64).toInt = 0 := rfl
  have sum : s.stop.toInt = (s.offset.toInt + s.length.toInt).bmod (2 ^ 64) := Int64.toInt_add ..
  have low := s.length.le_toInt
  have high := s.length.toInt_lt
  have high' := s.offset.toInt_lt
  rw [zero] at start
  rw [Int.bmod_def] at sum
  split at sum <;> omega

end Span

namespace Node

/-! ### Trees -/

/-- A node lies properly around what it holds. -/
structure Laid (n : Node) : Prop where
  name : n.nameSpan.Inside n.src
  children : ∀ c ∈ n.children, c.src.Inside n.src
  siblings : n.children.Pairwise fun a b => a.src.Precedes b.src ∨ b.src.Precedes a.src
  lists : ∀ entry ∈ n.info.fields, (n.list entry.1).Pairwise fun a b => a.src.Precedes b.src

instance (n : Node) : Decidable n.Laid :=
  decidable_of_iff
    (n.nameSpan.Inside n.src ∧ (∀ c ∈ n.children, c.src.Inside n.src) ∧
      (n.children.Pairwise fun a b => a.src.Precedes b.src ∨ b.src.Precedes a.src) ∧
      ∀ entry ∈ n.info.fields, (n.list entry.1).Pairwise fun a b => a.src.Precedes b.src)
    ⟨fun ⟨a, b, c, d⟩ => ⟨a, b, c, d⟩, fun ⟨a, b, c, d⟩ => ⟨a, b, c, d⟩⟩

/-- The tree below a node is well nested. -/
structure WellNested (root : Node) : Prop where
  proper : root.src.Proper
  laid : ∀ n ∈ root.nodes, n.Laid

instance (root : Node) : Decidable root.WellNested :=
  decidable_of_iff (root.src.Proper ∧ ∀ n ∈ root.nodes, n.Laid)
    ⟨fun ⟨a, b⟩ => ⟨a, b⟩, fun ⟨a, b⟩ => ⟨a, b⟩⟩

/-- Induction over a tree, from the children up. -/
theorem induction {motive : Node → Prop}
    (step : ∀ n : Node, (∀ c ∈ n.children, motive c) → motive n) (n : Node) : motive n :=
  step n fun c _ => induction step c
termination_by sizeOf n
decreasing_by
  rename_i hc
  cases n
  have := List.sizeOf_lt_of_mem hc
  simp only [Node.mk.sizeOf_spec]
  simp only [Node.children] at this
  omega

/-- The nodes below a node. -/
def descendants (n : Node) : List Node := n.children.flatMap nodes

theorem mem_nodes {m n : Node} : m ∈ n.nodes ↔ m = n ∨ ∃ c ∈ n.children, m ∈ c.nodes := by
  rw [nodes_eq, List.mem_cons, List.mem_flatMap]

theorem mem_nodes_of_mem_descendants {m n : Node} (h : m ∈ n.descendants) : m ∈ n.nodes :=
  mem_nodes.mpr (.inr (List.mem_flatMap.mp h))

theorem mem_nodes_self (n : Node) : n ∈ n.nodes := mem_nodes.mpr (.inl rfl)

theorem mem_nodes_trans {l m n : Node} (hm : m ∈ n.nodes) (hl : l ∈ m.nodes) : l ∈ n.nodes := by
  induction n using Node.induction with
  | step n ih =>
      rcases mem_nodes.mp hm with rfl | ⟨c, hc, hm⟩
      · exact hl
      · exact mem_nodes.mpr (.inr ⟨c, hc, ih c hc hm⟩)

/-! What is stored under a key is below the node. -/

theorem mem_children_of_mem_list {m n : Node} {key : String} (h : m ∈ n.list key) :
    m ∈ n.children := by
  obtain ⟨item, hitem, rfl⟩ := List.mem_filterMap.mp h
  unfold list? at hitem
  cases places : n.places? key with
  | none =>
      rw [places] at hitem
      exact absurd hitem List.not_mem_nil
  | some entries =>
      rw [places] at hitem
      obtain ⟨place, -, found⟩ := List.mem_map.mp hitem
      obtain ⟨i, -, found⟩ := Option.bind_eq_some_iff.mp found
      exact List.mem_of_getElem? found

theorem mem_nodes_of_mem_list {m n : Node} {key : String} (h : m ∈ n.list key) : m ∈ n.nodes :=
  mem_nodes.mpr (.inr ⟨m, mem_children_of_mem_list h, m.mem_nodes_self⟩)

theorem mem_nodes_of_field? {m n : Node} {key : String} (h : n.field? key = some m) :
    m ∈ n.nodes :=
  mem_nodes_of_mem_list (List.mem_of_head? h)

theorem mem_nodes_of_mem_parameters {m n : Node} {key : String} (h : m ∈ n.parameters key) :
    m ∈ n.nodes := by
  unfold parameters at h
  cases list : n.field? key with
  | none =>
      rw [list] at h
      exact absurd h List.not_mem_nil
  | some params =>
      rw [list] at h
      exact mem_nodes_trans (mem_nodes_of_field? list) (mem_nodes_of_mem_list h)

theorem Laid.pairwise_list {n : Node} (h : n.Laid) (key : String) :
    (n.list key).Pairwise fun a b => a.src.Precedes b.src := by
  cases found : n.info.fields.find? (·.1 == key) with
  | none => simp [list, list?, places?, found]
  | some entry =>
      have same : entry.1 = key := by simpa using List.find?_some found
      exact same ▸ h.lists entry (List.mem_of_find?_eq_some found)

namespace WellNested

variable {n : Node}

theorem laid_self (h : n.WellNested) : n.Laid := h.laid n n.mem_nodes_self

theorem child (h : n.WellNested) {c : Node} (hc : c ∈ n.children) : c.WellNested where
  proper := (h.laid_self.children c hc).proper h.proper
  laid m hm := h.laid m (mem_nodes.mpr (.inr ⟨c, hc, hm⟩))

/-- All below a node lies inside it. -/
theorem inside (h : n.WellNested) : ∀ m ∈ n.nodes, m.src.Inside n.src := by
  induction n using Node.induction with
  | step n ih =>
      intro m hm
      rcases mem_nodes.mp hm with rfl | ⟨c, hc, hm⟩
      · exact h.proper.inside
      · exact (ih c hc (h.child hc) m hm).trans (h.laid_self.children c hc)

/-- The names of all below a node lie inside it. -/
theorem name_inside (h : n.WellNested) {m : Node} (hm : m ∈ n.nodes) :
    m.nameSpan.Inside n.src :=
  (h.laid m hm).name.trans (h.inside m hm)

/-- What stands in a list starts one behind the other. -/
theorem pairwise_offsets (h : n.WellNested) (key : String) :
    (n.list key).Pairwise fun a b => a.src.offset ≤ b.src.offset := by
  refine (h.laid_self.pairwise_list key).imp_of_mem fun {a b} ha _ before => ?_
  exact Int64.le_trans (h.inside a (mem_nodes_of_mem_list ha)).2.1 before

/-- What stands below a node of a well nested tree is well nested itself. -/
theorem below (h : n.WellNested) {m : Node} (hm : m ∈ n.nodes) : m.WellNested where
  proper := (h.inside m hm).proper h.proper
  laid l hl := h.laid l (mem_nodes_trans hm hl)

/-- The names of parameters start one behind the other. -/
theorem pairwise_parameters (h : n.WellNested) (key : String) :
    (n.parameters key).Pairwise fun a b => a.nameSpan.offset ≤ b.nameSpan.offset := by
  unfold parameters
  cases found : n.field? key with
  | none => exact .nil
  | some params =>
      have nested := h.below (mem_nodes_of_field? found)
      refine (nested.laid_self.pairwise_list "parameters").imp_of_mem fun {a b} ha hb before => ?_
      have first := (nested.laid a (mem_nodes_of_mem_list ha)).name
      have second := (nested.laid b (mem_nodes_of_mem_list hb)).name
      exact Int64.le_trans first.2.1 (before.of_inside first second)

end WellNested

/-! ### The order of children -/

/-- The difference of the lengths does not wrap. -/
def Comparable (a b : Node) : Prop := (a.src.length.toInt - b.src.length.toInt).natAbs < 2 ^ 63

theorem comparable_of_nonneg {a b : Node} (ha : 0 ≤ a.src.length.toInt)
    (hb : 0 ≤ b.src.length.toInt) : a.Comparable b := by
  have higha := a.src.length.toInt_lt
  have highb := b.src.length.toInt_lt
  unfold Comparable
  omega

theorem comparable_of_proper {a b : Node} (ha : a.src.Proper) (hb : b.src.Proper) :
    a.Comparable b :=
  comparable_of_nonneg ha.toInt_stop.2.1 hb.toInt_stop.2.1

theorem sortOffset_nonneg (n : Node) : 0 ≤ n.sortOffset.toInt := by
  unfold sortOffset
  split
  · decide
  · rename_i real
    exact Int64.le_iff_toInt_le.mp (Int64.not_lt.mp real)

theorem sortOffset_of_nonneg {n : Node} (h : 0 ≤ n.src.offset) : n.sortOffset = n.src.offset :=
  if_neg (Int64.not_lt.mpr h)

/-- Nodes are sorted by offset, whose differences do not wrap, and then by a difference of lengths
that may. -/
theorem sortsBefore_iff_sub {a b : Node} :
    a.sortsBefore b ↔ a.sortOffset.toInt < b.sortOffset.toInt ∨
      (a.sortOffset.toInt = b.sortOffset.toInt ∧ (a.src.length - b.src.length).toInt < 0) := by
  have lowa := a.sortOffset_nonneg
  have lowb := b.sortOffset_nonneg
  have higha := a.sortOffset.toInt_lt
  have highb := b.sortOffset.toInt_lt
  have offsets : (a.sortOffset - b.sortOffset).toInt =
      a.sortOffset.toInt - b.sortOffset.toInt := by
    rw [Int64.toInt_sub, Int.bmod_eq_of_le (by omega) (by omega)]
  have zero : (0 : Int64).toInt = 0 := rfl
  simp only [sortsBefore, bne_iff_ne, ne_eq, ← Int64.toInt_inj, offsets, zero]
  split
  · rw [decide_eq_true_iff, Int64.lt_iff_toInt_lt, offsets, zero]
    omega
  · rw [decide_eq_true_iff, Int64.lt_iff_toInt_lt, zero]
    omega

/-- Nodes are sorted by offset and then by length. -/
theorem sortsBefore_iff {a b : Node} (h : a.Comparable b) :
    a.sortsBefore b ↔ a.sortOffset.toInt < b.sortOffset.toInt ∨
      (a.sortOffset.toInt = b.sortOffset.toInt ∧ a.src.length.toInt < b.src.length.toInt) := by
  unfold Comparable at h
  rw [sortsBefore_iff_sub, Int64.toInt_sub, Int.bmod_eq_of_le (by omega) (by omega)]
  omega

section

variable {R : Node → Node → Prop}

/-- The comparison of two nodes decides a relation: the one that stands before the other comes
first. -/
def Decides (R : Node → Node → Prop) (a b : Node) : Prop :=
  (a.sortsBefore b → R a b) ∧ (¬ a.sortsBefore b → R b a)

variable (trans : ∀ a b c, R a b → R b c → R a c)

include trans

/-- Inserting keeps a list sorted, last first. -/
theorem pairwise_insertInOrder {x : Nat × Node} {ys : List (Nat × Node)}
    (decided : ∀ y ∈ ys, Decides R x.2 y.2) (sorted : ys.Pairwise fun a b => R b.2 a.2) :
    (insertInOrder x ys).Pairwise fun a b => R b.2 a.2 := by
  induction ys with
  | nil => exact List.pairwise_singleton ..
  | cons y ys ih =>
      obtain ⟨last, rest⟩ := List.pairwise_cons.mp sorted
      obtain ⟨here, later⟩ := List.forall_mem_cons.mp decided
      rw [insertInOrder]
      split
      · rename_i before
        refine List.pairwise_cons.mpr ⟨fun z hz => ?_, ih later rest⟩
        rcases List.mem_cons.mp ((perm_insertInOrder x ys).mem_iff.mp hz) with rfl | hz
        · exact here.1 before
        · exact last z hz
      · rename_i behind
        refine List.pairwise_cons.mpr ⟨fun z hz => ?_, sorted⟩
        rcases List.mem_cons.mp hz with rfl | hz
        · exact here.2 behind
        · exact trans _ _ _ (last z hz) (here.2 behind)

/-- Nodes are put in order by every transitive relation that their comparisons decide. -/
theorem pairwise_inOrder {ns : List (Nat × Node)}
    (decided : ∀ a ∈ ns, ∀ b ∈ ns, Decides R a.2 b.2) :
    (inOrder ns).Pairwise fun a b => R a.2 b.2 := by
  have inserted : ∀ rest acc : List (Nat × Node), rest ⊆ ns → acc ⊆ ns →
      (acc.Pairwise fun a b => R b.2 a.2) →
      (rest.foldl (fun acc x => insertInOrder x acc) acc).Pairwise fun a b => R b.2 a.2 := by
    intro rest
    induction rest with
    | nil => exact fun acc _ _ sorted => sorted
    | cons x rest ih =>
        intro acc hrest hacc sorted
        obtain ⟨hx, hrest⟩ := List.cons_subset.mp hrest
        have all : x :: acc ⊆ ns := List.cons_subset.mpr ⟨hx, hacc⟩
        refine ih _ hrest (fun y hy => all ((perm_insertInOrder x acc).mem_iff.mp hy)) ?_
        exact pairwise_insertInOrder trans (fun y hy => decided x hx y (hacc hy)) sorted
  rw [inOrder, List.pairwise_reverse]
  exact inserted ns [] (fun _ h => h) (List.nil_subset ns) .nil

end

/-- The node was put together from parts, as every node of a decoded tree. -/
def Assembled (n : Node) : Prop := ∃ id kind src parts, n = assemble id kind src parts

/-- The children of an assembled node stand in the order that their comparisons decide. -/
theorem Assembled.sorted_by {R : Node → Node → Prop} {n : Node} (hn : n.Assembled)
    (trans : ∀ a b c, R a b → R b c → R a c)
    (decided : ∀ a ∈ n.children, ∀ b ∈ n.children, Decides R a b) : n.children.Pairwise R := by
  obtain ⟨id, kind, src, parts, rfl⟩ := hn
  refine List.pairwise_map.mpr (pairwise_inOrder trans fun a ha b hb => decided a.2 ?_ b.2 ?_)
  · exact List.mem_map_of_mem ((perm_inOrder _).mem_iff.mpr ha)
  · exact List.mem_map_of_mem ((perm_inOrder _).mem_iff.mpr hb)

/-- The children of an assembled node are sorted if they can be compared. -/
theorem Assembled.sorted {n : Node} (hn : n.Assembled)
    (fits : ∀ a ∈ n.children, ∀ b ∈ n.children, a.Comparable b) :
    n.children.Pairwise fun a b => ¬ b.sortsBefore a := by
  let AtMost (a b : Node) : Prop := a.sortOffset.toInt < b.sortOffset.toInt ∨
    (a.sortOffset.toInt = b.sortOffset.toInt ∧ a.src.length.toInt ≤ b.src.length.toInt)
  have trans (a b c : Node) (hab : AtMost a b) (hbc : AtMost b c) : AtMost a c := by
    simp only [AtMost] at *
    omega
  have sorted : n.children.Pairwise AtMost := by
    refine hn.sorted_by trans fun a ha b hb => ?_
    simp only [Decides, sortsBefore_iff (fits a ha b hb), AtMost]
    omega
  refine sorted.imp_of_mem fun {a b} ha hb (order : AtMost a b) => ?_
  simp only [AtMost] at order
  rw [sortsBefore_iff (fits b hb a ha)]
  omega

/-- The children of an assembled node are sorted by their offsets, whatever their lengths. -/
theorem Assembled.sorted_offsets {n : Node} (hn : n.Assembled) :
    n.children.Pairwise fun a b => a.sortOffset.toInt ≤ b.sortOffset.toInt := by
  refine hn.sorted_by (fun _ _ _ => Int.le_trans) fun a _ b _ => ?_
  simp only [Decides, sortsBefore_iff_sub]
  omega

/-- **Children in order**: those of an assembled node each precede the next. -/
theorem Assembled.children_precede {n : Node} (hn : n.Assembled) (proper : n.src.Proper)
    (laid : n.Laid) : n.children.Pairwise fun a b => a.src.Precedes b.src := by
  have hchild : ∀ c ∈ n.children, c.src.Proper := fun c hc => (laid.children c hc).proper proper
  have sorted := hn.sorted fun a ha b hb => comparable_of_proper (hchild a ha) (hchild b hb)
  refine (laid.siblings.and sorted).imp_of_mem fun {a b} ha hb ⟨apart, order⟩ => ?_
  refine apart.elim (fun ahead => ahead) fun back => ?_
  -- Only an empty node can stand both before and behind another one.
  rw [sortsBefore_iff (comparable_of_proper (hchild b hb) (hchild a ha)),
    sortOffset_of_nonneg (hchild b hb).1, sortOffset_of_nonneg (hchild a ha).1] at order
  have enda := (hchild a ha).toInt_stop
  have endb := (hchild b hb).toInt_stop
  rw [Span.Precedes, Int64.le_iff_toInt_le] at back ⊢
  omega

theorem assembled_of_build {v : Json} {n : Node} (h : build v = .ok n) : n.Assembled := by
  obtain ⟨_, kind, id, src, parts, -, -, -, eq⟩ := build_eq_ok.mp h
  exact ⟨id, kind, src, parts, eq⟩

/-- All nodes of a decoded tree are assembled. -/
theorem assembled_of_ofJson {v : Json} {root : Node} (h : ofJson v = .ok root) :
    ∀ m ∈ root.nodes, m.Assembled := by
  rw [ofJson] at h
  by_cases hv : isNodeValue v.canonical
  · rw [if_pos hv] at h
    intro m hm
    obtain ⟨w, -, built⟩ := exists_of_mem_nodes h hm
    exact assembled_of_build built
  · rw [if_neg hv] at h
    cases h

/-! ### The order of a walk -/

/-- **The walk.**  Of two nodes met, the later stands below the earlier or behind it. -/
theorem WellNested.pairwise_nodes {n : Node} (h : n.WellNested)
    (assembled : ∀ m ∈ n.nodes, m.Assembled) :
    n.nodes.Pairwise fun a b => b ∈ a.descendants ∨ a.src.Precedes b.src := by
  induction n using Node.induction with
  | step n ih =>
      have children := (assembled n n.mem_nodes_self).children_precede h.proper h.laid_self
      rw [nodes_eq]
      refine List.pairwise_cons.mpr ⟨fun m hm => .inl hm, ?_⟩
      refine List.pairwise_flatMap.mpr ⟨fun c hc => ?_, children.imp_of_mem ?_⟩
      · exact ih c hc (h.child hc) fun m hm => assembled m (mem_nodes.mpr (.inr ⟨c, hc, hm⟩))
      · intro a b ha hb before x hx y hy
        exact .inr (before.of_inside ((h.child ha).inside x hx) ((h.child hb).inside y hy))

end Node

end SolidityLint
