import SolidityLint.Ast.Views
import SolidityLint.Proofs.Ast.Shape

/-!
# Ast — retrieved nodes in source order

What is retrieved from a tree comes in the order of the walk, and the walk goes through the children
as they were sorted.  In a tree that is spaced out (`Spaced`) each node of code lies inside its
parent and no two siblings overlap, so that the walk follows the source (`ordered_iff`) as long as a
sibling that covers nothing is not put behind one that starts at the same place and goes on from
there (`TiesInOrder`).  Sorting sees to that by a difference of lengths.  Nothing is assumed about
where documentation stands; its length can be so far below zero that the difference wraps, and then
the siblings around it are not put in order.

* `Cursor.pairwise_retrieve`: each node is retrieved once, and after those around it.
* `retrieved_in_source_order_iff`: every retriever follows the source, wherever it starts, exactly
  when all ties are in order, and they are if the lengths of siblings can be compared.
* `longer_sibling_first`: a tree where it is not so.
-/

namespace SolidityLint

namespace Span

/-- The span lies inside another; the sums do not wrap. -/
def Within (s t : Span) : Prop :=
  t.offset.toInt ≤ s.offset.toInt ∧
    s.offset.toInt + s.length.toInt ≤ t.offset.toInt + t.length.toInt

/-- The span ends before another starts; the sum does not wrap. -/
def EndsBy (s t : Span) : Prop := s.offset.toInt + s.length.toInt ≤ t.offset.toInt

instance (s t : Span) : Decidable (s.Within t) := inferInstanceAs (Decidable (_ ∧ _))
instance (s t : Span) : Decidable (s.EndsBy t) := inferInstanceAs (Decidable (_ ≤ _))

theorem isValid_iff {s : Span} : s.isValid ↔ 0 ≤ s.offset.toInt ∧ 0 ≤ s.length.toInt := by
  have zero : (0 : Int64).toInt = 0 := rfl
  simp only [isValid, Bool.and_eq_true, decide_eq_true_eq, Int64.le_iff_toInt_le, zero]

end Span

namespace Node

/-! ### Spaced trees -/

/-- The kind of a node that holds a comment and no code. -/
def documentationKind : NodeKind := "StructuredDocumentation"

/-- The node is code. -/
def IsCode (n : Node) : Prop := n.kind ≠ documentationKind

instance (n : Node) : Decidable n.IsCode := inferInstanceAs (Decidable (_ ≠ _))

/-- A node of code stands in the source, around its children of code, and these do not overlap;
documentation has no children. -/
structure Spaced (n : Node) : Prop where
  valid : n.IsCode → n.src.isValid
  leaf : ¬ n.IsCode → n.children = []
  inside : ∀ c ∈ n.children, c.IsCode → c.src.Within n.src
  apart : n.children.Pairwise fun a b =>
    a.IsCode → b.IsCode → a.src.EndsBy b.src ∨ b.src.EndsBy a.src

instance (n : Node) : Decidable n.Spaced :=
  decidable_of_iff
    ((n.IsCode → n.src.isValid) ∧ (¬ n.IsCode → n.children.isEmpty) ∧
      (∀ c ∈ n.children, c.IsCode → c.src.Within n.src) ∧
      n.children.Pairwise fun a b =>
        a.IsCode → b.IsCode → a.src.EndsBy b.src ∨ b.src.EndsBy a.src)
    ⟨fun ⟨a, b, c, d⟩ => ⟨a, fun doc => List.isEmpty_iff.mp (b doc), c, d⟩,
      fun ⟨a, b, c, d⟩ => ⟨a, fun doc => List.isEmpty_iff.mpr (b doc), c, d⟩⟩

/-- Of two children of code with one offset, the first has no code below it further on. -/
def TiesInOrder (n : Node) : Prop :=
  n.children.Pairwise fun a b => a.IsCode → b.IsCode → a.src.offset = b.src.offset →
    ∀ m ∈ a.nodes, m.IsCode → m.src.offset = a.src.offset

instance (n : Node) : Decidable n.TiesInOrder := inferInstanceAs (Decidable (List.Pairwise _ _))

/-- Two nodes of code are met in the order of the source. -/
def Ordered (a b : Node) : Prop := a.IsCode → b.IsCode → a.src.offset ≤ b.src.offset

variable {n : Node}

theorem sortOffset_of_isValid (h : n.src.isValid) : n.sortOffset = n.src.offset :=
  sortOffset_of_nonneg (Int64.le_iff_toInt_le.mpr (Span.isValid_iff.mp h).1)

theorem isCode_of_mem_nodes (spaced : n.Spaced) {m : Node} (hm : m ∈ n.nodes) (code : m.IsCode) :
    n.IsCode := by
  by_contra doc
  rw [nodes_eq, spaced.leaf doc] at hm
  obtain rfl := List.mem_singleton.mp hm
  exact doc code

theorem forall_mem_nodes {P : Node → Prop} :
    (∀ m ∈ n.nodes, P m) ↔ P n ∧ ∀ c ∈ n.children, ∀ m ∈ c.nodes, P m := by
  rw [nodes_eq, List.forall_mem_cons, List.forall_mem_flatMap]

/-- Code below a node lies inside it. -/
theorem within_of_mem_nodes (spaced : ∀ m ∈ n.nodes, m.Spaced) :
    ∀ m ∈ n.nodes, m.IsCode → m.src.Within n.src := by
  induction n using Node.induction with
  | step n ih =>
      intro m hm code
      obtain ⟨self, below⟩ := forall_mem_nodes.mp spaced
      rcases mem_nodes.mp hm with rfl | ⟨c, hc, hm⟩
      · exact ⟨Int.le_refl _, Int.le_refl _⟩
      · have parent := isCode_of_mem_nodes (below c hc c c.mem_nodes_self) hm code
        obtain ⟨start, stop⟩ := ih c hc (below c hc) m hm code
        obtain ⟨start', stop'⟩ := self.inside c hc parent
        exact ⟨Int.le_trans start' start, Int.le_trans stop stop'⟩

/-- **One node.**  The trees below the children of a node follow each other in the source exactly if
the ties among the children are in order. -/
theorem pairwise_children_iff (assembled : n.Assembled) (spaced : ∀ m ∈ n.nodes, m.Spaced) :
    (n.children.Pairwise fun a b => ∀ x ∈ a.nodes, ∀ y ∈ b.nodes, x.Ordered y) ↔
      n.TiesInOrder := by
  obtain ⟨self, below⟩ := forall_mem_nodes.mp spaced
  have sorted := assembled.sorted_offsets.and self.apart
  refine ⟨fun h => h.imp_of_mem ?_, fun h => (sorted.and h).imp_of_mem ?_⟩
  · intro a b ha _ ordered codea codeb tie m hm code
    have start := (within_of_mem_nodes (below a ha) m hm code).1
    have stop := ordered m hm b b.mem_nodes_self code codeb
    rw [← tie] at stop
    exact Int64.le_antisymm stop (Int64.le_iff_toInt_le.mpr start)
  · intro a b ha hb ⟨⟨offsets, apart⟩, ties⟩ x hx y hy codex codey
    have codea := isCode_of_mem_nodes (below a ha a a.mem_nodes_self) hx codex
    have codeb := isCode_of_mem_nodes (below b hb b b.mem_nodes_self) hy codey
    have valida := (below a ha a a.mem_nodes_self).valid codea
    have validb := (below b hb b b.mem_nodes_self).valid codeb
    rw [sortOffset_of_isValid valida, sortOffset_of_isValid validb] at offsets
    have lengthx := (Span.isValid_iff.mp ((below a ha x hx).valid codex)).2
    have lengthb := (Span.isValid_iff.mp validb).2
    have inx := (within_of_mem_nodes (below a ha) x hx codex).2
    have iny := (within_of_mem_nodes (below b hb) y hy codey).1
    rw [Int64.le_iff_toInt_le]
    rcases apart codea codeb with front | back
    · unfold Span.EndsBy at front
      omega
    · unfold Span.EndsBy at back
      -- The second child covers nothing: both start at the same place.
      have tie : a.src.offset = b.src.offset := Int64.toInt_inj.mp (by omega)
      rw [ties codea codeb tie x hx codex, tie]
      exact iny

/-- **The walk follows the source** exactly if all ties are in order. -/
theorem ordered_iff (assembled : ∀ m ∈ n.nodes, m.Assembled) (spaced : ∀ m ∈ n.nodes, m.Spaced) :
    n.nodes.Pairwise Ordered ↔ ∀ m ∈ n.nodes, m.TiesInOrder := by
  induction n using Node.induction with
  | step n ih =>
      have first : ∀ m ∈ n.children.flatMap nodes, n.Ordered m := fun m hm _ code =>
        Int64.le_iff_toInt_le.mpr
          (within_of_mem_nodes spaced m (mem_nodes_of_mem_descendants hm) code).1
      -- Two nodes below stand under one child, or under two, and then the children decide.
      have children := pairwise_children_iff (assembled n n.mem_nodes_self) spaced
      have below : (∀ c ∈ n.children, c.nodes.Pairwise Ordered) ↔
          ∀ c ∈ n.children, ∀ m ∈ c.nodes, m.TiesInOrder :=
        forall₂_congr fun c hc => ih c hc ((forall_mem_nodes.mp assembled).2 c hc)
          ((forall_mem_nodes.mp spaced).2 c hc)
      rw [forall_mem_nodes, nodes_eq, List.pairwise_cons, List.pairwise_flatMap, children, below]
      tauto

/-- Sorting by length puts the ties in order. -/
theorem tiesInOrder_of_comparable (assembled : n.Assembled) (spaced : ∀ m ∈ n.nodes, m.Spaced)
    (fits : ∀ a ∈ n.children, ∀ b ∈ n.children, a.Comparable b) : n.TiesInOrder := by
  obtain ⟨self, below⟩ := forall_mem_nodes.mp spaced
  refine ((assembled.sorted fits).and self.apart).imp_of_mem ?_
  intro a b ha hb ⟨order, apart⟩ codea codeb tie m hm code
  have valida := (below a ha a a.mem_nodes_self).valid codea
  have validb := (below b hb b b.mem_nodes_self).valid codeb
  rw [sortsBefore_iff (fits b hb a ha), sortOffset_of_isValid valida, sortOffset_of_isValid validb,
    tie] at order
  have lengtha := (Span.isValid_iff.mp valida).2
  have lengthb := (Span.isValid_iff.mp validb).2
  -- One of the two covers nothing, and the first is no longer than the second.
  have empty : a.src.length.toInt = 0 := by
    rcases apart codea codeb with front | back
    · unfold Span.EndsBy at front
      rw [tie] at front
      omega
    · unfold Span.EndsBy at back
      rw [tie] at back
      omega
  have length := (Span.isValid_iff.mp ((below a ha m hm).valid code)).2
  obtain ⟨start, stop⟩ := within_of_mem_nodes (below a ha) m hm code
  exact Int64.toInt_inj.mp (by omega)

end Node

/-! ### Retrievers -/

/-- What is retrieved is code. -/
def Retriever.OfCode : Retriever → Prop
  | ofKinds kinds => Node.documentationKind ∉ kinds
  | declarations | definitions | statements => True

theorem Retriever.OfCode.isCode {r : Retriever} (ofCode : r.OfCode) {c : Cursor}
    (h : r.selects c) : c.node.IsCode := by
  intro doc
  cases r with
  | ofKinds kinds => exact ofCode (doc ▸ List.contains_iff_mem.mp h)
  | declarations => simp [selects, doc, Node.documentationKind] at h
  | definitions => simp [selects, doc, Node.documentationKind] at h
  | statements =>
      simp [selects, Cursor.isStatement, Node.isA, Cursor.statementKinds, doc,
        Node.documentationKind] at h

namespace Cursor

theorem retrieve_eq (c : Cursor) (r : Retriever) : c.retrieve r = c.all.filter r.selects := by
  rw [retrieve, collect_eq, all, walk_eq]

theorem trail_of_mem_above {trail : List (Nat × Node)} {a : Cursor} (h : a ∈ above trail) :
    a.trail <:+ trail := by
  induction trail with
  | nil => exact absurd h List.not_mem_nil
  | cons step trail ih =>
      rcases List.mem_cons.mp h with rfl | h
      · exact List.suffix_cons step trail
      · exact (ih h).trans (List.suffix_cons step trail)

/-- What is retrieved later is not around what was retrieved before. -/
theorem pairwise_retrieve (c : Cursor) (r : Retriever) :
    (c.retrieve r).Pairwise fun a b => b ∉ a.ancestors := by
  rw [retrieve_eq, all, walk_eq]
  exact c.pairwise_trails.filter _ |>.imp fun aside around => aside (trail_of_mem_above around)

theorem nodup_retrieve (c : Cursor) (r : Retriever) : (c.retrieve r).Nodup := by
  rw [retrieve_eq, all, walk_eq]
  exact c.nodup_preorder.filter _

/-- All retrievers follow the source if the walk does; one that takes all code up shows it. -/
theorem retrieve_ordered_iff (c : Cursor) :
    (∀ r : Retriever, r.OfCode →
      (c.retrieve r).Pairwise fun a b => a.node.src.offset ≤ b.node.src.offset) ↔
    c.node.nodes.Pairwise Node.Ordered := by
  simp only [retrieve_eq, List.pairwise_filter]
  rw [← map_node_all, List.pairwise_map]
  refine ⟨fun h => ?_, fun h r ofCode => ?_⟩
  · let kinds := (c.all.map (·.node.kind)).filter (· != Node.documentationKind)
    have taken {d : Cursor} (hd : d ∈ c.all) (code : d.node.IsCode) :
        (Retriever.ofKinds kinds).selects d := by
      refine List.contains_iff_mem.mpr (List.mem_filter.mpr ⟨List.mem_map_of_mem hd, ?_⟩)
      exact bne_iff_ne.mpr code
    refine (h (.ofKinds kinds) (by simp [Retriever.OfCode, kinds])).imp_of_mem ?_
    exact fun ha hb ordered codea codeb => ordered (taken ha codea) (taken hb codeb)
  · exact h.imp fun ordered ha hb => ordered (ofCode.isCode ha) (ofCode.isCode hb)

end Cursor

open Node

/-- **Retrieved nodes.**  Every retriever gives, wherever it starts, the nodes that it selects, each
once and after those around it.  In a tree that is spaced out all retrievers of code follow the
source exactly if all ties are in order.  They are if no difference between the lengths of siblings
wraps, and none does if documentation has no length below zero. -/
theorem retrieved_in_source_order_iff (text : String) (root : Node)
    (decoded : decode text = .ok root) (spaced : ∀ n ∈ root.nodes, n.Spaced) :
    (∀ c ∈ (Cursor.root root).all, ∀ r : Retriever,
      (∀ d, d ∈ c.retrieve r ↔ d ∈ c.all ∧ r.selects d) ∧ (c.retrieve r).Nodup ∧
      (c.retrieve r).Pairwise fun a b => b ∉ a.ancestors) ∧
    ((∀ c ∈ (Cursor.root root).all, ∀ r : Retriever, r.OfCode →
      (c.retrieve r).Pairwise fun a b => a.node.src.offset ≤ b.node.src.offset) ↔
        ∀ n ∈ root.nodes, n.TiesInOrder) ∧
    ((∀ n ∈ root.nodes, ∀ a ∈ n.children, ∀ b ∈ n.children, a.Comparable b) →
      ∀ n ∈ root.nodes, n.TiesInOrder) ∧
    ((∀ n ∈ root.nodes, ¬ n.IsCode → 0 ≤ n.src.length) →
      ∀ n ∈ root.nodes, ∀ a ∈ n.children, ∀ b ∈ n.children, a.Comparable b) := by
  obtain ⟨v, -, hv, built⟩ := build_of_decode decoded
  have assembled : ∀ m ∈ root.nodes, m.Assembled := fun m hm =>
    let ⟨w, _, made⟩ := exists_of_mem_nodes built hm
    assembled_of_build made
  refine ⟨fun c _ r => ⟨fun d => ?_, c.nodup_retrieve r, c.pairwise_retrieve r⟩, ?_,
    fun fits n hn => ?_, fun positive n hn a ha b hb => ?_⟩
  · rw [Cursor.retrieve_eq, List.mem_filter]
  · simp only [Cursor.retrieve_ordered_iff]
    refine ⟨fun h => ?_, fun h c hc => ?_⟩
    · exact (ordered_iff assembled spaced).mp (h (Cursor.root root) (Cursor.mem_all.mpr (.inl rfl)))
    · have inside {m : Node} : m ∈ c.node.nodes → m ∈ root.nodes :=
        mem_nodes_trans (Cursor.node_mem_nodes hc)
      exact (ordered_iff (fun m hm => assembled m (inside hm)) fun m hm => spaced m (inside hm)).mpr
        fun m hm => h m (inside hm)
  · exact tiesInOrder_of_comparable (assembled n hn) (fun m hm => spaced m (mem_nodes_trans hn hm))
      (fits n hn)
  · have nonneg {c : Node} (hc : c ∈ n.children) : 0 ≤ c.src.length.toInt := by
      have below : c ∈ root.nodes :=
        mem_nodes_trans hn (mem_nodes.mpr (.inr ⟨c, hc, c.mem_nodes_self⟩))
      by_cases code : c.IsCode
      · exact (Span.isValid_iff.mp ((spaced c below).valid code)).2
      · exact Int64.le_iff_toInt_le.mp (positive c below code)
    exact comparable_of_nonneg (nonneg ha) (nonneg hb)

/-! ### A function without return values -/

/-- A function whose empty list of return values stands where its body starts, with documentation at
a place of its own. -/
def emptyReturnsTree (documentation : String) : Json :=
  let declared : Json := .obj [("nodeType", .str "VariableDeclaration"), ("src", .str "22:6")]
  let returned : Json := .obj [("nodeType", .str "VariableDeclaration"), ("src", .str "20:0")]
  let function : Json :=
    .obj [
      ("body", .obj [("nodeType", .str "Block"), ("src", .str "20:15"),
        ("statements", .arr [.obj [("declarations", .arr [declared]),
          ("nodeType", .str "VariableDeclarationStatement"), ("src", .str "22:7")]])]),
      ("documentation", .obj [("nodeType", .str "StructuredDocumentation"),
        ("src", .str documentation)]),
      ("nodeType", .str "FunctionDefinition"),
      ("returnParameters", .obj [("nodeType", .str "ParameterList"),
        ("parameters", .arr [returned]), ("src", .str "20:0")]),
      ("src", .str "0:40")]
  .obj [("nodeType", .str "SourceUnit"), ("nodes", .arr [function]), ("src", .str "0:40")]

theorem decode_emptyReturnsTree (documentation : String) :
    decode (emptyReturnsTree documentation).compact = ofJson (emptyReturnsTree documentation) := by
  have numerals : (emptyReturnsTree documentation).Numerals := by
    simp [emptyReturnsTree, Json.numerals_obj, Json.numerals_arr, Json.numerals_str]
  have room : (emptyReturnsTree documentation).depth ≤ Json.maxDepth := by cbv
  exact decode_eq (Json.parseFirst?_compact numerals room)

/-- With documentation in front of the function the list of return values is met before the body. -/
theorem retrieved_in_source_order_iff_documented :
    ∃ root, decode (emptyReturnsTree "0:7").compact = .ok root ∧ (∀ n ∈ root.nodes, n.Spaced) ∧
      ((Cursor.root root).retrieve .declarations).map (·.node.src.offset) = [20, 22] ∧
      (∀ n ∈ root.nodes, n.TiesInOrder) ∧
      ((Cursor.root root).retrieve .declarations).Pairwise
        fun a b => a.node.src.offset ≤ b.node.src.offset := by
  obtain ⟨root, decoded, holds⟩ := exists_ofJson_of_build (emptyReturnsTree "0:7")
    (fun root => decide ((∀ n ∈ root.nodes, n.Spaced) ∧
      ((Cursor.root root).retrieve .declarations).map (·.node.src.offset) = [20, 22] ∧
      ∀ n ∈ root.nodes, ¬ n.IsCode → 0 ≤ n.src.length))
    (by decide +kernel) (by decide +kernel) (by decide +kernel)
  obtain ⟨spaced, offsets, positive⟩ := of_decide_eq_true holds
  rw [← decode_emptyReturnsTree] at decoded
  obtain ⟨-, follows, sorted, comparable⟩ :=
    retrieved_in_source_order_iff _ root decoded spaced
  have ties := sorted (comparable positive)
  exact ⟨root, decoded, spaced, offsets, ties, follows.mpr ties _ (Cursor.mem_all.mpr (.inl rfl))
    .declarations trivial⟩

/-- With documentation of a length far below zero at the place where both start, the body is met
before the list of return values. -/
theorem longer_sibling_first :
    ∃ root, decode (emptyReturnsTree "20:-9223372036854775803").compact = .ok root ∧
      (∀ n ∈ root.nodes, n.Spaced) ∧
      ((Cursor.root root).retrieve .declarations).map (·.node.src.offset) = [22, 20] ∧
      ¬ ((Cursor.root root).retrieve .declarations).Pairwise
        fun a b => a.node.src.offset ≤ b.node.src.offset := by
  obtain ⟨root, decoded, holds⟩ := exists_ofJson_of_build
    (emptyReturnsTree "20:-9223372036854775803")
    (fun root => decide ((∀ n ∈ root.nodes, n.Spaced) ∧
      ((Cursor.root root).retrieve .declarations).map (·.node.src.offset) = [22, 20]))
    (by decide +kernel) (by decide +kernel) (by decide +kernel)
  obtain ⟨spaced, offsets⟩ := of_decide_eq_true holds
  refine ⟨root, (decode_emptyReturnsTree _).trans decoded, spaced, offsets, fun ordered => ?_⟩
  have sorted : ([22, 20] : List Int64).Pairwise (· ≤ ·) :=
    offsets ▸ List.pairwise_map.mpr ordered
  revert sorted
  decide

end SolidityLint
