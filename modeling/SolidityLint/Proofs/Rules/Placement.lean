import SolidityLint.Lint.Rule
import SolidityLint.Proofs.Ast.Nesting
import SolidityLint.Proofs.Position.Order

/-!
# Rules — where findings start

A rule that goes through the nodes of a file reports each of them where it starts, or somewhere
inside it: at its name, at a word or at a part.  The walk goes forward (`SourceFile.WalksForward`),
so findings about different nodes can be out of order only if one of the nodes stands below the
other.

* `FromNodes.inDocumentOrder`: findings from a walk are in document order if they are inside each
  node that the rule reports in the inside and that stands above another such node; if the rule may
  report the parts of one node out of order, inside each such node.
-/

namespace SolidityLint

/-! ### Document order -/

/-- In document order: none starts before one that is listed earlier. -/
def InDocumentOrder (ranges : List Range) : Prop :=
  ranges.Pairwise fun a b => ¬ b.start.before a.start

instance (ranges : List Range) : Decidable (InDocumentOrder ranges) :=
  inferInstanceAs (Decidable (ranges.Pairwise _))

/-- The ranges that start in another. -/
def Range.startingIn (outer : Range) (ranges : List Range) : List Range :=
  ranges.filter fun r => outer.contains r.start

theorem InDocumentOrder.startingIn {ranges : List Range} (h : InDocumentOrder ranges)
    (outer : Range) : InDocumentOrder (outer.startingIn ranges) :=
  h.sublist List.filter_sublist

/-- Order among the ranges that start in another one is order of any two that start there. -/
theorem not_before_of_startingIn {outer a b : Range} {ranges : List Range}
    (h : InDocumentOrder (outer.startingIn ranges)) (sub : [a, b].Sublist ranges)
    (ha : outer.contains a.start) (hb : outer.contains b.start) : ¬ b.start.before a.start := by
  have kept : [a, b].Sublist (outer.startingIn ranges) := by
    simpa [Range.startingIn, ha, hb] using sub.filter fun r => outer.contains r.start
  exact List.pairwise_pair.mp (h.sublist kept)

/-! ### Walks -/

/-- A node of one of the kinds stands below the node. -/
def Node.Nests (kinds : List NodeKind) (n : Node) : Prop := ∃ m ∈ n.descendants, m.isA kinds

instance (kinds : List NodeKind) (n : Node) : Decidable (n.Nests kinds) :=
  inferInstanceAs (Decidable (∃ m ∈ _, _))

mutual

/-- A walk that leaves out children meets no other nodes than the whole one. -/
theorem Cursor.walkNode_sublist (descend : Cursor → Bool) (trail : List (Nat × Node)) :
    ∀ n : Node, (walkNode descend trail n).Sublist (walkNode (fun _ => true) trail n)
  | .mk info children => by
      rw [walkNode, walkNode]
      refine List.Sublist.cons_cons _ ?_
      rw [if_pos rfl]
      split
      · exact walkChildren_sublist descend _ trail 0 children
      · exact List.nil_sublist _

theorem Cursor.walkChildren_sublist (descend : Cursor → Bool) (parent : Node)
    (trail : List (Nat × Node)) (i : Nat) : ∀ ns : List Node,
      (walkChildren descend parent trail i ns).Sublist
        (walkChildren (fun _ => true) parent trail i ns)
  | [] => by rw [walkChildren]; exact List.nil_sublist _
  | n :: ns => by
      rw [walkChildren, walkChildren]
      exact (walkNode_sublist descend _ n).append (walkChildren_sublist descend parent trail _ ns)

end

namespace SourceFile

variable {f : SourceFile}

/-- The walk over the file goes forward, every node that it comes to is well nested, and the
positions of the file are words. -/
structure WalksForward (f : SourceFile) : Prop where
  fits : f.lines.size < 2 ^ 63 - 1
  nested : ∀ c ∈ f.nodes, c.node.WellNested
  forward : f.nodes.Pairwise fun c d =>
    d.node ∈ c.node.descendants ∨ c.node.src.Precedes d.node.src

theorem map_node_nodes {root : Node} (h : f.root = some root) :
    f.nodes.map (·.node) = root.nodes := by
  rw [nodes, h]
  rfl

/-- **Decoded trees** that are well nested are walked forward. -/
theorem walksForward {v : Json} {root : Node} (decoded : Node.ofJson v = .ok root)
    (hroot : f.root = some root) (nested : root.WellNested) (fits : f.lines.size < 2 ^ 63 - 1) :
    f.WalksForward where
  fits
  nested c hc := by
    refine nested.below ?_
    rw [← map_node_nodes hroot]
    exact List.mem_map_of_mem hc
  forward := by
    have walk := nested.pairwise_nodes (Node.assembled_of_ofJson decoded)
    rw [← map_node_nodes hroot] at walk
    exact List.pairwise_map.mp walk

/-- The walk meets what is below the nodes that it meets. -/
theorem exists_mem_nodes {c : Cursor} (hc : c ∈ f.nodes) {n : Node} (hn : n ∈ c.node.nodes) :
    ∃ d ∈ f.nodes, d.node = n := by
  cases hroot : f.root with
  | none =>
      rw [nodes, hroot] at hc
      exact absurd hc List.not_mem_nil
  | some root =>
      have hc : c.node ∈ root.nodes := map_node_nodes hroot ▸ List.mem_map_of_mem hc
      have hn := Node.mem_nodes_trans hc hn
      rw [← map_node_nodes hroot] at hn
      exact List.mem_map.mp hn

theorem ofKinds_sublist (f : SourceFile) (kinds : List NodeKind) :
    (f.ofKinds kinds).Sublist f.nodes := by
  rw [ofKinds, nodesOfKinds, nodesThat_eq]
  exact List.filter_sublist

theorem isA_of_mem_ofKinds {kinds : List NodeKind} {c : Cursor} (h : c ∈ f.ofKinds kinds) :
    c.node.isA kinds := by
  rw [ofKinds, nodesOfKinds, nodesThat_eq] at h
  exact (List.mem_filter.mp h).2

end SourceFile

/-! ### Findings of a walk -/

variable {kinds : List NodeKind} {turns : Prop} {f : SourceFile} {c : Cursor} {x : Finding}

/-- The finding starts inside the node, which is of one of the kinds; if there are no kinds, it
starts where the node does. -/
def Placed (kinds : List NodeKind) (f : SourceFile) (c : Cursor) (x : Finding) : Prop :=
  ∃ o, x.range.start = f.lines.position o ∧ c.node.src.offset ≤ o ∧ o ≤ c.node.src.stop ∧
    (c.node.isA kinds ∨ (kinds = [] ∧ o = c.node.src.offset))

/-- A finding of a node starts inside of all that holds the node. -/
theorem Placed.contains_of_le (h : Placed kinds f c x) (fits : f.lines.size < 2 ^ 63 - 1) {d : Cursor}
    (low : d.node.src.offset ≤ c.node.src.offset) (high : c.node.src.stop ≤ d.node.src.stop) :
    (f.nodeRange d.node).contains x.range.start := by
  obtain ⟨o, start, low', high', -⟩ := h
  rw [start]
  exact LineIndex.contains_range fits (Int64.le_trans low low') (Int64.le_trans high' high)

theorem Placed.contains (h : Placed kinds f c x) (fits : f.lines.size < 2 ^ 63 - 1) :
    (f.nodeRange c.node).contains x.range.start :=
  h.contains_of_le fits (Int64.le_refl _) (Int64.le_refl _)

/-- It starts behind all that the node stands behind. -/
theorem Placed.not_before (h : Placed kinds f c x) (fits : f.lines.size < 2 ^ 63 - 1) {o : Int64}
    (le : o ≤ c.node.src.offset) : ¬ x.range.start.before (f.lines.position o) := by
  obtain ⟨o', start, low, -⟩ := h
  rw [start]
  exact LineIndex.not_before_of_le fits (Int64.le_trans le low)

theorem placed_of_start (h : c.node.WellNested)
    (start : x.range.start = (f.nodeRange c.node).start) : Placed [] f c x :=
  ⟨_, start, Int64.le_refl _, h.proper.2, .inr ⟨rfl, rfl⟩⟩

theorem placed_of_inside (kind : c.node.isA kinds) {s : Span} (inside : s.Inside c.node.src)
    (start : x.range.start = (f.range s).start) : Placed kinds f c x :=
  ⟨_, start, inside.1, Int64.le_trans inside.2.1 inside.2.2, .inl kind⟩

/-- The findings come from nodes, in the order of the walk: each is placed at its node, and those
of one node are in document order unless the rule `turns` back. -/
def FromNodes (kinds : List NodeKind) (turns : Prop) (f : SourceFile) (found : List Finding) :
    Prop :=
  ∃ (cs : List Cursor) (own : Cursor → List Finding), cs.Sublist f.nodes ∧ found = cs.flatMap own ∧
    ∀ c ∈ cs, (∀ x ∈ own c, Placed kinds f c x) ∧ (InDocumentOrder ((own c).map (·.range)) ∨ turns)

/-- **Findings of a walk** are in document order if they are inside the nodes of the kinds: those
above another one, and all if the rule turns back. -/
theorem FromNodes.inDocumentOrder {found : List Finding} (h : FromNodes kinds turns f found)
    (walks : f.WalksForward)
    (inner : ∀ c ∈ f.nodes, c.node.isA kinds → (turns ∨ c.node.Nests kinds) →
      InDocumentOrder ((f.nodeRange c.node).startingIn (found.map (·.range)))) :
    InDocumentOrder (found.map (·.range)) := by
  obtain ⟨cs, own, sub, rfl, placed⟩ := h
  have pair : ∀ {c x y}, c ∈ cs → c.node.isA kinds → (turns ∨ c.node.Nests kinds) →
      [x, y].Sublist (cs.flatMap own) → (f.nodeRange c.node).contains x.range.start →
      (f.nodeRange c.node).contains y.range.start → ¬ y.range.start.before x.range.start :=
    fun hc kind nests hxy hx hy =>
      not_before_of_startingIn (inner _ (sub.subset hc) kind nests) (hxy.map _) hx hy
  refine List.pairwise_map.mpr (List.pairwise_flatMap.mpr ⟨fun c hc => ?_, ?_⟩)
  · rcases (placed c hc).2 with ordered | turns
    · exact List.pairwise_map.mp ordered
    · refine List.pairwise_iff_forall_sublist.mpr fun {x y} hxy => ?_
      have hx := (placed c hc).1 x (hxy.subset List.mem_cons_self)
      have hy := (placed c hc).1 y (hxy.subset (List.mem_cons_of_mem _ List.mem_cons_self))
      obtain ⟨o, startx, -, -, kind | ⟨none, rfl⟩⟩ := id hx
      · have all : (own c).Sublist (cs.flatMap own) := by
          simpa using (List.singleton_sublist.mpr hc).flatMap own
        exact pair hc kind (.inl turns) (hxy.trans all) (hx.contains walks.fits)
          (hy.contains walks.fits)
      · rw [startx]
        exact hy.not_before walks.fits (Int64.le_refl _)
  · refine List.pairwise_iff_forall_sublist.mpr fun {c d} hcd x hx y hy => ?_
    have hc : c ∈ cs := hcd.subset List.mem_cons_self
    have hd : d ∈ cs := hcd.subset (List.mem_cons_of_mem _ List.mem_cons_self)
    have placedx := (placed c hc).1 x hx
    have placedy := (placed d hd).1 y hy
    obtain ⟨o, startx, -, high, kind⟩ := id placedx
    rcases List.pairwise_pair.mp (walks.forward.sublist (hcd.trans sub)) with below | precedes
    · have inside := (walks.nested c (sub.subset hc)).inside _
        (Node.mem_nodes_of_mem_descendants below)
      rcases kind with kind | ⟨rfl, rfl⟩
      · obtain ⟨_, -, -, -, kind'⟩ := id placedy
        have nests : c.node.Nests kinds := by
          refine ⟨d.node, below, kind'.resolve_right fun none => ?_⟩
          simp [none.1, Node.isA] at kind
        have both : [x, y].Sublist ([c, d].flatMap own) := by
          simpa using (List.singleton_sublist.mpr hx).append (List.singleton_sublist.mpr hy)
        exact pair hc kind (.inr nests) (both.trans (hcd.flatMap own)) (placedx.contains walks.fits)
          (placedy.contains_of_le walks.fits inside.1 inside.2.2)
      · rw [startx]
        exact placedy.not_before walks.fits inside.1
    · rw [startx]
      exact placedy.not_before walks.fits (Int64.le_trans high precedes)

/-! ### Ways to go through nodes -/

theorem fromNodes_nil : FromNodes kinds turns f [] :=
  ⟨[], fun _ => [], List.nil_sublist _, rfl, fun _ h => absurd h List.not_mem_nil⟩

theorem FromNodes.flatMap {cs : List Cursor} (sub : cs.Sublist f.nodes)
    {own : Cursor → List Finding} (placed : ∀ c ∈ cs, ∀ x ∈ own c, Placed kinds f c x)
    (ordered : ∀ c ∈ cs, InDocumentOrder ((own c).map (·.range)) ∨ turns) :
    FromNodes kinds turns f (cs.flatMap own) :=
  ⟨cs, own, sub, rfl, fun c hc => ⟨placed c hc, ordered c hc⟩⟩

theorem FromNodes.filterMap {cs : List Cursor} (sub : cs.Sublist f.nodes)
    {own : Cursor → Option Finding} (h : ∀ c ∈ cs, ∀ x, own c = some x → Placed kinds f c x) :
    FromNodes kinds turns f (cs.filterMap own) := by
  rw [List.filterMap_eq_flatMap_toList]
  refine .flatMap sub (fun c hc x hx => h c hc x (Option.mem_toList.mp hx)) fun c _ => .inl ?_
  cases own c with
  | none => exact .nil
  | some x => exact List.pairwise_singleton ..

/-- A rule about nodes of the kinds. -/
theorem FromNodes.ofKinds (walks : f.WalksForward) {cs : List Cursor}
    (sub : cs.Sublist (f.ofKinds kinds)) {own : Cursor → List Finding}
    (placed : ∀ c, c.node.isA kinds → c.node.WellNested → ∀ x ∈ own c, Placed kinds f c x)
    (ordered : ∀ c, c.node.isA kinds → c.node.WellNested →
      InDocumentOrder ((own c).map (·.range)) ∨ turns) :
    FromNodes kinds turns f (cs.flatMap own) := by
  have all := sub.trans (f.ofKinds_sublist kinds)
  have kind : ∀ c ∈ cs, c.node.isA kinds := fun c hc =>
    SourceFile.isA_of_mem_ofKinds (sub.subset hc)
  exact .flatMap all (fun c hc => placed c (kind c hc) (walks.nested c (all.subset hc)))
    fun c hc => ordered c (kind c hc) (walks.nested c (all.subset hc))

/-- A rule that reports each node where it starts. -/
theorem FromNodes.wholes (walks : f.WalksForward) {cs : List Cursor} (sub : cs.Sublist f.nodes)
    {own : Cursor → Option Finding}
    (h : ∀ c x, own c = some x → x.range.start = (f.nodeRange c.node).start) :
    FromNodes [] turns f (cs.filterMap own) :=
  .filterMap sub fun c hc x hx => placed_of_start (walks.nested c (sub.subset hc)) (h c x hx)

theorem fromNodes_wholes (walks : f.WalksForward) {cs : List Cursor} (sub : cs.Sublist f.nodes)
    (message : String) : FromNodes [] turns f (cs.map fun c => f.findingAt c.node message) := by
  rw [← List.filterMap_eq_map]
  refine .wholes walks sub fun c x h => ?_
  cases h
  rfl

/-- A rule that reports nodes of the kinds, each at its name. -/
theorem FromNodes.names (walks : f.WalksForward) {cs : List Cursor}
    (sub : cs.Sublist (f.ofKinds kinds)) {own : Cursor → Option Finding}
    (h : ∀ c x, own c = some x → x.range.start = (f.nameRange c.node).start) :
    FromNodes kinds turns f (cs.filterMap own) := by
  refine .filterMap (sub.trans (f.ofKinds_sublist _)) fun c hc x hx => ?_
  have kind := SourceFile.isA_of_mem_ofKinds (sub.subset hc)
  have nested := walks.nested c ((f.ofKinds_sublist _).subset (sub.subset hc))
  exact placed_of_inside kind nested.laid_self.name (h c x hx)

theorem fromNodes_names (walks : f.WalksForward) {cs : List Cursor}
    (sub : cs.Sublist (f.ofKinds kinds)) (message : String) :
    FromNodes kinds turns f (cs.map fun c => f.findingAtName c.node message) := by
  rw [← List.filterMap_eq_map]
  refine .names walks sub fun c x h => ?_
  cases h
  rfl

/-- A finding at a node below a node of the kinds. -/
theorem placed_below (kind : c.node.isA kinds) (nested : c.node.WellNested) {m : Node}
    (hm : m ∈ c.node.nodes) (start : x.range.start = (f.nodeRange m).start) : Placed kinds f c x :=
  placed_of_inside kind (nested.inside m hm) start

/-- A finding at the name of a node below a node of the kinds. -/
theorem placed_name_below (kind : c.node.isA kinds) (nested : c.node.WellNested) {m : Node}
    (hm : m ∈ c.node.nodes) (start : x.range.start = (f.nameRange m).start) : Placed kinds f c x :=
  placed_of_inside kind (nested.name_inside hm) start

/-- Ranges of spans whose offsets do not go back. -/
theorem inDocumentOrder_of_offsets (walks : f.WalksForward) {α : Type} {span : α → Span}
    {xs : List α} {ranges : List Range} (sub : ranges.Sublist (xs.map fun a => f.range (span a)))
    (order : xs.Pairwise fun a b => (span a).offset ≤ (span b).offset) : InDocumentOrder ranges :=
  (List.pairwise_map.mpr (order.imp fun h => LineIndex.not_before_of_le walks.fits h)).sublist sub

end SolidityLint
