import SolidityLint.Failure
import SolidityLint.Proofs.Ast.Fields
import SolidityLint.Proofs.Ast.Nesting
import SolidityLint.Proofs.Json.RoundTrip

/-!
# Ast — the shape of decoded trees

What later stages take for granted of a tree that was decoded: every node has the span of its
object (`OfObject`), parents and children belong together (`mem_all_of_child`, `parent_of_mem_all`),
children stand in document order (`Leads`), and the fields name the children.  If an object on the
way has no span, there is no tree at all.
-/

namespace SolidityLint

/-! ### Parents -/

namespace Cursor

/-- A walk meets its start, and what walks from the children meet. -/
theorem mem_all {c d : Cursor} :
    d ∈ c.all ↔ d = c ∨ ∃ place e, c.child? place = some e ∧ d ∈ e.all := by
  simp only [all, walk_eq]
  rw [preorder_eq, if_pos rfl, List.mem_cons, List.mem_flatMap]
  simp only [mem_children]
  exact or_congr Iff.rfl ⟨fun ⟨e, ⟨place, child⟩, hd⟩ => ⟨place, e, child, hd⟩,
    fun ⟨place, e, child, hd⟩ => ⟨e, ⟨place, child⟩, hd⟩⟩

/-- The nodes that a walk meets from a cursor on are those of its tree. -/
theorem map_node_all (c : Cursor) : c.all.map (·.node) = c.node.nodes := by
  rw [all, walk_eq]
  exact map_node_walkNode c.trail c.node

theorem node_mem_nodes {r c : Cursor} (h : c ∈ r.all) : c.node ∈ r.node.nodes := by
  rw [← map_node_all]
  exact List.mem_map_of_mem h

theorem mem_children_of_child {c d : Cursor} {place : Nat} (h : c.child? place = some d) :
    d.node ∈ c.node.children := by
  obtain ⟨n, there, rfl⟩ := Option.map_eq_some_iff.mp h
  exact List.mem_of_getElem? there

theorem parent_of_child {c d : Cursor} {place : Nat} (h : c.child? place = some d) :
    d.parent? = some c.node := by
  obtain ⟨n, -, rfl⟩ := Option.map_eq_some_iff.mp h
  rfl

/-- The children of what a walk meets are met. -/
theorem mem_all_of_child {c p d : Cursor} {place : Nat} (hp : p ∈ c.all)
    (h : p.child? place = some d) : d ∈ c.all := by
  obtain ⟨n, trail⟩ := c
  induction n using Node.induction generalizing trail with
  | step n ih =>
      rcases mem_all.mp hp with rfl | ⟨k, e, child, hp⟩
      · exact mem_all.mpr (.inr ⟨place, d, h, mem_all.mpr (.inl rfl)⟩)
      · have below := ih e.node (mem_children_of_child child) e.trail hp
        exact mem_all.mpr (.inr ⟨k, e, child, below⟩)

/-- What a walk meets is its start or a child of what it meets. -/
theorem parent_of_mem_all {c d : Cursor} (h : d ∈ c.all) :
    d = c ∨ ∃ p ∈ c.all, ∃ place, p.child? place = some d := by
  obtain ⟨n, trail⟩ := c
  induction n using Node.induction generalizing trail with
  | step n ih =>
      rcases mem_all.mp h with rfl | ⟨k, e, child, hd⟩
      · exact .inl rfl
      · refine .inr ?_
        rcases ih e.node (mem_children_of_child child) e.trail hd with rfl | ⟨p, hp, place, own⟩
        · exact ⟨_, mem_all.mpr (.inl rfl), k, child⟩
        · exact ⟨p, mem_all.mpr (.inr ⟨k, e, child, hp⟩), place, own⟩

end Cursor

/-! ### Document order -/

/-- The numbers of the span are small enough to be told from those that mark a made up node. -/
def Span.Small (s : Span) : Prop :=
  s.offset.toInt.natAbs < 2 ^ 31 - 1 ∧ s.length.toInt.natAbs < 2 ^ 31 - 1

instance (s : Span) : Decidable s.Small := inferInstanceAs (Decidable (_ ∧ _))

namespace Node

/-- Nodes with an offset in the source come first, by offset and then by length; the others follow,
by length. -/
def Leads (a b : Node) : Prop :=
  if a.src.offset < 0 then b.src.offset < 0 ∧ a.src.length ≤ b.src.length
  else b.src.offset < 0 ∨ a.src.offset < b.src.offset ∨
    (a.src.offset = b.src.offset ∧ a.src.length ≤ b.src.length)

theorem comparable_of_small {a b : Node} (ha : a.src.Small) (hb : b.src.Small) :
    a.Comparable b := by
  have := ha.2
  have := hb.2
  unfold Comparable
  omega

theorem toInt_sortOffset (n : Node) : n.sortOffset.toInt =
    if n.src.offset.toInt < 0 then 2147483647 else n.src.offset.toInt := by
  rw [sortOffset]
  have zero : (0 : Int64).toInt = 0 := rfl
  simp only [Int64.lt_iff_toInt_lt, zero]
  split <;> rfl

theorem leads_of_not_sortsBefore {a b : Node} (ha : a.src.Small) (hb : b.src.Small)
    (h : ¬ b.sortsBefore a) : a.Leads b := by
  rw [sortsBefore_iff (comparable_of_small hb ha), toInt_sortOffset, toInt_sortOffset] at h
  have smalla := ha.1
  have smallb := hb.1
  have zero : (0 : Int64).toInt = 0 := rfl
  simp only [Leads, Int64.lt_iff_toInt_lt, Int64.le_iff_toInt_le, ← Int64.toInt_inj, zero]
  split_ifs at h ⊢ <;> omega

/-! ### Nodes and their objects -/

/-- The node is what the members of an object make: it has their span, under each key the nodes of
the values there, and every child in one field if no key has a dot. -/
structure OfObject (members : List (String × Json)) (n : Node) : Prop where
  src : ∃ text, member? "src" members = some (.str text) ∧ Span.parse text = .ok n.src
  lists : ∃ parts, (slots members).mapM Slot.build = .ok parts ∧
    ∀ key, n.list? key = parts.foldl (Part.store key) none
  settled : n.Settled
  full : (∀ member ∈ members, '.' ∉ member.1.toList) →
    (numbers n.info.fields).Perm (List.range n.children.length)

theorem ofObject_of_build {v : Json} {n : Node} (once : v.KeysOnce) (h : build v = .ok n) :
    ∃ members, v = .obj members ∧ OfObject members n := by
  obtain ⟨members, kind, id, src, parts, rfl, made, built, rfl⟩ := build_eq_ok.mp h
  refine ⟨members, rfl, header_eq_ok made, ⟨parts, built, list?_assemble id kind src parts⟩,
    settled_assemble id kind src parts, fun dotless => perm_places_assemble id kind src parts ?_⟩
  intro before part after eq
  exact not_replaces_of_dotless (once members (.inl rfl)) dotless built eq

/-- The nodes of a tree are made by the objects reached, one to one. -/
theorem exists_objects {v : Json} {n : Node} (once : v.KeysOnce) (hv : isNodeValue v)
    (h : build v = .ok n) :
    ∃ pairs : List (Node × List (String × Json)), (pairs.map (·.1)).Perm n.nodes ∧
      (pairs.map (.obj ·.2)).Perm (reached v) ∧ ∀ p ∈ pairs, OfObject p.2 p.1 := by
  obtain ⟨made, met, all, built⟩ := accounts_reached h
  rw [List.append_nil] at all
  have objects : ∀ p ∈ made, ∃ members, p.2 = .obj members ∧ OfObject members p.1 := by
    intro p hp
    have there : p.2 ∈ reached v := all.mem_iff.mp (List.mem_map_of_mem hp)
    exact ofObject_of_build (once.within (under_of_mem_reached hv there).2) (built p hp)
  choose! members eq own using objects
  refine ⟨made.map fun p => (p.1, members p), ?_, ?_, ?_⟩
  · simpa [Function.comp_def] using met
  · have same : made.map (·.2) = made.map fun p => .obj (members p) := List.map_congr_left eq
    rw [List.map_map]
    exact same ▸ all
  · intro q hq
    obtain ⟨p, hp, rfl⟩ := List.mem_map.mp hq
    exact own p hp

end Node

open Node

/-- **The shape of decoded trees.**  The nodes of a tree are those of the objects reached, one to
one, each with the span in the `src` of its object; all but the first have the node as a parent
whose child they are, and the children of each stand in document order if the numbers in spans are
small.  The places that the fields of a node name are places of children, each named once, and all
of them if no key of its object has a dot.  When a value reached has no span, the text is refused
for an object that was reached. -/
theorem decoded_trees_have_shape (text : String) :
    (∀ n, decode text = .ok n → ∃ v, Json.parseFirst? text = some v ∧
      (∃ pairs : List (Node × List (String × Json)),
        (pairs.map (·.1)).Perm ((allNodes (some n)).map (·.node)) ∧
        (pairs.map (.obj ·.2)).Perm (reached v.canonical) ∧ ∀ p ∈ pairs, OfObject p.2 p.1) ∧
      (∀ c ∈ allNodes (some n), (c = .root n ∧ c.parent? = none) ∨
        ∃ p ∈ allNodes (some n), c.parent? = some p.node ∧ ∃ place, p.child? place = some c) ∧
      (∀ p ∈ allNodes (some n), ∀ place c, p.child? place = some c → c ∈ allNodes (some n)) ∧
      ((∀ m ∈ (allNodes (some n)).map (·.node), m.src.Small) →
        ∀ m ∈ (allNodes (some n)).map (·.node), m.children.Pairwise Leads)) ∧
    (∀ v, Json.parseFirst? text = some v → isNodeValue v.canonical →
      ((∃ n, decode text = .ok n) ↔ ∀ w ∈ reached v.canonical, HasSpan w) ∧
      ∀ e, decode text = .error e → (Failure.decode e).isOf .astDeserialization ∧
        ∃ members, .obj members ∈ reached v.canonical ∧ header members = .error e) := by
  refine ⟨fun n h => ?_, fun v read hv => ?_⟩
  · obtain ⟨v, read, hv, built⟩ := build_of_decode h
    refine ⟨v, read, exists_objects (Json.keysOnce_canonical v) hv built, fun c hc => ?_,
      fun p hp place c child => Cursor.mem_all_of_child hp child, fun small m hm => ?_⟩
    · rcases Cursor.parent_of_mem_all hc with rfl | ⟨p, hp, place, child⟩
      · exact .inl ⟨rfl, rfl⟩
      · exact .inr ⟨p, hp, Cursor.parent_of_child child, place, child⟩
    · have hm : m ∈ n.nodes := hm
      obtain ⟨w, -, made⟩ := exists_of_mem_nodes built hm
      have child : ∀ c ∈ m.children, c.src.Small := fun c hc =>
        small c (mem_nodes_trans hm (mem_nodes.mpr (.inr ⟨c, hc, c.mem_nodes_self⟩)))
      refine ((assembled_of_build made).sorted fun a ha b hb =>
        comparable_of_small (child a ha) (child b hb)).imp_of_mem fun {a b} ha hb order => ?_
      exact leads_of_not_sortsBefore (child a ha) (child b hb) order
  · have eq : decode text = build v.canonical := by
      rw [decode, read]
      exact if_pos hv
    refine ⟨eq ▸ exists_build_iff v.canonical, fun e refused => ⟨?_, ?_⟩⟩
    · cases e <;> rfl
    · exact header_of_build_error hv (eq ▸ refused)

/-- A tuple with an entry left out, a made up one and two that stand in the other order. -/
def tupleTree : Json :=
  .obj [("components", .arr [.null, .obj [("nodeType", .str "Identifier"), ("src", .str "3:1")],
      .obj [("nodeType", .str "Identifier"), ("src", .str "-1:-1")],
      .obj [("nodeType", .str "Literal"), ("src", .str "1:2")]]),
    ("nodeType", .str "TupleExpression"), ("src", .str "0:6")]

/-- Its text. -/
def tupleText : String := tupleTree.compact

theorem parseFirst?_tupleText : Json.parseFirst? tupleText = some tupleTree := by
  have numerals : tupleTree.Numerals := by
    simp [tupleTree, Json.numerals_obj, Json.numerals_arr, Json.numerals_str, Json.numerals_null]
  exact Json.parseFirst?_compact numerals (by decide)

theorem canonical_tupleTree : tupleTree.canonical = tupleTree :=
  Json.canonical_of_keysAscend rfl

/-- The tuple is decoded, its entries stand in document order, and each value has a span. -/
theorem decoded_trees_have_shape_tuple :
    ∃ n, decode tupleText = .ok n ∧ n.children.map (·.src.offset) = [1, 3, -1] ∧
      (∀ m ∈ (allNodes (some n)).map (·.node), m.src.Small) ∧
      (∀ m ∈ (allNodes (some n)).map (·.node), m.children.Pairwise Leads) ∧
      ∀ w ∈ reached tupleTree, HasSpan w := by
  have root : isNodeValue tupleTree.canonical := by
    rw [canonical_tupleTree]
    rfl
  have eq : decode tupleText = build tupleTree := by
    rw [decode_eq parseFirst?_tupleText, ofJson, if_pos root, canonical_tupleTree]
  have facts : (build tupleTree).toOption.map (fun n => (n.children.map (·.src.offset),
      decide (∀ m ∈ (allNodes (some n)).map (·.node), m.src.Small))) = some ([1, 3, -1], true) := by
    decide +kernel
  obtain ⟨made, refused⟩ := decoded_trees_have_shape tupleText
  cases built : build tupleTree with
  | error e =>
      rw [built] at facts
      cases facts
  | ok n =>
      rw [built] at facts
      obtain ⟨offsets, small⟩ := Prod.mk.inj (Option.some.inj facts)
      have decoded : decode tupleText = .ok n := eq.trans built
      obtain ⟨v, -, -, -, -, order⟩ := made n decoded
      refine ⟨n, decoded, offsets, of_decide_eq_true small, order (of_decide_eq_true small), ?_⟩
      have reach := (refused tupleTree parseFirst?_tupleText root).1.mp ⟨n, decoded⟩
      rwa [canonical_tupleTree] at reach

end SolidityLint
