import SolidityLint.Proofs.Ast.Shape
import SolidityLint.Proofs.Position.LineIndex
import SolidityLint.Source.File

/-!
# Source — the nodes at a position

`covering` lists all nodes with a place in the source whose span a position falls within.  The
search for them (`nodesAt`) does not look below a node that has a place and does not reach over the
position, and it asks the line index for the offset, which can wrap.  What it finds are the covering
nodes that it comes to (`nodesAt_eq_filter`): a node that sticks out of an ancestor is missed where
it sticks out.  In a well nested tree none does (`nodesAt_eq_covering_of_wellNested`).
-/

namespace SolidityLint

namespace Cursor

/-- What a walk meets lies below its ancestors, and these are above the start or met as well. -/
theorem below_ancestors {r c : Cursor} (h : c ∈ r.all) :
    ∀ a ∈ c.ancestors, a ∈ r.ancestors ∨ a.node ∈ r.node.nodes ∧ c.node ∈ a.node.nodes := by
  induction r using induction_children with
  | step r ih =>
      intro a ha
      obtain rfl | ⟨place, d, child, hc⟩ := mem_all.mp h
      · exact .inl ha
      · have hd : d.node ∈ r.node.children := mem_children_of_child child
        have passed := ih d (mem_children.mpr ⟨place, child⟩) hc a ha
        rw [ancestors_of_child child, List.mem_cons] at passed
        obtain (rfl | higher) | ⟨met, below⟩ := passed
        · exact .inr ⟨a.node.mem_nodes_self, Node.mem_nodes.mpr (.inr ⟨_, hd, node_mem_nodes hc⟩)⟩
        · exact .inl higher
        · exact .inr ⟨Node.mem_nodes.mpr (.inr ⟨_, hd, met⟩), below⟩

end Cursor

namespace SourceFile

variable {f : SourceFile}

/-- The nodes with a place in the source whose span the position falls within, in document order. -/
def covering (f : SourceFile) (pos : Position) : List Cursor :=
  f.nodes.filter fun c => c.node.src.isValid && c.node.src.covers pos f.lines.source

/-- The search for a position comes to the node: the position has an offset, and so far as the
ancestors have a place in the source, the position falls within them. -/
def ComesTo (f : SourceFile) (pos : Position) (c : Cursor) : Prop :=
  ¬ f.lines.Wraps pos ∧
    ∀ a ∈ c.ancestors, a.node.src.isValid → a.node.src.covers pos f.lines.source

instance (l : LineIndex) (n : Int64) : Decidable (l.HasLine n) :=
  inferInstanceAs (Decidable (_ ∧ _))

instance (l : LineIndex) (pos : Position) : Decidable (l.Wraps pos) :=
  inferInstanceAs (Decidable (_ ∧ _ ∧ _))

instance (f : SourceFile) (pos : Position) (c : Cursor) : Decidable (f.ComesTo pos c) :=
  inferInstanceAs (Decidable (_ ∧ _))

/-- With the offset of a scan, reaching over the offset is covering the position. -/
theorem reaches_iff {n : Node} {pos : Position} {source : List UInt8} :
    reaches n (Int64.ofNat (indexOfPosition pos source)) =
      (n.src.isValid && n.src.covers pos source) := by
  rw [reaches, Span.covers, Bool.and_assoc]

/-- No node reaches over an offset below zero. -/
theorem not_reaches_of_neg {n : Node} {offset : Int64} (neg : offset < 0) :
    reaches n offset = false := by
  rw [reaches, Span.isValid]
  by_contra reached
  simp only [Bool.not_eq_false, Bool.and_eq_true, decide_eq_true_eq] at reached
  obtain ⟨⟨⟨start, -⟩, le⟩, -⟩ := reached
  exact absurd neg (Int64.not_lt.mpr (Int64.le_trans start le))

/-- The search meets a node unless an ancestor with a place in the source does not reach over the
offset. -/
theorem nodesAt_eq (f : SourceFile) (pos : Position) :
    f.nodesAt pos = (f.nodes.filter fun c =>
      c.ancestors.all fun a => !a.node.src.isValid || reaches a.node (f.lines.offset pos)).filter
        fun c => reaches c.node (f.lines.offset pos) := by
  unfold nodesAt nodes allNodes
  cases f.root with
  | none => rfl
  | some root =>
      dsimp only
      rw [Cursor.visit_keep fun _ _ => rfl, Cursor.preorder_eq_filter, Cursor.all, Cursor.walk_eq]
      exact fun a ha => absurd ha List.not_mem_nil

/-- **What is found** are the covering nodes that the search comes to. -/
theorem nodesAt_eq_filter (fits : f.lines.size < 2 ^ 63) (pos : Position) :
    f.nodesAt pos = (f.covering pos).filter fun c => f.ComesTo pos c := by
  rw [nodesAt_eq, covering, List.filter_filter, List.filter_filter]
  refine List.filter_congr fun c _ => ?_
  by_cases wraps : f.lines.Wraps pos
  · rw [not_reaches_of_neg (LineIndex.offset_of_wraps fits wraps).1]
    simp [ComesTo, wraps]
  · rw [LineIndex.offset_of_not_wraps fits wraps, Bool.eq_iff_iff]
    simp only [reaches_iff, Bool.and_eq_true, List.all_eq_true, Bool.or_eq_true,
      Bool.not_eq_eq_eq_not, Bool.not_true, decide_eq_true_eq]
    rw [and_comm]
    refine and_congr_left' ⟨fun passed => ⟨wraps, fun a ha valid => ?_⟩, fun comes a ha => ?_⟩
    · exact ((passed a ha).resolve_left (by simp [valid])).2
    · by_cases valid : a.node.src.isValid
      · exact .inr ⟨valid, comes.2 a ha valid⟩
      · exact .inl (Bool.eq_false_iff.mpr valid)

/-! ### Well nested trees -/

theorem covers_of_inside {s t : Span} {pos : Position} {source : List UInt8} (h : s.Inside t)
    (covers : s.covers pos source) : t.covers pos source := by
  simp only [Span.covers, Bool.and_eq_true, decide_eq_true_eq] at covers ⊢
  exact ⟨Int64.le_trans h.1 covers.1, Int64.le_trans covers.2 h.2.2⟩

/-- In a well nested tree the search finds all covering nodes of a position with an offset. -/
theorem nodesAt_eq_covering_of_wellNested {root : Node} (hroot : f.root = some root)
    (nested : root.WellNested) (fits : f.lines.size < 2 ^ 63) {pos : Position}
    (inside : ¬ f.lines.Wraps pos) : f.nodesAt pos = f.covering pos := by
  rw [nodesAt_eq_filter fits, List.filter_eq_self]
  refine fun c hc => decide_eq_true ⟨inside, fun a ha _ => ?_⟩
  obtain ⟨hc, covered⟩ := List.mem_filter.mp hc
  rw [nodes, hroot] at hc
  obtain top | ⟨met, below⟩ := Cursor.below_ancestors hc a ha
  · cases top
  · exact covers_of_inside ((nested.below met).inside _ below) (Bool.and_eq_true_iff.mp covered).2

end SourceFile

/-- **Nodes at a position.**  The search finds, in document order, the covering nodes that it comes
to.  So it finds all covering nodes exactly if it comes to each of them: if the position has an
offset and falls within all their ancestors that have a place in the source. -/
theorem nodesAt_eq_covering_iff (f : SourceFile) (fits : f.lines.size < 2 ^ 63) (pos : Position) :
    f.nodesAt pos = (f.covering pos).filter (fun c => f.ComesTo pos c) ∧
      (f.nodesAt pos = f.covering pos ↔ ∀ c ∈ f.covering pos, f.ComesTo pos c) := by
  have found := SourceFile.nodesAt_eq_filter fits pos
  refine ⟨found, ?_⟩
  rw [found, List.filter_eq_self]
  simp only [decide_eq_true_eq]

/-! ### A documented contract -/

/-- A contract whose documentation stands in front of it. -/
def documentedTree : Json :=
  let documentation : Json :=
    .obj [("nodeType", .str "StructuredDocumentation"), ("src", .str "0:7"), ("text", .str "doc")]
  let contract : Json :=
    .obj [("documentation", documentation), ("name", .str "C"), ("nameLocation", .str "17:1"),
      ("nodeType", .str "ContractDefinition"), ("src", .str "8:13")]
  .obj [("nodeType", .str "SourceUnit"), ("nodes", .arr [contract]), ("src", .str "0:22")]

def documentedFile (root : Node) : SourceFile :=
  .ofBytes "/t.sol" "/// doc\ncontract C {}\n".toUTF8 (some root)

theorem keysAscend_documentedTree : documentedTree.keysAscend = true := by decide +kernel

/-- At the name of the contract the contract is found. -/
theorem nodesAt_eq_covering_iff_name :
    ∃ root, Node.ofJson documentedTree = .ok root ∧ (documentedFile root).lines.size < 2 ^ 63 ∧
      (documentedFile root).nodesAt ⟨2, 10⟩ = (documentedFile root).covering ⟨2, 10⟩ ∧
      ((documentedFile root).covering ⟨2, 10⟩).map (·.node.kind) =
        ["SourceUnit", "ContractDefinition"] := by
  obtain ⟨root, decoded, holds⟩ := exists_ofJson_of_build documentedTree
    (fun root => decide ((documentedFile root).lines.size < 2 ^ 63 ∧
      (∀ c ∈ (documentedFile root).covering ⟨2, 10⟩, (documentedFile root).ComesTo ⟨2, 10⟩ c) ∧
      ((documentedFile root).covering ⟨2, 10⟩).map (·.node.kind) =
        ["SourceUnit", "ContractDefinition"]))
    keysAscend_documentedTree (by decide +kernel) (by decide +kernel)
  obtain ⟨fits, comes, kinds⟩ := of_decide_eq_true holds
  exact ⟨root, decoded, fits, (nodesAt_eq_covering_iff _ fits _).2.mpr comes, kinds⟩

/-- In the documentation the documentation is not found: the contract that owns it starts behind
it. -/
theorem documentation_not_found :
    ∃ root, Node.ofJson documentedTree = .ok root ∧
      ((documentedFile root).nodesAt ⟨1, 5⟩).map (·.node.kind) = ["SourceUnit"] ∧
      ((documentedFile root).covering ⟨1, 5⟩).map (·.node.kind) =
        ["SourceUnit", "StructuredDocumentation"] := by
  obtain ⟨root, decoded, holds⟩ := exists_ofJson_of_build documentedTree
    (fun root => decide (((documentedFile root).nodesAt ⟨1, 5⟩).map (·.node.kind) =
        ["SourceUnit"] ∧
      ((documentedFile root).covering ⟨1, 5⟩).map (·.node.kind) =
        ["SourceUnit", "StructuredDocumentation"]))
    keysAscend_documentedTree (by decide +kernel) (by decide +kernel)
  exact ⟨root, decoded, of_decide_eq_true holds⟩

end SolidityLint
