import SolidityLint.Ast.Node
import SolidityLint.Number.Sum

/-!
# Ast — walking

The walk is depth first and in document order, each node before its children.  It does not recurse:
`Cursor.visit` keeps the nodes that are still to come on a stack and asks a visitor at each node
whether to go on below it.  `Cursor.walk`, which leaves out the children of nodes that its predicate
does not descend into, `Cursor.collect` and `Cursor.findFirst?` are visitors; `Cursor.all` is the
whole tree.  `Cursor.events` brackets each subtree between its entry and its exit; its stack holds
the nodes that have been entered and not left.

`walkNode` and `eventsNode` describe the same by recursion over the tree.
-/

namespace SolidityLint

theorem Node.sum_sizeOf_children_lt (n : Node) :
    sumOf (n.children.map fun child => sizeOf child) + 1 < sizeOf n := by
  obtain ⟨info, children⟩ := n
  have nodes : sumOf (children.map fun child => sizeOf child) + 1 ≤ sizeOf children := by
    induction children with
    | nil => simp [sumOf]
    | cons child children ih =>
        simp only [List.map_cons, sumOf, List.cons.sizeOf_spec]
        omega
  simp only [Node.children, Node.mk.sizeOf_spec]
  omega

namespace Cursor

/-! ### Visits -/

/-- The cursors at the children, in document order. -/
def children (c : Cursor) : List Cursor :=
  c.node.children.zipIdx.map fun (n, place) => ⟨n, (place, c.node) :: c.trail⟩

@[simp] theorem map_node_children (c : Cursor) : c.children.map (·.node) = c.node.children := by
  rw [children, List.map_map]
  exact List.zipIdx_map_fst 0 _

/-- Puts the children of a node on a stack, from the last one on, so that the first is on top. -/
def pushChildren (c : Cursor) (stack : List Cursor) : List Cursor :=
  c.children.foldr (fun child stack => child :: stack) stack

@[simp] theorem pushChildren_eq (c : Cursor) (stack : List Cursor) :
    c.pushChildren stack = c.children ++ stack := by
  rw [pushChildren, List.foldr_cons_eq_append, List.map_id']

/-- The nodes of a stack by size. -/
noncomputable def pending (stack : List Cursor) : Nat :=
  sumOf ((stack.map (·.node)).map fun n => sizeOf n)

theorem pending_cons (c : Cursor) (stack : List Cursor) :
    pending (c :: stack) = sizeOf c.node + pending stack := rfl

theorem pending_children_lt (c : Cursor) (stack : List Cursor) :
    pending (c.children ++ stack) < pending (c :: stack) := by
  have := c.node.sum_sizeOf_children_lt
  rw [pending_cons, pending, List.map_append, map_node_children, List.map_append, sumOf_append,
    ← pending]
  omega

/-- Visits the nodes of a stack, the topmost first, and hands on the state of the visitor.  If the
visitor asks for them, the children of a node take its place on the stack. -/
def visit {σ : Type} (visitor : σ → Cursor → σ × Bool) (s : σ) : List Cursor → σ
  | [] => s
  | c :: stack =>
    if (visitor s c).2 then visit visitor (visitor s c).1 (c.pushChildren stack)
    else visit visitor (visitor s c).1 stack
termination_by stack => pending stack
decreasing_by
  · rw [pushChildren_eq]
    exact c.pending_children_lt stack
  · have := c.node.sum_sizeOf_children_lt
    rw [pending_cons]
    omega

/-- The nodes met from a cursor down, where children are visited only if `descend` says so. -/
def walk (descend : Cursor → Bool) (c : Cursor) : List Cursor :=
  (visit (fun met d => (d :: met, descend d)) [] [c]).reverse

/-- All nodes from a cursor down, in document order. -/
def all (c : Cursor) : List Cursor := c.walk fun _ => true

/-- The nodes from a cursor down for which the test holds, those below another one included. -/
def collect (c : Cursor) (test : Cursor → Bool) : List Cursor :=
  (visit (fun out d => (if test d then d :: out else out, true)) [] [c]).reverse

/-- The visitor of a search: after the first node for which the test holds it asks for no more. -/
def seek (test : Cursor → Bool) : Option Cursor → Cursor → Option Cursor × Bool
  | some found, _ => (some found, false)
  | none, d => if test d then (some d, false) else (none, true)

/-- The first node from a cursor down for which the test holds. -/
def findFirst? (c : Cursor) (test : Cursor → Bool) : Option Cursor := visit (seek test) none [c]

mutual

/-- The nodes met below `node`, itself first, when children are visited only where `descend`
says so. -/
def walkNode (descend : Cursor → Bool) (trail : List (Nat × Node)) : Node → List Cursor
  | .mk info children =>
    let here : Cursor := ⟨.mk info children, trail⟩
    here :: if descend here then walkChildren descend (.mk info children) trail 0 children else []

/-- The nodes met below the children from place `i` on. -/
def walkChildren (descend : Cursor → Bool) (parent : Node) (trail : List (Nat × Node)) (i : Nat) :
    List Node → List Cursor
  | [] => []
  | n :: ns =>
    walkNode descend ((i, parent) :: trail) n ++ walkChildren descend parent trail (i + 1) ns

end

/-! ### Events -/

/-- Entering or leaving a node. -/
inductive Event where
  | enter (c : Cursor)
  | leave (c : Cursor)

/-- A node that has been entered and not left, and the place of its child that comes next. -/
structure Frame where
  cursor : Cursor
  next : Nat

/-- The children of a frame that are still to come, by size. -/
noncomputable def Frame.toCome (f : Frame) : Nat :=
  sumOf ((f.cursor.node.children.drop f.next).map fun n => sizeOf n)

theorem Frame.toCome_of_child {f : Frame} {child : Cursor}
    (h : f.cursor.child? f.next = some child) :
    f.toCome = sizeOf child.node + (Frame.mk f.cursor (f.next + 1)).toCome := by
  obtain ⟨n, there, rfl⟩ := Option.map_eq_some_iff.mp h
  obtain ⟨lt, rfl⟩ := List.getElem?_eq_some_iff.mp there
  rw [toCome, toCome, List.drop_eq_getElem_cons lt, List.map_cons, sumOf]

theorem Frame.toCome_start_lt (c : Cursor) : (Frame.mk c 0).toCome + 1 < sizeOf c.node :=
  c.node.sum_sizeOf_children_lt

/-- The events that follow while the nodes of a stack are open, the innermost on top. -/
def eventsFrom (descend : Cursor → Bool) : List Frame → List Event
  | [] => []
  | top :: stack =>
    match _h : top.cursor.child? top.next with
    | none => .leave top.cursor :: eventsFrom descend stack
    | some child =>
      .enter child ::
        if descend child then
          eventsFrom descend (⟨child, 0⟩ :: ⟨top.cursor, top.next + 1⟩ :: stack)
        else .leave child :: eventsFrom descend (⟨top.cursor, top.next + 1⟩ :: stack)
termination_by stack => sumOf (stack.map fun f => f.toCome + 1)
decreasing_by
  · simp only [List.map_cons, sumOf]
    omega
  · have := Frame.toCome_of_child _h
    have := Frame.toCome_start_lt child
    simp only [List.map_cons, sumOf]
    omega
  · have := Frame.toCome_of_child _h
    have := Frame.toCome_start_lt child
    simp only [List.map_cons, sumOf]
    omega

/-- The entries and exits of a walk; a node whose children are left out is left at once. -/
def events (descend : Cursor → Bool) (c : Cursor) : List Event :=
  .enter c :: if descend c then eventsFrom descend [⟨c, 0⟩] else [.leave c]

mutual

/-- The events of a subtree. -/
def eventsNode (descend : Cursor → Bool) (trail : List (Nat × Node)) : Node → List Event
  | .mk info children =>
    let here : Cursor := ⟨.mk info children, trail⟩
    .enter here ::
      ((if descend here then eventsChildren descend (.mk info children) trail 0 children else [])
        ++ [.leave here])

/-- The events of the children from place `i` on. -/
def eventsChildren (descend : Cursor → Bool) (parent : Node) (trail : List (Nat × Node)) (i : Nat) :
    List Node → List Event
  | [] => []
  | n :: ns =>
    eventsNode descend ((i, parent) :: trail) n ++ eventsChildren descend parent trail (i + 1) ns

end

end Cursor

/-- All nodes of a tree that may be missing. -/
def allNodes (root : Option Node) : List Cursor :=
  match root with
  | none => []
  | some n => (Cursor.root n).all

/-- The nodes of a tree that may be missing for which the test holds. -/
def nodesThat (root : Option Node) (test : Cursor → Bool) : List Cursor :=
  match root with
  | none => []
  | some n => (Cursor.root n).collect test

/-- The nodes of the given kinds of a tree that may be missing. -/
def nodesOfKinds (root : Option Node) (kinds : List NodeKind) : List Cursor :=
  nodesThat root (·.node.isA kinds)

/-- The first node of a tree that may be missing for which the test holds. -/
def firstNode? (root : Option Node) (test : Cursor → Bool) : Option Cursor :=
  match root with
  | none => none
  | some n => (Cursor.root n).findFirst? test

end SolidityLint
