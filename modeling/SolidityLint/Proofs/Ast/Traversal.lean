import Mathlib
import SolidityLint.Ast.Walk

/-!
# Ast — traversals are recursion over the tree

`visit` and `eventsFrom` keep what is still to come on a stack.  Whatever the stack holds, what they
do with it is what the recursion over the tree does with one node of the stack after the other
(`visit_eq_foldl`, `eventsFrom_eq`).

* `walk_eq`, `events_eq`: walks and events are those of the recursions `preorder` and `bracketed`.
* `Nested.bracketed`, `entered_bracketed`, `nodup_preorder`: in the events every node that the walk
  meets is entered once and left once, and what is entered inside a node is left inside it.
* `collect_eq`, `findFirst?_eq`: a search is a filter of the whole pre-order, or its first element.
-/

namespace SolidityLint

namespace Cursor

variable (descend : Cursor → Bool)

/-! ### The recursions -/

/-- The nodes met from a cursor down, by recursion. -/
def preorder (c : Cursor) : List Cursor := walkNode descend c.trail c.node

/-- The events from a cursor down, by recursion. -/
def bracketed (c : Cursor) : List Event := eventsNode descend c.trail c.node

theorem walkChildren_eq (parent : Node) (trail : List (Nat × Node)) (i : Nat) (ns : List Node) :
    walkChildren descend parent trail i ns =
      ((ns.zipIdx i).map fun (n, place) => (⟨n, (place, parent) :: trail⟩ : Cursor)).flatMap
        (preorder descend) := by
  induction ns generalizing i with
  | nil => simp [walkChildren]
  | cons n ns ih =>
      rw [walkChildren, ih, List.zipIdx_cons, List.map_cons, List.flatMap_cons]
      rfl

theorem preorder_eq (c : Cursor) :
    c.preorder descend =
      c :: if descend c then c.children.flatMap (preorder descend) else [] := by
  obtain ⟨⟨info, ns⟩, trail⟩ := c
  rw [preorder, walkNode, walkChildren_eq]
  rfl

theorem eventsChildren_eq (parent : Node) (trail : List (Nat × Node)) (i : Nat)
    (ns : List Node) :
    eventsChildren descend parent trail i ns =
      ((ns.zipIdx i).map fun (n, place) => (⟨n, (place, parent) :: trail⟩ : Cursor)).flatMap
        (bracketed descend) := by
  induction ns generalizing i with
  | nil => simp [eventsChildren]
  | cons n ns ih =>
      rw [eventsChildren, ih, List.zipIdx_cons, List.map_cons, List.flatMap_cons]
      rfl

theorem bracketed_eq (c : Cursor) :
    c.bracketed descend =
      .enter c :: ((if descend c then c.children.flatMap (bracketed descend) else [])
        ++ [.leave c]) := by
  obtain ⟨⟨info, ns⟩, trail⟩ := c
  rw [bracketed, eventsNode, eventsChildren_eq]
  rfl

theorem getElem?_children (c : Cursor) (place : Nat) : c.children[place]? = c.child? place := by
  rw [children, child?, List.getElem?_map, List.getElem?_zipIdx, Option.map_map, Nat.zero_add]
  rfl

theorem mem_children {c d : Cursor} : d ∈ c.children ↔ ∃ place, c.child? place = some d := by
  simp only [List.mem_iff_getElem?, getElem?_children]

theorem sizeOf_lt_of_mem_children {c d : Cursor} (h : d ∈ c.children) :
    sizeOf d.node < sizeOf c.node := by
  have mem : d.node ∈ c.node.children := by
    rw [← map_node_children]
    exact List.mem_map_of_mem h
  have le := le_sumOf_of_mem (List.mem_map_of_mem (f := fun n : Node => sizeOf n) mem)
  have := c.node.sum_sizeOf_children_lt
  omega

/-- **Induction over the tree**, from the children of a cursor to the cursor. -/
theorem induction_children {motive : Cursor → Prop}
    (step : ∀ c : Cursor, (∀ d ∈ c.children, motive d) → motive c) (c : Cursor) : motive c :=
  step c fun d _h => induction_children step d
termination_by sizeOf c.node
decreasing_by exact sizeOf_lt_of_mem_children _h

/-! ### The stack of a visit -/

variable {descend}

/-- **What a visit does.**  A visitor whose answers do not depend on its state comes to the nodes of
the stack in turn, with those below them, and each time changes the state. -/
theorem visit_eq_foldl {σ : Type} {visitor : σ → Cursor → σ × Bool} {f : σ → Cursor → σ}
    (answers : ∀ s c, visitor s c = (f s c, descend c)) (s : σ) (stack : List Cursor) :
    visit visitor s stack = (stack.flatMap (preorder descend)).foldl f s := by
  fun_induction visit visitor s stack with
  | case1 s => rfl
  | case2 s c stack enter ih =>
      rw [answers] at enter
      rw [ih, answers, List.flatMap_cons, preorder_eq, if_pos enter, pushChildren_eq,
        List.flatMap_append, List.cons_append, List.foldl_cons]
  | case3 s c stack enter ih =>
      rw [answers] at enter
      rw [ih, answers, List.flatMap_cons, preorder_eq, if_neg enter, List.singleton_append,
        List.foldl_cons]

/-- A visitor that keeps the nodes for which a test holds, last first. -/
theorem visit_keep {visitor : List Cursor → Cursor → List Cursor × Bool} {test : Cursor → Bool}
    (answers : ∀ out c, visitor out c = (if test c then c :: out else out, descend c))
    (c : Cursor) :
    (visit visitor [] [c]).reverse = (c.preorder descend).filter test := by
  have kept : ∀ cs out : List Cursor,
      cs.foldl (fun out d => if test d then d :: out else out) out =
        (cs.filter test).reverse ++ out := by
    intro cs
    induction cs with
    | nil => exact fun out => rfl
    | cons d cs ih =>
        intro out
        rw [List.foldl_cons, ih]
        by_cases holds : test d
        · simp [holds]
        · simp [holds]
  rw [visit_eq_foldl answers, kept, List.append_nil, List.reverse_reverse, List.flatMap_cons,
    List.flatMap_nil, List.append_nil]

theorem walk_eq (c : Cursor) : c.walk descend = c.preorder descend := by
  have keeps_all : ∀ (met : List Cursor) (d : Cursor),
      (d :: met, descend d) = (if (fun _ => true) d then d :: met else met, descend d) :=
    fun _ _ => rfl
  rw [walk, visit_keep keeps_all, List.filter_true]

theorem collect_eq (c : Cursor) (test : Cursor → Bool) :
    c.collect test = (c.preorder fun _ => true).filter test :=
  visit_keep (fun _ _ => rfl) c

/-- Once a node is found, the stack is taken down without a look at it. -/
theorem visit_seek_some (test : Cursor → Bool) (found : Cursor) (stack : List Cursor) :
    visit (seek test) (some found) stack = some found := by
  induction stack with
  | nil => rw [visit]
  | cons c stack ih => rw [visit, seek, if_neg Bool.false_ne_true, ih]

theorem visit_seek_none (test : Cursor → Bool) : ∀ stack : List Cursor,
    visit (seek test) none stack = (stack.flatMap (preorder fun _ => true)).find? test
  | [] => by rw [visit]; rfl
  | c :: stack => by
      rw [visit, seek, List.flatMap_cons, preorder_eq, if_pos rfl, List.cons_append,
        List.find?_cons]
      by_cases holds : test c
      · rw [if_pos holds, if_neg Bool.false_ne_true, visit_seek_some]
        simp [holds]
      · rw [if_neg holds, if_pos rfl, pushChildren_eq, visit_seek_none test _, List.flatMap_append]
        simp [holds]
termination_by stack => pending stack
decreasing_by exact c.pending_children_lt stack

theorem findFirst?_eq (c : Cursor) (test : Cursor → Bool) :
    c.findFirst? test = (c.collect test).head? := by
  rw [findFirst?, visit_seek_none, collect_eq, List.head?_filter, List.flatMap_cons,
    List.flatMap_nil, List.append_nil]

/-! ### The stack of the events -/

/-- **What is still to come.**  Of each open node, the innermost first, the children that have not
been entered, and its exit. -/
theorem eventsFrom_eq (stack : List Frame) :
    eventsFrom descend stack = stack.flatMap fun f =>
      (f.cursor.children.drop f.next).flatMap (bracketed descend) ++ [.leave f.cursor] := by
  fun_induction eventsFrom descend stack with
  | case1 => rfl
  | case2 top stack none ih =>
      rw [← getElem?_children, List.getElem?_eq_none_iff] at none
      rw [ih, List.flatMap_cons, List.drop_of_length_le none]
      rfl
  | case3 top stack child some entered passed =>
      rw [← getElem?_children, List.getElem?_eq_some_iff] at some
      obtain ⟨lt, rfl⟩ := some
      rw [List.flatMap_cons, List.drop_eq_getElem_cons lt, List.flatMap_cons, bracketed_eq]
      by_cases enter : descend top.cursor.children[top.next]
      · rw [if_pos enter, if_pos enter, entered]
        simp [List.flatMap_cons]
      · rw [if_neg enter, if_neg enter, passed]
        simp [List.flatMap_cons]

theorem events_eq (c : Cursor) : c.events descend = c.bracketed descend := by
  rw [events, eventsFrom_eq, bracketed_eq]
  by_cases enter : descend c <;> simp [enter]

/-! ### Nesting -/

/-- The node that an event enters. -/
def Event.entered? : Event → Option Cursor
  | enter c => some c
  | leave _ => none

/-- The node that an event leaves. -/
def Event.left? : Event → Option Cursor
  | enter _ => none
  | leave c => some c

/-- Each entry has an exit of the same node, and between the two the events are nested as well. -/
inductive Nested : List Event → Prop where
  | nil : Nested []
  | around {c : Cursor} {inside after : List Event} (hi : Nested inside) (ha : Nested after) :
      Nested (.enter c :: (inside ++ .leave c :: after))

theorem Nested.append {before after : List Event} (hb : Nested before) (ha : Nested after) :
    Nested (before ++ after) := by
  induction hb with
  | nil => exact ha
  | around hi _ _ ih =>
      rw [List.cons_append, List.append_assoc, List.cons_append]
      exact .around hi ih

theorem Nested.flatMap {f : Cursor → List Event} {cs : List Cursor}
    (h : ∀ c ∈ cs, Nested (f c)) : Nested (cs.flatMap f) := by
  induction cs with
  | nil => exact .nil
  | cons c cs ih =>
      rw [List.flatMap_cons]
      exact (h c List.mem_cons_self).append (ih fun d hd => h d (List.mem_cons_of_mem c hd))

/-- In nested events the nodes that are left are those that are entered. -/
theorem Nested.left_perm_entered {es : List Event} (h : Nested es) :
    (es.filterMap Event.left?).Perm (es.filterMap Event.entered?) := by
  induction h with
  | nil => exact .refl _
  | @around c inside after _ _ ihi iha =>
      simp only [List.filterMap_cons, List.filterMap_append, Event.left?, Event.entered?]
      exact List.perm_middle.trans ((ihi.append iha).cons c)

theorem Nested.bracketed (c : Cursor) : Nested (c.bracketed descend) := by
  induction c using induction_children with
  | step c ih =>
      rw [bracketed_eq]
      refine .around ?_ .nil
      split
      · exact .flatMap ih
      · exact .nil

/-- The entries are the visits of the walk. -/
theorem entered_bracketed (c : Cursor) :
    (c.bracketed descend).filterMap Event.entered? = c.preorder descend := by
  induction c using induction_children with
  | step c ih =>
      rw [bracketed_eq, preorder_eq]
      simp only [List.filterMap_cons, List.filterMap_append, List.filterMap_nil, Event.entered?,
        List.append_nil]
      split
      · rw [List.filterMap_flatMap, List.flatMap_congr ih]
      · rfl

/-! ### Each node once -/

theorem trail_of_child {c d : Cursor} {place : Nat} (h : c.child? place = some d) :
    d.trail = (place, c.node) :: c.trail := by
  obtain ⟨n, -, rfl⟩ := Option.map_eq_some_iff.mp h
  rfl

/-- The way to a node that is met goes through the cursor where the walk started. -/
theorem trail_suffix {c d : Cursor} (h : d ∈ c.preorder descend) : c.trail <:+ d.trail := by
  induction c using induction_children with
  | step c ih =>
      rw [preorder_eq, List.mem_cons] at h
      obtain rfl | below := h
      · exact List.suffix_refl _
      · split at below
        · obtain ⟨child, hc, hd⟩ := List.mem_flatMap.mp below
          obtain ⟨place, there⟩ := mem_children.mp hc
          have way := ih child hc hd
          rw [trail_of_child there] at way
          exact (List.suffix_cons _ _).trans way
        · cases below

/-- What is met later does not stand above what was met before. -/
theorem pairwise_trails (c : Cursor) :
    (c.preorder descend).Pairwise fun a b => ¬ b.trail <:+ a.trail := by
  induction c using induction_children with
  | step c ih =>
      rw [preorder_eq]
      split
      · refine List.pairwise_cons.mpr ⟨fun d hd up => ?_, List.pairwise_flatMap.mpr ⟨ih, ?_⟩⟩
        · obtain ⟨child, hc, hd⟩ := List.mem_flatMap.mp hd
          obtain ⟨place, there⟩ := mem_children.mp hc
          have longer := (trail_suffix hd).length_le
          rw [trail_of_child there, List.length_cons] at longer
          have := up.length_le
          omega
        · refine List.pairwise_iff_getElem.mpr fun i j hi hj lt a ha b hb up => ?_
          have child (k : Nat) (hk : k < c.children.length) : c.child? k = some c.children[k] := by
            rw [← getElem?_children, List.getElem?_eq_getElem]
          have wayA := trail_suffix ha
          have wayB := (trail_suffix hb).trans up
          -- The ways to both go through the same child.
          rw [trail_of_child (child i hi)] at wayA
          rw [trail_of_child (child j hj)] at wayB
          have same := (List.suffix_of_suffix_length_le wayA wayB (by simp)).eq_of_length (by simp)
          simp only [List.cons.injEq, Prod.mk.injEq, and_true] at same
          omega
      · exact List.pairwise_singleton ..

/-- No node is met twice. -/
theorem nodup_preorder (c : Cursor) : (c.preorder descend).Nodup :=
  c.pairwise_trails.imp fun {a b} aside same => aside (by rw [same])

/-! ### What a walk leaves out -/

/-- The cursors on the way down, from the parent up. -/
def above : List (Nat × Node) → List Cursor
  | [] => []
  | (_, parent) :: trail => ⟨parent, trail⟩ :: above trail

/-- The ancestors of a cursor, from the parent up. -/
def ancestors (c : Cursor) : List Cursor := above c.trail

theorem ancestors_of_child {c d : Cursor} {place : Nat} (h : c.child? place = some d) :
    d.ancestors = c :: c.ancestors := by
  rw [ancestors, trail_of_child h]
  rfl

/-- The ancestors of what is met include those of the start. -/
theorem ancestors_suffix {c d : Cursor} (h : d ∈ c.preorder descend) :
    c.ancestors <:+ d.ancestors := by
  obtain ⟨way, hway⟩ := trail_suffix h
  rw [ancestors, ancestors, ← hway]
  clear hway
  induction way with
  | nil => exact List.suffix_refl _
  | cons step way ih => exact ih.trans (List.suffix_cons _ _)

/-- A walk meets the nodes of the whole pre-order below whose ancestors it descends. -/
theorem preorder_eq_filter (c : Cursor) (entered : ∀ a ∈ c.ancestors, descend a) :
    c.preorder descend = (c.preorder fun _ => true).filter fun d => d.ancestors.all descend := by
  induction c using induction_children with
  | step c ih =>
      have here : c.ancestors.all descend = true := List.all_eq_true.mpr entered
      rw [preorder_eq descend, preorder_eq fun _ => true, if_pos rfl, List.filter_cons, if_pos here]
      congr 1
      by_cases enter : descend c
      · rw [if_pos enter, List.filter_flatMap]
        refine List.flatMap_congr fun d hd => ih d hd ?_
        obtain ⟨place, there⟩ := mem_children.mp hd
        rw [ancestors_of_child there]
        exact List.forall_mem_cons.mpr ⟨enter, entered⟩
      · rw [if_neg enter]
        refine (List.filter_eq_nil_iff.mpr fun e he all => enter ?_).symm
        obtain ⟨d, hd, he⟩ := List.mem_flatMap.mp he
        obtain ⟨place, there⟩ := mem_children.mp hd
        have way := ancestors_suffix he
        rw [ancestors_of_child there] at way
        exact List.all_eq_true.mp all c (way.subset List.mem_cons_self)

end Cursor

theorem nodesThat_eq (root : Option Node) (test : Cursor → Bool) :
    nodesThat root test = (allNodes root).filter test := by
  cases root with
  | none => rfl
  | some n => rw [nodesThat, allNodes, Cursor.collect_eq, Cursor.all, Cursor.walk_eq]

theorem firstNode?_eq (root : Option Node) (test : Cursor → Bool) :
    firstNode? root test = (nodesThat root test).head? := by
  cases root with
  | none => rfl
  | some n => exact Cursor.findFirst?_eq _ test

/-- **Traversals follow the tree.**  Walks and events on explicit stacks are those of the recursion,
whatever is left out.  The entries among the events are the visits of the walk; no node is met
twice, each that is entered is left, and the events are nested.  Collecting is filtering the whole
pre-order, and the first node found is the first collected, if there is one. -/
theorem traversals_follow_recursion (descend test : Cursor → Bool) (c : Cursor)
    (root : Option Node) :
    c.walk descend = c.preorder descend ∧
    c.events descend = c.bracketed descend ∧
    (c.events descend).filterMap Cursor.Event.entered? = c.walk descend ∧
    (c.walk descend).Nodup ∧
    ((c.events descend).filterMap Cursor.Event.left?).Perm (c.walk descend) ∧
    Cursor.Nested (c.events descend) ∧
    nodesThat root test = (allNodes root).filter test ∧
    firstNode? root test = (nodesThat root test).head? := by
  have nested : Cursor.Nested (c.bracketed descend) := .bracketed c
  rw [Cursor.walk_eq, Cursor.events_eq]
  refine ⟨rfl, rfl, Cursor.entered_bracketed c, Cursor.nodup_preorder c, ?_, nested,
    nodesThat_eq root test, firstNode?_eq root test⟩
  rw [← Cursor.entered_bracketed]
  exact nested.left_perm_entered

end SolidityLint
