import Mathlib
import SolidityLint.Ast.Decode
import SolidityLint.Proofs.Ast.Traversal
import SolidityLint.Proofs.Json.RoundTrip

/-!
# Ast — which declarations a walk meets

Every object of a JSON value with a textual `nodeType` declares a node, at whatever depth it
stands (`declarations`).  Decoding builds a node for some of them only.  Left out (`missed`) are

- whatever is declared under the keys that make a node itself;
- a node among the items of an array that is no field of a node: one that also holds other values
  than nodes and nulls, or one inside an attribute.

Below a node that is left out the search goes on as inside an attribute, so nodes that are its
members are still met.

`Accounts nodes declared left` says that the nodes belong to the declarations one to one, all but
those that are `left`.  The walk over a decoded tree accounts for the declarations of its text
with exactly the missed ones left (`walk_accounts_for_declarations`), so it meets a node for every
declaration just when none is missed.
-/

namespace SolidityLint

/-! ### The nodes of a walk -/

namespace Node

/-- The nodes that a walk from the top meets. -/
def nodes (n : Node) : List Node := (Cursor.root n).all.map (·.node)

end Node

namespace Cursor

mutual

theorem map_node_walkNode (trail : List (Nat × Node)) :
    ∀ n : Node, (walkNode (fun _ => true) trail n).map (·.node) = n.nodes
  | .mk info children => by
      rw [Node.nodes, all, walk_eq, preorder, root]
      simp only [walkNode, if_true, List.map_cons]
      rw [map_node_walkChildren _ trail 0 children, map_node_walkChildren _ [] 0 children]

theorem map_node_walkChildren (parent : Node) (trail : List (Nat × Node)) (i : Nat) :
    ∀ ns : List Node,
      (walkChildren (fun _ => true) parent trail i ns).map (·.node) = ns.flatMap Node.nodes
  | [] => by rw [walkChildren]; rfl
  | n :: ns => by
      rw [walkChildren, List.map_append, map_node_walkNode _ n,
        map_node_walkChildren parent trail (i + 1) ns, List.flatMap_cons]

end

end Cursor

namespace Node

/-- A walk meets a node, and then what walks over its children meet. -/
theorem nodes_eq (n : Node) : n.nodes = n :: n.children.flatMap nodes := by
  cases n with
  | mk info children =>
      rw [nodes, Cursor.all, Cursor.walk_eq, Cursor.preorder, Cursor.root]
      simp only [Cursor.walkNode, if_true, List.map_cons]
      rw [Cursor.map_node_walkChildren, Node.children]

/-! ### The children of an assembled node -/

/-- The nodes of a part. -/
def Part.nodes : Part → List Node
  | .attr _ _ => []
  | .field _ nodes => nodes.filterMap fun n => n
  | .hidden _ node => [node]

theorem Gathered.nodes_foldl_add (parts : List Part) (g : Gathered) :
    (parts.foldl Gathered.add g).nodes.reverse = g.nodes.reverse ++ parts.flatMap Part.nodes := by
  induction parts generalizing g with
  | nil => simp
  | cons part parts ih =>
      rw [List.foldl_cons, ih, List.flatMap_cons, ← List.append_assoc]
      congr 1
      cases part <;> simp [Gathered.add, Part.nodes]

theorem perm_insertInOrder (x : Nat × Node) (ys : List (Nat × Node)) :
    (insertInOrder x ys).Perm (x :: ys) := by
  induction ys with
  | nil => exact .refl _
  | cons y ys ih =>
      rw [insertInOrder]
      split
      · exact (ih.cons y).trans (.swap x y ys)
      · exact .refl _

theorem perm_inOrder (nodes : List (Nat × Node)) : (inOrder nodes).Perm nodes := by
  have inserted : ∀ acc,
      (nodes.foldl (fun acc x => insertInOrder x acc) acc).Perm (nodes ++ acc) := by
    induction nodes with
    | nil => exact fun acc => .refl _
    | cons x nodes ih =>
        intro acc
        refine (ih (insertInOrder x acc)).trans ?_
        exact ((perm_insertInOrder x acc).append_left nodes).trans List.perm_middle
  have := inserted []
  rw [List.append_nil] at this
  exact (List.reverse_perm _).trans this

/-- Sorting neither loses nor adds children. -/
theorem perm_children_assemble (id : Int64) (kind : NodeKind) (src : Span) (parts : List Part) :
    (assemble id kind src parts).children.Perm (parts.flatMap Part.nodes) := by
  refine ((perm_inOrder _).map (·.2)).trans ?_
  -- Numbering the nodes and dropping the numbers gives the nodes again.
  rw [List.map_map]
  change (List.map Prod.fst _).Perm _
  rw [List.zipIdx_map_fst, Gathered.nodes_foldl_add]
  exact .refl _

/-! ### Declarations -/

mutual

/-- The objects of a value that declare a node, at any depth. -/
def declarations : Json → List Json
  | .obj members =>
    (if isNodeValue (.obj members) then [.obj members] else []) ++ declarationsOfMembers members
  | .arr items => declarationsOfItems items
  | _ => []

/-- Member by member. -/
def declarationsOfMembers : List (String × Json) → List Json
  | [] => []
  | (_, value) :: rest => declarations value ++ declarationsOfMembers rest

/-- Item by item. -/
def declarationsOfItems : List Json → List Json
  | [] => []
  | value :: rest => declarations value ++ declarationsOfItems rest

end

/-- The declarations inside a value, itself left out. -/
def declarationsBelow : Json → List Json
  | .obj members => declarationsOfMembers members
  | .arr items => declarationsOfItems items
  | _ => []

theorem declarations_eq (v : Json) :
    declarations v = (if isNodeValue v then [v] else []) ++ declarationsBelow v := by
  cases v <;> simp [declarations, declarationsBelow, isNodeValue]

theorem declarations_of_not_node {v : Json} (h : ¬ isNodeValue v) :
    declarations v = declarationsBelow v := by
  rw [declarations_eq, if_neg h, List.nil_append]

mutual

/-- The declarations below an object for which the node of the object has no node. -/
def missed : Json → List Json
  | .obj members => missedInFields members
  | _ => []

/-- Among the members of a node. -/
def missedInFields : List (String × Json) → List Json
  | [] => []
  | (key, value) :: rest =>
    (if isOwnKey key then declarations value else missedInField value) ++ missedInFields rest

/-- In the value of one member of a node. -/
def missedInField : Json → List Json
  | .obj members =>
    if isNodeValue (.obj members) then missedInFields members else missedInMembers members
  | .arr items => if isNodeList items then missedInNodes items else missedInItems items
  | _ => []

/-- Among the items of a list of nodes. -/
def missedInNodes : List Json → List Json
  | [] => []
  | value :: rest => missed value ++ missedInNodes rest

/-- Inside a value that is searched as an attribute. -/
def missedInside : Json → List Json
  | .obj members => missedInMembers members
  | .arr items => missedInItems items
  | _ => []

/-- Among the members of an attribute. -/
def missedInMembers : List (String × Json) → List Json
  | [] => []
  | (_, value) :: rest =>
    (if isNodeValue value then missed value else missedInside value) ++ missedInMembers rest

/-- Among the items of an attribute; a node is no more found here. -/
def missedInItems : List Json → List Json
  | [] => []
  | value :: rest =>
    (if isNodeValue value then [value] else []) ++ missedInside value ++ missedInItems rest

end

/-! ### Accounting -/

/-- The nodes are those of declarations, one to one, and the declarations that no node belongs to
are `left`. -/
def Accounts (ns : List Node) (declared left : List Json) : Prop :=
  ∃ pairs : List (Node × Json), (pairs.map (·.1)).Perm ns ∧
    (pairs.map (·.2) ++ left).Perm declared ∧ ∀ p ∈ pairs, build p.2 = .ok p.1

namespace Accounts

/-- Declarations without a node. -/
theorem unmet (declared : List Json) : Accounts [] declared declared :=
  ⟨[], .refl _, .refl _, fun _ h => absurd h List.not_mem_nil⟩

theorem append {ns ns' : List Node} {declared declared' left left' : List Json}
    (h : Accounts ns declared left) (h' : Accounts ns' declared' left') :
    Accounts (ns ++ ns') (declared ++ declared') (left ++ left') := by
  obtain ⟨pairs, met, all, built⟩ := h
  obtain ⟨pairs', met', all', built'⟩ := h'
  refine ⟨pairs ++ pairs', ?_, ?_, fun p hp => ?_⟩
  · rw [List.map_append]
    exact met.append met'
  · -- What each half leaves goes behind what both halves meet.
    have regroup : (pairs.map (·.2) ++ pairs'.map (·.2) ++ (left ++ left')).Perm
        (pairs.map (·.2) ++ left ++ (pairs'.map (·.2) ++ left')) := by
      simp only [List.append_assoc]
      refine List.Perm.append_left _ ?_
      rw [← List.append_assoc, ← List.append_assoc]
      exact List.perm_append_comm.append_right left'
    rw [List.map_append]
    exact regroup.trans (all.append all')
  · rcases List.mem_append.mp hp with hp | hp
    · exact built p hp
    · exact built' p hp

theorem cons {n : Node} {v : Json} {ns : List Node} {declared left : List Json}
    (hn : build v = .ok n) (h : Accounts ns declared left) :
    Accounts (n :: ns) (v :: declared) left := by
  have one : Accounts [n] [v] [] := by
    refine ⟨[(n, v)], .refl _, .refl _, fun p hp => ?_⟩
    obtain rfl := List.mem_singleton.mp hp
    exact hn
  exact one.append h

theorem perm {ns ns' : List Node} {declared left : List Json} (hn : ns.Perm ns')
    (h : Accounts ns declared left) : Accounts ns' declared left := by
  obtain ⟨pairs, met, rest⟩ := h
  exact ⟨pairs, met.trans hn, rest⟩

theorem length_eq {ns : List Node} {declared left : List Json} (h : Accounts ns declared left) :
    ns.length + left.length = declared.length := by
  obtain ⟨pairs, met, all, -⟩ := h
  rw [← met.length_eq, ← all.length_eq]
  simp

end Accounts

theorem bind_eq_ok {ε α β : Type} {x : Except ε α} {f : α → Except ε β} {b : β} :
    x >>= f = .ok b ↔ ∃ a, x = .ok a ∧ f a = .ok b := by
  cases x <;> simp [bind, Except.bind]

/-- The nodes of parts with all that is below them. -/
def partsNodes (parts : List Part) : List Node := (parts.flatMap Part.nodes).flatMap nodes

theorem partsNodes_append (ps qs : List Part) :
    partsNodes (ps ++ qs) = partsNodes ps ++ partsNodes qs := by
  rw [partsNodes, List.flatMap_append, List.flatMap_append, partsNodes, partsNodes]

theorem partsNodes_attr (key : String) (value : Json) (parts : List Part) :
    partsNodes (.attr key value :: parts) = partsNodes parts := rfl

/-- A node accounts for its declaration when its parts account for the members. -/
theorem accounts_of_header {members : List (String × Json)} {n : Node} {parts : List Part}
    {id : Int64} {kind : NodeKind} {src : Span} (hv : isNodeValue (.obj members))
    (hn : build (.obj members) = .ok n) (eq : n = assemble id kind src parts)
    (h : Accounts (partsNodes parts) (declarationsOfMembers members) (missedInFields members)) :
    Accounts n.nodes (declarations (.obj members)) (missed (.obj members)) := by
  have sorted : (partsNodes parts).Perm (n.children.flatMap nodes) := by
    rw [eq]
    exact ((perm_children_assemble id kind src parts).flatMap_right nodes).symm
  rw [nodes_eq, declarations_eq, if_pos hv, missed]
  exact .cons hn (h.perm sorted)

/-- What one member of a node contributes, unless its key is one of the node's own. -/
def valueParts (key : String) (value : Json) : Except DecodeError (List Part) :=
  if isNodeValue value then do
    let n ← build value
    return [.field key [some n]]
  else match value with
    | .arr items =>
      if isNodeList items then do
        let ns ← buildItems items
        return [.field key ns]
      else do
        let hidden ← hiddenItems key items
        return .attr key value :: hidden
    | .obj members => do
      let hidden ← hiddenMembers key members
      return .attr key value :: hidden
    | _ => return [.attr key value]

theorem memberParts_cons {key : String} (own : ¬ isOwnKey key) (value : Json)
    (rest : List (String × Json)) :
    memberParts ((key, value) :: rest)
      = (valueParts key value >>= fun here => (here ++ ·) <$> memberParts rest) := by
  rw [memberParts.eq_def, valueParts.eq_def]
  by_cases hv : isNodeValue value
  · simp [own, hv]
  · cases value with
    | arr items => by_cases list : isNodeList items <;> simp [own, hv, list]
    | null | bool | num | str | obj => simp [own, hv]

theorem forall_of_isNodeList {items : List Json} (h : isNodeList items) :
    ∀ v ∈ items, v.isNull ∨ isNodeValue v := by
  intro v hv
  have := List.all_eq_true.mp (Bool.and_eq_true_iff.mp h).1 v hv
  exact Bool.or_eq_true_iff.mp this

/-! ### Decoding accounts for declarations

One statement for each of the functions that decode, by recursion on the value: what it returns
accounts for the declarations it was given, with the missed ones left. -/

mutual

theorem accounts_build {v : Json} {n : Node} (hv : isNodeValue v) (h : build v = .ok n) :
    Accounts n.nodes (declarations v) (missed v) := by
  match v with
  | .obj members =>
      have h' := h
      rw [build] at h'
      obtain ⟨⟨kind, id, src⟩, -, h'⟩ := bind_eq_ok.mp h'
      obtain ⟨parts, hparts, h'⟩ := bind_eq_ok.mp h'
      exact accounts_of_header hv h (Except.ok.inj h').symm (accounts_memberParts hparts)
  | .null | .bool _ | .num _ | .str _ | .arr _ => exact absurd hv (by simp [isNodeValue])
termination_by 2 * sizeOf v
decreasing_by all_goals simp only [Json.obj.sizeOf_spec]; omega

theorem accounts_memberParts {members : List (String × Json)} {parts : List Part}
    (h : memberParts members = .ok parts) :
    Accounts (partsNodes parts) (declarationsOfMembers members) (missedInFields members) := by
  match members with
  | [] =>
      rw [memberParts] at h
      obtain rfl := Except.ok.inj h
      rw [declarationsOfMembers, missedInFields]
      exact .unmet []
  | (key, value) :: rest =>
      rw [declarationsOfMembers, missedInFields]
      by_cases own : isOwnKey key
      · rw [memberParts, if_pos own] at h
        -- What is declared under a key of the node itself is not looked for.
        rw [if_pos own]
        exact Accounts.append (.unmet (declarations value)) (accounts_memberParts h)
      · rw [memberParts_cons own] at h
        rw [if_neg own]
        obtain ⟨here, hhere, h⟩ := bind_eq_ok.mp h
        obtain ⟨others, hothers, h⟩ := bind_eq_ok.mp h
        obtain rfl := Except.ok.inj h
        rw [partsNodes_append]
        exact (accounts_valueParts hhere).append (accounts_memberParts hothers)
termination_by 2 * sizeOf members
decreasing_by all_goals simp only [List.cons.sizeOf_spec, Prod.mk.sizeOf_spec]; omega

theorem accounts_valueParts {key : String} {value : Json} {parts : List Part}
    (h : valueParts key value = .ok parts) :
    Accounts (partsNodes parts) (declarations value) (missedInField value) := by
  match value with
  | .obj members =>
      by_cases hv : isNodeValue (.obj members)
      · rw [valueParts, if_pos hv] at h
        obtain ⟨n, hn, h⟩ := bind_eq_ok.mp h
        obtain rfl := Except.ok.inj h
        have node := accounts_build hv hn
        rw [missed] at node
        rw [missedInField, if_pos hv]
        simpa [partsNodes, Part.nodes] using node
      · rw [valueParts, if_neg hv] at h
        obtain ⟨hidden, hhidden, h⟩ := bind_eq_ok.mp h
        obtain rfl := Except.ok.inj h
        rw [missedInField, if_neg hv, declarations_of_not_node hv, partsNodes_attr]
        exact accounts_hiddenMembers hhidden
  | .arr items =>
      rw [valueParts, if_neg (by simp [isNodeValue])] at h
      rw [missedInField, declarations]
      by_cases list : isNodeList items
      · rw [if_pos list] at h
        rw [if_pos list]
        obtain ⟨ns, hns, h⟩ := bind_eq_ok.mp h
        obtain rfl := Except.ok.inj h
        have nodes := accounts_buildItems (forall_of_isNodeList list) hns
        simpa [partsNodes, Part.nodes] using nodes
      · rw [if_neg list] at h
        rw [if_neg list]
        obtain ⟨hidden, hhidden, h⟩ := bind_eq_ok.mp h
        obtain rfl := Except.ok.inj h
        rw [partsNodes_attr]
        exact accounts_hiddenItems hhidden
  | .null | .bool _ | .num _ | .str _ =>
      obtain rfl := Except.ok.inj h
      exact .unmet []
-- What a field holds may be a node, of which `accounts_build` is asked without going down.
termination_by 2 * sizeOf value + 1
decreasing_by all_goals simp only [Json.obj.sizeOf_spec, Json.arr.sizeOf_spec]; omega

theorem accounts_buildItems {items : List Json} {ns : List (Option Node)}
    (hitems : ∀ v ∈ items, v.isNull ∨ isNodeValue v) (h : buildItems items = .ok ns) :
    Accounts ((ns.filterMap fun n => n).flatMap nodes) (declarationsOfItems items)
      (missedInNodes items) := by
  match items with
  | [] =>
      rw [buildItems] at h
      obtain rfl := Except.ok.inj h
      rw [declarationsOfItems, missedInNodes]
      exact .unmet []
  | .null :: rest =>
      rw [buildItems.eq_def] at h
      simp only [pure_bind] at h
      obtain ⟨others, hothers, h⟩ := bind_eq_ok.mp h
      obtain rfl := Except.ok.inj h
      have more := accounts_buildItems (List.forall_mem_cons.mp hitems).2 hothers
      simpa [declarationsOfItems, missedInNodes, declarations, missed] using more
  | .obj members :: rest =>
      have hv : isNodeValue (.obj members) :=
        (List.forall_mem_cons.mp hitems).1.resolve_left (by simp [Json.isNull])
      rw [buildItems.eq_def] at h
      simp only [bind_map_left] at h
      obtain ⟨n, hn, h⟩ := bind_eq_ok.mp h
      obtain ⟨others, hothers, h⟩ := bind_eq_ok.mp h
      obtain rfl := Except.ok.inj h
      rw [declarationsOfItems, missedInNodes]
      exact (accounts_build hv hn).append
        (accounts_buildItems (List.forall_mem_cons.mp hitems).2 hothers)
  | .bool _ :: _ | .num _ :: _ | .str _ :: _ | .arr _ :: _ =>
      exact absurd (List.forall_mem_cons.mp hitems).1 (by simp [Json.isNull, isNodeValue])
termination_by 2 * sizeOf items
decreasing_by all_goals simp only [Json.obj.sizeOf_spec, List.cons.sizeOf_spec]; omega

theorem accounts_hiddenMembers {path : String} {members : List (String × Json)} {parts : List Part}
    (h : hiddenMembers path members = .ok parts) :
    Accounts (partsNodes parts) (declarationsOfMembers members) (missedInMembers members) := by
  match members with
  | [] =>
      rw [hiddenMembers] at h
      obtain rfl := Except.ok.inj h
      rw [declarationsOfMembers, missedInMembers]
      exact .unmet []
  | (key, value) :: rest =>
      rw [hiddenMembers] at h
      rw [declarationsOfMembers, missedInMembers]
      by_cases hv : isNodeValue value
      · rw [if_pos hv] at h
        simp only [pure_bind] at h
        obtain ⟨n, hn, h⟩ := bind_eq_ok.mp h
        obtain ⟨others, hothers, h⟩ := bind_eq_ok.mp h
        obtain rfl := Except.ok.inj h
        rw [if_pos hv]
        exact (accounts_build hv hn).append (accounts_hiddenMembers hothers)
      · rw [if_neg hv] at h
        obtain ⟨here, hhere, h⟩ := bind_eq_ok.mp h
        obtain ⟨others, hothers, h⟩ := bind_eq_ok.mp h
        obtain rfl := Except.ok.inj h
        rw [if_neg hv, declarations_of_not_node hv, partsNodes_append]
        exact (accounts_hiddenIn hhere).append (accounts_hiddenMembers hothers)
termination_by 2 * sizeOf members
decreasing_by all_goals simp only [List.cons.sizeOf_spec, Prod.mk.sizeOf_spec]; omega

theorem accounts_hiddenItems {path : String} {items : List Json} {parts : List Part}
    (h : hiddenItems path items = .ok parts) :
    Accounts (partsNodes parts) (declarationsOfItems items) (missedInItems items) := by
  match items with
  | [] =>
      rw [hiddenItems] at h
      obtain rfl := Except.ok.inj h
      rw [declarationsOfItems, missedInItems]
      exact .unmet []
  | value :: rest =>
      rw [hiddenItems] at h
      obtain ⟨here, hhere, h⟩ := bind_eq_ok.mp h
      obtain ⟨others, hothers, h⟩ := bind_eq_ok.mp h
      obtain rfl := Except.ok.inj h
      rw [declarationsOfItems, missedInItems, declarations_eq, partsNodes_append]
      -- The search goes on inside the item and passes over the item itself.
      have item : Accounts [] (if isNodeValue value then [value] else []) _ := .unmet _
      exact (item.append (accounts_hiddenIn hhere)).append (accounts_hiddenItems hothers)
termination_by 2 * sizeOf items
decreasing_by all_goals simp only [List.cons.sizeOf_spec]; omega

theorem accounts_hiddenIn {path : String} {v : Json} {parts : List Part}
    (h : hiddenIn path v = .ok parts) :
    Accounts (partsNodes parts) (declarationsBelow v) (missedInside v) := by
  match v with
  | .obj members =>
      rw [hiddenIn] at h
      rw [missedInside]
      exact accounts_hiddenMembers h
  | .arr items =>
      rw [hiddenIn] at h
      rw [missedInside]
      exact accounts_hiddenItems h
  | .null | .bool _ | .num _ | .str _ =>
      obtain rfl := Except.ok.inj h
      exact .unmet []
termination_by 2 * sizeOf v
decreasing_by all_goals simp only [Json.obj.sizeOf_spec, Json.arr.sizeOf_spec]; omega

end

/-- A text that is decoded is a value that declares a node, and the tree is the node of it. -/
theorem build_of_decode {text : String} {n : Node} (h : decode text = .ok n) :
    ∃ v, Json.parseFirst? text = some v ∧ isNodeValue v.canonical ∧ build v.canonical = .ok n := by
  unfold decode at h
  split at h
  · cases h
  · rename_i v read
    rw [ofJson] at h
    by_cases hv : isNodeValue v.canonical
    · exact ⟨v, read, hv, by rwa [if_pos hv] at h⟩
    · rw [if_neg hv] at h
      cases h

end Node

open Node

/-- A text decodes to what its first value is decoded to. -/
theorem decode_eq {text : String} {v : Json} (read : Json.parseFirst? text = some v) :
    Node.decode text = Node.ofJson v := by
  rw [Node.decode, read]

/-- A value that builds a tree of which something holds is decoded to a tree of which it holds. -/
theorem exists_ofJson_of_build (v : Json) (holds : Node → Bool) (ascend : v.keysAscend = true)
    (hv : Node.isNodeValue v = true) (built : (Node.build v).toOption.any holds = true) :
    ∃ n, Node.ofJson v = .ok n ∧ holds n = true := by
  rw [Node.ofJson, Json.canonical_of_keysAscend ascend, if_pos hv]
  cases h : Node.build v with
  | error e => rw [h] at built; cases built
  | ok n =>
      rw [h] at built
      exact ⟨n, rfl, built⟩

/-- **Which declarations a walk meets.** The nodes of the walk over a decoded tree belong to the
declarations of the text one to one, with exactly the missed declarations left; so every
declaration has a node just when none is missed.  A key that an object repeats counts with its
last value. -/
theorem walk_accounts_for_declarations {text : String} {n : Node} (h : decode text = .ok n) :
    ∃ v, Json.parseFirst? text = some v ∧
      Accounts ((allNodes (some n)).map (·.node)) (declarations v.canonical)
        (missed v.canonical) ∧
      (Accounts ((allNodes (some n)).map (·.node)) (declarations v.canonical) [] ↔
        missed v.canonical = []) := by
  obtain ⟨v, read, hv, hn⟩ := build_of_decode h
  have accounts : Accounts n.nodes (declarations v.canonical) (missed v.canonical) :=
    accounts_build hv hn
  refine ⟨v, read, accounts, fun all => ?_, fun none => none ▸ accounts⟩
  -- Both account for all declarations, so they leave equally many.
  have met : n.nodes.length + 0 = (declarations v.canonical).length := all.length_eq
  have left := accounts.length_eq
  exact List.eq_nil_of_length_eq_zero (by omega)

/-- A text with a value that builds a tree is decoded to a tree of as many nodes. -/
theorem exists_decode {text : String} {v : Json} {k : Nat} (read : Json.parseFirst? text = some v)
    (ascend : v.keysAscend = true) (hv : isNodeValue v)
    (met : (build v).toOption.any (fun n =>
      ((Cursor.root n).preorder fun _ => true).length = k) = true) :
    ∃ n, decode text = .ok n ∧ n.nodes.length = k := by
  obtain ⟨n, decoded, length⟩ := exists_ofJson_of_build v _ ascend hv met
  refine ⟨n, (decode_eq read).trans decoded, ?_⟩
  rw [nodes, List.length_map, Cursor.all, Cursor.walk_eq]
  exact of_decide_eq_true length

/-- A source unit with a literal inside an object that is an item of an attribute. -/
def attributeTree : Json :=
  .obj [("nodeType", .str "SourceUnit"), ("src", .str "0:9"),
    ("x", .arr [.obj [("y", .obj [("nodeType", .str "Literal"), ("src", .str "1:2")])]])]

def attributeTreeText : String :=
  "\x7b\"nodeType\":\"SourceUnit\",\"src\":\"0:9\"," ++
    "\"x\":[\x7b\"y\":\x7b\"nodeType\":\"Literal\",\"src\":\"1:2\"\x7d\x7d]\x7d"

theorem parseFirst?_attributeTreeText :
    Json.parseFirst? attributeTreeText = some attributeTree := by
  have text : attributeTreeText = attributeTree.compact := rfl
  rw [text]
  exact Json.parseFirst?_compact
    (by simp [attributeTree, Json.numerals_obj, Json.numerals_arr, Json.numerals_str]) (by decide)

theorem keysAscend_attributeTree : attributeTree.keysAscend = true := rfl

/-- The literal inside the attribute is met. -/
theorem walk_accounts_for_literal_in_attribute :
    ∃ n v, decode attributeTreeText = .ok n ∧
      Json.parseFirst? attributeTreeText = some v ∧
      Accounts ((allNodes (some n)).map (·.node)) (declarations v.canonical) [] := by
  obtain ⟨n, hn, -⟩ := exists_decode (k := 2) parseFirst?_attributeTreeText
    keysAscend_attributeTree rfl rfl
  obtain ⟨v, read, -, met⟩ := walk_accounts_for_declarations hn
  obtain rfl := Option.some.inj (parseFirst?_attributeTreeText.symm.trans read)
  refine ⟨n, _, hn, read, met.mpr ?_⟩
  rw [Json.canonical_of_keysAscend keysAscend_attributeTree]
  cbv

/-- A source unit with a literal beside a string in one array. -/
def mixedTree : Json :=
  .obj [("nodeType", .str "SourceUnit"), ("parts", .arr [.obj [("nodeType", .str "Literal"),
    ("src", .str "1:2")], .str "x"]), ("src", .str "0:9")]

def mixedTreeText : String :=
  "\x7b\"nodeType\":\"SourceUnit\",\"parts\":[\x7b\"nodeType\":\"Literal\",\"src\":\"1:2\"\x7d," ++
    "\"x\"],\"src\":\"0:9\"\x7d"

theorem parseFirst?_mixedTreeText :
    Json.parseFirst? mixedTreeText = some mixedTree := by
  have text : mixedTreeText = mixedTree.compact := rfl
  rw [text]
  exact Json.parseFirst?_compact
    (by simp [mixedTree, Json.numerals_obj, Json.numerals_arr, Json.numerals_str]) (by decide)

theorem keysAscend_mixedTree : mixedTree.keysAscend = true := rfl

/-- The literal beside the string is not met: two objects declare a node, the walk meets one. -/
theorem literal_beside_string_not_met :
    ∃ n v, decode mixedTreeText = .ok n ∧
      Json.parseFirst? mixedTreeText = some v ∧
      ¬ Accounts ((allNodes (some n)).map (·.node)) (declarations v.canonical) [] := by
  obtain ⟨n, hn, one⟩ := exists_decode (k := 1) parseFirst?_mixedTreeText
    keysAscend_mixedTree rfl rfl
  refine ⟨n, _, hn, parseFirst?_mixedTreeText, fun accounts => ?_⟩
  rw [Json.canonical_of_keysAscend keysAscend_mixedTree] at accounts
  have two : (declarations mixedTree).length = 2 := rfl
  have met : n.nodes.length + 0 = (declarations mixedTree).length := accounts.length_eq
  omega

end SolidityLint
