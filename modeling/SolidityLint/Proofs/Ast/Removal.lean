import SolidityLint.Ast.Node

/-!
# Ast — taking nodes out of a tree

`Node.without gone n` is a node without its children at some places.  They are taken out of the
children and of all lists, and the places of those that stay are counted anew; `list?_without` says
that the lists lose nothing else.  `Node.mapChildren` puts other nodes in the places of children.
-/

namespace SolidityLint

namespace Node

variable {gone : Nat → Bool}

/-- How many of the children at `count` places, from place `i` on, stay. -/
def staying (gone : Nat → Bool) (i count : Nat) : Nat :=
  (List.range' i count).countP fun p => !gone p

/-- The children that stay, where the first child has place `i`. -/
def keep (gone : Nat → Bool) : List Node → Nat → List Node
  | [], _ => []
  | n :: ns, i => if gone i then keep gone ns (i + 1) else n :: keep gone ns (i + 1)

/-- An entry of a list with its new place, unless the child at its place is gone. -/
def entryWithout (gone : Nat → Bool) : Option Nat → Option (Option Nat)
  | none => some none
  | some p => if gone p then none else some (some (staying gone 0 p))

/-- The node without the children at the places that are gone. -/
def without (gone : Nat → Bool) : Node → Node
  | mk info children =>
    mk { info with fields := info.fields.map fun field =>
      (field.1, field.2.filterMap (entryWithout gone)) } (keep gone children 0)

/-- The node with other children in their places. -/
def mapChildren (edit : Nat → Node → Node) : Node → Node
  | mk info children => mk info (children.mapIdx edit)

@[simp] theorem kind_without (n : Node) : (n.without gone).kind = n.kind := by
  cases n
  rfl

@[simp] theorem kind_mapChildren (edit : Nat → Node → Node) (n : Node) :
    (n.mapChildren edit).kind = n.kind := by
  cases n
  rfl

theorem staying_succ (i count : Nat) :
    staying gone i (count + 1) = staying gone (i + 1) count + if gone i then 0 else 1 := by
  rw [staying, staying, List.range'_succ, List.countP_cons]
  cases gone i <;> rfl

/-- A child that stays is found at its new place. -/
theorem getElem?_keep (ns : List Node) (i p : Nat) (stays : gone (i + p) = false) :
    (keep gone ns i)[staying gone i p]? = ns[p]? := by
  induction ns generalizing i p with
  | nil => rfl
  | cons n ns ih =>
      rw [keep]
      cases p with
      | zero =>
          rw [if_neg (by simpa using stays)]
          rfl
      | succ p =>
          have rest := ih (i + 1) p (by rwa [Nat.add_assoc, Nat.add_comm 1])
          rw [staying_succ, List.getElem?_cons_succ, ← rest]
          cases gone i <;> rfl

theorem places?_without (n : Node) (key : String) :
    (n.without gone).places? key = (n.places? key).map (·.filterMap (entryWithout gone)) := by
  obtain ⟨info, children⟩ := n
  simp only [without, places?, Node.info, List.find?_map, Option.map_map]
  rfl

/-- **The lists of what is left** have the entries whose nodes stay, in order. -/
theorem list?_without (n : Node) (key : String) :
    (n.without gone).list? key = (n.places? key).map fun entries =>
      (entries.filter fun place => !place.any gone).map fun place =>
        place.bind (n.children[·]?) := by
  rw [list?, places?_without, Option.map_map]
  congr 1
  funext entries
  dsimp only [Function.comp]
  induction entries with
  | nil => rfl
  | cons place entries ih =>
      cases place with
      | none => exact congrArg (List.cons none) ih
      | some p =>
          rw [List.filterMap_cons, entryWithout, List.filter_cons]
          cases left : gone p with
          | true => simpa [left] using ih
          | false =>
              obtain ⟨info, children⟩ := n
              have there : (keep gone children 0)[staying gone 0 p]? = children[p]? :=
                getElem?_keep children 0 p (by rwa [Nat.zero_add])
              simpa [left] using ⟨there, ih⟩

theorem list?_mapChildren (edit : Nat → Node → Node) (n : Node) (key : String) :
    (n.mapChildren edit).list? key = (n.places? key).map fun entries =>
      entries.map fun place => place.bind fun p => (n.children[p]?).map (edit p) := by
  obtain ⟨info, ns⟩ := n
  simp only [list?, mapChildren, children, List.getElem?_mapIdx]
  rfl

end Node

end SolidityLint
