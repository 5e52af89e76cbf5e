import SolidityLint.Json.Printer
import SolidityLint.Proofs.Json.SortedKeys

/-!
# Json — canonical values

`Json.Under` says that a value stands inside another.  In a canonical value every object has each
of its keys once, at any depth (`keysOnce_canonical`), and so has every value inside it.  A value
whose objects have their keys in order, each once, is canonical (`canonical_of_keysAscend`).
-/

namespace SolidityLint

namespace Json

/-- The first value stands inside the second, at any depth. -/
inductive Under : Json → Json → Prop where
  | item {v : Json} {items : List Json} (h : v ∈ items) : Under v (.arr items)
  | member {key : String} {v : Json} {members : List (String × Json)} (h : (key, v) ∈ members) :
      Under v (.obj members)
  | trans {u v w : Json} (h : Under u v) (h' : Under v w) : Under u w

theorem Under.sizeOf_lt {v w : Json} (h : Under v w) : sizeOf v < sizeOf w := by
  induction h with
  | item h =>
      have := List.sizeOf_lt_of_mem h
      simp only [Json.arr.sizeOf_spec]
      omega
  | member h =>
      have := List.sizeOf_lt_of_mem h
      simp only [Prod.mk.sizeOf_spec] at this
      simp only [Json.obj.sizeOf_spec]
      omega
  | trans _ _ ih ih' => omega

/-- The value is the other or stands inside it. -/
def Within (v w : Json) : Prop := v = w ∨ v.Under w

theorem Under.within {u v w : Json} (h : Within u v) (h' : Under v w) : Under u w := by
  rcases h with rfl | h
  · exact h'
  · exact h.trans h'

/-- What stands inside a value stands inside one of its items or members. -/
theorem Under.uncons {u w : Json} (h : Under u w) :
    (∃ items, w = .arr items ∧ ∃ v ∈ items, Within u v) ∨
    ∃ members, w = .obj members ∧ ∃ member ∈ members, Within u member.2 := by
  induction h with
  | @item v items h => exact .inl ⟨items, rfl, v, h, .inl rfl⟩
  | @member key v members h => exact .inr ⟨members, rfl, (key, v), h, .inl rfl⟩
  | trans h _ _ ih =>
      rcases ih with ⟨items, rfl, v, hv, inside⟩ | ⟨members, rfl, member, hm, inside⟩
      · exact .inl ⟨items, rfl, v, hv, .inr (inside.elim (· ▸ h) h.trans)⟩
      · exact .inr ⟨members, rfl, member, hm, .inr (inside.elim (· ▸ h) h.trans)⟩

/-- Every object of the value has each of its keys once. -/
def KeysOnce (v : Json) : Prop :=
  ∀ members, Within (.obj members) v → (members.map (·.1)).Nodup

theorem KeysOnce.within {v w : Json} (h : KeysOnce w) (inside : Within v w) : KeysOnce v := by
  intro members hm
  refine h members ?_
  rcases inside with rfl | inside
  · exact hm
  · exact .inr (inside.within hm)

theorem canonicalItems_eq (items : List Json) : canonicalItems items = items.map canonical := by
  induction items with
  | nil => rw [canonicalItems]; rfl
  | cons v vs ih => rw [canonicalItems, ih, List.map_cons]

theorem canonicalMembers_eq (members : List (String × Json)) :
    canonicalMembers members = members.map fun m => (m.1, m.2.canonical) := by
  induction members with
  | nil => rw [canonicalMembers]; rfl
  | cons m ms ih => rw [canonicalMembers, ih, List.map_cons]

/-- **Canonical values** have every key of an object once. -/
theorem keysOnce_canonical (v : Json) : v.canonical.KeysOnce := by
  match v with
  | .arr items =>
      rw [canonical]
      rintro members (same | inside)
      · cases same
      · rcases inside.uncons with ⟨_, same, w, hw, inside⟩ | ⟨_, same, -⟩
        · rw [← Json.arr.inj same, canonicalItems_eq] at hw
          obtain ⟨item, hitem, rfl⟩ := List.mem_map.mp hw
          exact keysOnce_canonical item members inside
        · cases same
  | .obj entries =>
      rw [canonical]
      rintro members (same | inside)
      · rw [Json.obj.inj same]
        exact (sorted_keys (canonicalMembers entries)).imp
          fun {a b} (below : a < b) (same : a = b) => String.lt_irrefl b (same ▸ below)
      · rcases inside.uncons with ⟨_, same, -⟩ | ⟨_, same, member, hm, inside⟩
        · cases same
        · rw [← Json.obj.inj same] at hm
          have hm := mem_sortByKey.mp (mem_of_mem_lastOfRun hm)
          rw [canonicalMembers_eq] at hm
          obtain ⟨entry, hentry, rfl⟩ := List.mem_map.mp hm
          exact keysOnce_canonical entry.2 members inside
  | .null | .bool _ | .num _ | .str _ =>
      rintro members (same | inside)
      · cases same
      · rcases inside.uncons with ⟨_, same, -⟩ | ⟨_, same, -⟩ <;> cases same
termination_by sizeOf v
decreasing_by
  · exact (Under.item hitem).sizeOf_lt
  · have inside : Under entry.2 (.obj entries) := .member hentry
    exact inside.sizeOf_lt

/-! ### Values that are canonical -/

mutual

/-- Every object of the value has its keys in order, each once. -/
def keysAscend : Json → Bool
  | .arr items => itemsAscend items
  | .obj members => decide ((members.map (·.1)).Pairwise (· < ·)) && membersAscend members
  | _ => true

/-- So it is in every item. -/
def itemsAscend : List Json → Bool
  | [] => true
  | v :: vs => keysAscend v && itemsAscend vs

/-- So it is in the value of every member. -/
def membersAscend : List (String × Json) → Bool
  | [] => true
  | (_, v) :: ms => keysAscend v && membersAscend ms

end

mutual

/-- **Keys in order** make a value canonical: there is nothing to sort and nothing to drop. -/
theorem canonical_of_keysAscend : ∀ {v : Json}, v.keysAscend = true → v.canonical = v
  | .null, _ | .bool _, _ | .num _, _ | .str _, _ => by rw [canonical] <;> simp
  | .arr items, h => by rw [canonical, canonicalItems_of_itemsAscend h]
  | .obj members, h => by
      rw [keysAscend, Bool.and_eq_true, decide_eq_true_eq] at h
      have ascend : members.Pairwise fun a b => a.1 < b.1 := List.pairwise_map.mp h.1
      have once : (members.map (·.1)).Nodup :=
        h.1.imp fun {a b} (below : a < b) (same : a = b) => String.lt_irrefl b (same ▸ below)
      rw [canonical, canonicalMembers_of_membersAscend h.2, sorted,
        sortByKey_of_pairwise (ascend.imp fun below => String.not_lt.mp (String.lt_asymm below)),
        lastOfRun_of_nodup once]

theorem canonicalItems_of_itemsAscend :
    ∀ {items : List Json}, itemsAscend items = true → canonicalItems items = items
  | [], _ => rfl
  | v :: vs, h => by
      obtain ⟨first, others⟩ := (Bool.and_eq_true _ _).mp h
      rw [canonicalItems, canonical_of_keysAscend first, canonicalItems_of_itemsAscend others]

theorem canonicalMembers_of_membersAscend : ∀ {members : List (String × Json)},
    membersAscend members = true → canonicalMembers members = members
  | [], _ => rfl
  | (k, v) :: ms, h => by
      obtain ⟨first, others⟩ := (Bool.and_eq_true _ _).mp h
      rw [canonicalMembers, canonical_of_keysAscend first, canonicalMembers_of_membersAscend others]

end

end Json

end SolidityLint
