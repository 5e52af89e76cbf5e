import SolidityLint.Proofs.Ast.Plan

/-!
# Ast — the fields of a node

A node stores its children once, in document order, and its fields as places among them.  While a
node is assembled, nodes are known by the number under which they were found (`Gathered`); sorting
gives every number a place.

* `list?_assemble`: under each key a node has the nodes that its parts store there.
* `Settled`: the fields name different places, all of them places of children, and no key twice.
  Every assembled node is settled (`settled_assemble`).
* `perm_places_assemble`: they name every place if no part replaces what stands under its key.
-/

namespace SolidityLint

namespace Node

/-! ### Entries by key -/

section Entries

variable {α : Type} {entries : List (String × α)}

/-- What stands under a key. -/
def under? (key : String) (entries : List (String × α)) : Option α :=
  (entries.find? (·.1 == key)).map (·.2)

theorem under?_append (key : String) (front back : List (String × α)) :
    under? key (front ++ back) = (under? key front).or (under? key back) := by
  simp [under?, Option.map_or]

theorem under?_cons (key : String) (entry : String × α) :
    under? key (entry :: entries) = if entry.1 = key then some entry.2 else under? key entries := by
  by_cases own : entry.1 = key <;> simp [under?, own]

theorem under?_map {β : Type} (f : α → β) (key : String) :
    under? key (entries.map fun (k, value) => (k, f value)) = (under? key entries).map f := by
  simp only [under?, List.find?_map, Option.map_map]
  rfl

theorem under?_of_not_mem {key : String} (h : key ∉ entries.map (·.1)) :
    under? key entries = none := by
  rw [under?, Option.map_eq_none_iff, List.find?_eq_none]
  rintro entry there same
  exact h (beq_iff_eq.mp same ▸ List.mem_map_of_mem there)

theorem map_replace_of_not_mem {key : String} (h : key ∉ entries.map (·.1)) (value : α) :
    (entries.map fun e => if e.1 == key then (key, value) else e) = entries := by
  conv_rhs => rw [← List.map_id entries]
  refine List.map_congr_left fun entry there => if_neg fun same => ?_
  exact h (beq_iff_eq.mp same ▸ List.mem_map_of_mem there)

/-- **Setting a key** adds an entry, or replaces the one entry of the key. -/
theorem setKey_cases (once : (entries.map (·.1)).Nodup) (key : String) (value : α) :
    (key ∉ entries.map (·.1) ∧ setKey key value entries = entries ++ [(key, value)]) ∨
    ∃ front old back, entries = front ++ (key, old) :: back ∧ key ∉ front.map (·.1) ∧
      key ∉ back.map (·.1) ∧ setKey key value entries = front ++ (key, value) :: back := by
  by_cases there : key ∈ entries.map (·.1)
  · obtain ⟨⟨_, old⟩, hentry, rfl⟩ := List.mem_map.mp there
    obtain ⟨front, back, rfl⟩ := List.append_of_mem hentry
    rw [List.map_append, List.map_cons, List.nodup_middle, List.nodup_cons, List.mem_append,
      not_or] at once
    obtain ⟨⟨infront, behind⟩, -⟩ := once
    refine .inr ⟨front, old, back, rfl, infront, behind, ?_⟩
    rw [setKey, if_pos (by simp), List.map_append, List.map_cons, map_replace_of_not_mem infront,
      map_replace_of_not_mem behind, if_pos (beq_self_eq_true _)]
  · refine .inl ⟨there, ?_⟩
    rw [setKey, if_neg]
    simpa using there

theorem under?_setKey (once : (entries.map (·.1)).Nodup) (key k : String) (value : α) :
    under? k (setKey key value entries) = if key = k then some value else under? k entries := by
  rcases setKey_cases once key value with ⟨new, eq⟩ | ⟨front, old, back, rfl, infront, -, eq⟩
  · rw [eq, under?_append, under?_cons]
    split
    · rename_i same
      rw [under?_of_not_mem (same ▸ new), Option.none_or]
    · exact Option.or_none
  · rw [eq, under?_append, under?_append, under?_cons, under?_cons]
    split
    · rename_i same
      rw [under?_of_not_mem (same ▸ infront), Option.none_or]
    · rfl

theorem nodup_keys_setKey (once : (entries.map (·.1)).Nodup) (key : String) (value : α) :
    ((setKey key value entries).map (·.1)).Nodup := by
  rcases setKey_cases once key value with ⟨new, eq⟩ | ⟨front, old, back, rfl, -, -, eq⟩
  · rw [eq, List.map_append]
    exact once.append (List.nodup_singleton key) (by simpa using new)
  · rw [eq]
    simpa using once

theorem mem_keys_setKey (once : (entries.map (·.1)).Nodup) {key k : String} {value : α}
    (h : k ∈ (setKey key value entries).map (·.1)) : k = key ∨ k ∈ entries.map (·.1) := by
  rcases setKey_cases once key value with ⟨-, eq⟩ | ⟨front, old, back, rfl, -, -, eq⟩
  · rw [eq, List.map_append, List.mem_append] at h
    exact h.symm.imp_left List.mem_singleton.mp
  · rw [eq] at h
    exact .inr (by simpa using h)

end Entries

/-! ### Numbers -/

/-- The numbers that fields name, field by field. -/
def numbers (fields : List (String × List (Option Nat))) : List Nat :=
  (fields.flatMap (·.2)).reduceOption

/-- Setting a key exchanges the numbers under it. -/
theorem perm_numbers_setKey {fields : List (String × List (Option Nat))}
    (once : (fields.map (·.1)).Nodup) (key : String) (value : List (Option Nat)) :
    (numbers (setKey key value fields) ++ ((under? key fields).getD []).reduceOption).Perm
      (numbers fields ++ value.reduceOption) := by
  rcases setKey_cases once key value with ⟨new, eq⟩ | ⟨front, old, back, rfl, infront, -, eq⟩
  · rw [eq, under?_of_not_mem new]
    simp [numbers, List.reduceOption_append]
  · rw [eq, under?_append, under?_of_not_mem infront, under?_cons]
    simp only [if_true, Option.none_or, Option.getD_some, numbers, List.flatMap_append,
      List.flatMap_cons, List.reduceOption_append, List.append_assoc]
    refine List.Perm.append_left _ ?_
    rw [← List.append_assoc, ← List.append_assoc]
    refine List.perm_append_comm.trans ((List.perm_append_comm.append_left _).trans ?_)
    rw [List.append_assoc]

theorem mem_numbers {fields : List (String × List (Option Nat))} {key : String}
    {entries : List (Option Nat)} (h : under? key fields = some entries) {i : Nat}
    (hi : some i ∈ entries) : i ∈ numbers fields := by
  obtain ⟨entry, there, rfl⟩ := Option.map_eq_some_iff.mp h
  exact List.reduceOption_mem_iff.mpr
    (List.mem_flatMap.mpr ⟨entry, List.mem_of_find?_eq_some there, hi⟩)

theorem reduceOption_numberNodes (first : Nat) (ns : List (Option Node)) :
    (numberNodes first ns).reduceOption = List.range' first ns.reduceOption.length := by
  induction ns generalizing first with
  | nil => rfl
  | cons n ns ih =>
      cases n with
      | none => exact ih first
      | some n =>
          rw [numberNodes, List.reduceOption_cons_of_some, List.reduceOption_cons_of_some, ih]
          rfl

namespace Gathered

/-- The numbers given to the nodes of a part that is taken up. -/
def fresh (g : Gathered) (part : Part) : List Nat := List.range' g.nodes.length part.nodes.length

/-- The part is a field whose key has something under it already. -/
def Replaces (g : Gathered) (part : Part) : Prop :=
  ∃ key ns, part = .field key ns ∧ key ∈ g.fields.map (·.1)

theorem length_nodes_add (g : Gathered) (part : Part) :
    (g.add part).nodes.length = g.nodes.length + part.nodes.length := by
  cases part <;> simp [add, Part.nodes, Nat.add_comm]

/-- **One part** adds the numbers of its nodes, and loses what it replaces. -/
theorem perm_numbers_add {g : Gathered} (once : (g.fields.map (·.1)).Nodup) (part : Part) :
    ∃ lost, (numbers (g.add part).fields ++ lost).Perm (numbers g.fields ++ g.fresh part) ∧
      (¬ g.Replaces part → lost = []) := by
  cases part with
  | attr key value => exact ⟨[], by simp [add, fresh, Part.nodes], fun _ => rfl⟩
  | field key ns =>
      refine ⟨_, reduceOption_numberNodes g.nodes.length ns ▸ perm_numbers_setKey once key _,
        fun new => ?_⟩
      rw [under?_of_not_mem fun there => new ⟨key, ns, rfl, there⟩]
      rfl
  | hidden key n =>
      refine ⟨[], ?_, fun _ => rfl⟩
      -- What stood under the key is kept, so it goes on both sides.
      have exchange := perm_numbers_setKey once key
        (((under? key g.fields).getD []) ++ [some g.nodes.length])
      rw [List.reduceOption_append] at exchange
      have shifted : ∀ old : List Nat, (numbers g.fields ++ (old ++ [g.nodes.length])).Perm
          (numbers g.fields ++ [g.nodes.length] ++ old) := fun old => by
        rw [List.append_assoc]
        exact List.perm_append_comm.append_left _
      rw [List.append_nil]
      exact (List.perm_append_right_iff _).mp (exchange.trans (shifted _))

/-- The fields name different nodes that were found, and no key stands twice. -/
structure Sound (g : Gathered) : Prop where
  keys : (g.fields.map (·.1)).Nodup
  once : (numbers g.fields).Nodup
  bound : ∀ i ∈ numbers g.fields, i < g.nodes.length

theorem Sound.add {g : Gathered} (h : g.Sound) (part : Part) : (g.add part).Sound := by
  obtain ⟨lost, perm, -⟩ := perm_numbers_add h.keys part
  have within : ∀ i ∈ numbers (g.add part).fields, i ∈ numbers g.fields ++ g.fresh part :=
    fun i hi => perm.mem_iff.mp (List.mem_append_left lost hi)
  refine ⟨?_, ?_, fun i hi => ?_⟩
  · cases part with
    | attr key value => exact h.keys
    | field key ns => exact nodup_keys_setKey h.keys _ _
    | hidden key n => exact nodup_keys_setKey h.keys _ _
  · refine List.Nodup.of_append_left (perm.nodup_iff.mpr (h.once.append List.nodup_range' ?_))
    intro i hi new
    have := h.bound i hi
    have := (List.mem_range'_1.mp new).1
    omega
  · rw [length_nodes_add]
    rcases List.mem_append.mp (within i hi) with old | new
    · have := h.bound i old
      omega
    · exact (List.mem_range'_1.mp new).2

theorem sound_foldl (parts : List Part) {g : Gathered} (h : g.Sound) :
    (parts.foldl Gathered.add g).Sound := by
  induction parts generalizing g with
  | nil => exact h
  | cons part parts ih => exact ih (h.add part)

theorem sound_empty : ({} : Gathered).Sound :=
  ⟨List.nodup_nil, List.nodup_nil, fun _ h => absurd h List.not_mem_nil⟩

/-! What stands under a key, as nodes. -/

/-- The nodes that entries name. -/
def resolve (found : List Node) (entries : List (Option Nat)) : List (Option Node) :=
  entries.map fun entry => entry.bind (found[·]?)

/-- The nodes under a key. -/
def stored? (g : Gathered) (key : String) : Option (List (Option Node)) :=
  (under? key g.fields).map (resolve g.nodes.reverse)

theorem resolve_append {found : List Node} {entries : List (Option Nat)}
    (h : ∀ i, some i ∈ entries → i < found.length) (more : List Node) :
    resolve (found ++ more) entries = resolve found entries := by
  refine List.map_congr_left fun entry there => ?_
  cases entry with
  | none => rfl
  | some i => exact List.getElem?_append_left (h i there)

theorem resolve_numberNodes (found : List Node) (ns : List (Option Node)) :
    resolve (found ++ ns.reduceOption) (numberNodes found.length ns) = ns := by
  induction ns generalizing found with
  | nil => rfl
  | cons n ns ih =>
      cases n with
      | none => exact congrArg (none :: ·) (ih found)
      | some n =>
          have rest := ih (found ++ [n])
          rw [List.length_append, List.append_assoc] at rest
          rw [numberNodes, List.reduceOption_cons_of_some, resolve, List.map_cons]
          refine List.cons_eq_cons.mpr ⟨?_, rest⟩
          simp

end Gathered

/-- What a part leaves under a key, given what stood there. -/
def Part.store (key : String) (before : Option (List (Option Node))) :
    Part → Option (List (Option Node))
  | .attr _ _ => before
  | .field k ns => if k = key then some ns else before
  | .hidden k n => if k = key then some (before.getD [] ++ [some n]) else before

namespace Gathered

theorem stored?_add {g : Gathered} (h : g.Sound) (part : Part) (key : String) :
    (g.add part).stored? key = part.store key (g.stored? key) := by
  -- What stood under a key names the same nodes when more are found.
  have kept : ∀ more, (under? key g.fields).map (resolve (g.nodes.reverse ++ more)) =
      g.stored? key := by
    intro more
    cases there : under? key g.fields with
    | none => simp [stored?, there]
    | some entries =>
        rw [stored?, there, Option.map_some, Option.map_some, resolve_append fun i hi => ?_]
        rw [List.length_reverse]
        exact h.bound i (mem_numbers there hi)
  cases part with
  | attr k value => rfl
  | field k ns =>
      rw [stored?, Part.store]
      simp only [add]
      rw [under?_setKey h.keys, List.reverse_append, List.reverse_reverse]
      split
      · rw [Option.map_some, ← List.length_reverse]
        exact congrArg some (resolve_numberNodes g.nodes.reverse ns)
      · exact kept _
  | hidden k n =>
      rw [stored?, Part.store]
      simp only [add]
      rw [under?_setKey h.keys, List.reverse_cons]
      split
      · rename_i same
        subst same
        have last : resolve (g.nodes.reverse ++ [n]) [some g.nodes.length] = [some n] := by
          simp [resolve]
        change some (resolve _ ((under? k g.fields).getD [] ++ _)) = _
        rw [← kept [n], resolve, List.map_append, ← resolve, ← resolve, last]
        cases under? k g.fields <;> rfl
      · exact kept _

theorem stored?_foldl (parts : List Part) {g : Gathered} (h : g.Sound) (key : String) :
    (parts.foldl Gathered.add g).stored? key = parts.foldl (Part.store key) (g.stored? key) := by
  induction parts generalizing g with
  | nil => rfl
  | cons part parts ih => rw [List.foldl_cons, ih (h.add part), stored?_add h, List.foldl_cons]

/-- **All parts**: nothing is lost when no field replaces what stands under its key. -/
theorem perm_numbers_foldl {parts : List Part} {g : Gathered} (h : g.Sound)
    (full : (numbers g.fields).Perm (List.range g.nodes.length))
    (fits : ∀ before part after, parts = before ++ part :: after →
      ¬ (before.foldl Gathered.add g).Replaces part) :
    (numbers (parts.foldl Gathered.add g).fields).Perm
      (List.range (parts.foldl Gathered.add g).nodes.length) := by
  induction parts generalizing g with
  | nil => exact full
  | cons part parts ih =>
      refine ih (h.add part) ?_ fun before next after eq =>
        fits (part :: before) next after (congrArg (part :: ·) eq)
      obtain ⟨lost, perm, kept⟩ := perm_numbers_add h.keys part
      rw [kept (fits [] part parts rfl), List.append_nil] at perm
      rw [length_nodes_add, List.range_add, ← List.range'_eq_map_range]
      exact perm.trans (full.append_right _)

end Gathered

/-! ### Places -/

section Places

/-- The nodes found, with their numbers, in document order. -/
def numbered (nodes : List Node) : List (Nat × Node) :=
  inOrder (nodes.zipIdx.map fun (n, i) => (i, n))

/-- The place of the node with a number. -/
def placeOf (nodes : List Node) (i : Nat) : Nat := ((numbered nodes).findIdx? (·.1 == i)).getD 0

theorem perm_numbered (nodes : List Node) :
    (numbered nodes).Perm (nodes.zipIdx.map fun (n, i) => (i, n)) :=
  perm_inOrder _

theorem length_numbered (nodes : List Node) : (numbered nodes).length = nodes.length := by
  rw [(perm_numbered nodes).length_eq, List.length_map, List.length_zipIdx]

variable {nodes : List Node}

/-- The node with a number stands at its place. -/
theorem getElem?_placeOf {i : Nat} (h : i < nodes.length) :
    (numbered nodes)[placeOf nodes i]? = nodes[i]?.map (i, ·) := by
  have mem_iff : ∀ x, x ∈ numbered nodes ↔ nodes[x.1]? = some x.2 := by
    intro x
    rw [(perm_numbered nodes).mem_iff, ← List.mk_mem_zipIdx_iff_getElem?]
    simp [Prod.ext_iff]
  have there : ∃ x ∈ numbered nodes, (x.1 == i) = true :=
    ⟨(i, nodes[i]), (mem_iff _).mpr (List.getElem?_eq_getElem h), beq_self_eq_true i⟩
  have found := List.findIdx?_eq_some_of_exists there
  have eq : placeOf nodes i = _ := congrArg (·.getD 0) found
  obtain ⟨bound, own, -⟩ := List.findIdx?_eq_some_iff_getElem.mp found
  have entry := (mem_iff _).mp (List.getElem_mem bound)
  rw [beq_iff_eq.mp own] at entry
  rw [eq, Option.getD_some, List.getElem?_eq_getElem bound, entry, Option.map_some]
  exact congrArg some (Prod.ext (beq_iff_eq.mp own) rfl)

theorem placeOf_lt {i : Nat} (h : i < nodes.length) : placeOf nodes i < nodes.length := by
  have there := getElem?_placeOf h
  rw [List.getElem?_eq_getElem h, Option.map_some] at there
  exact length_numbered nodes ▸ (List.getElem?_eq_some_iff.mp there).1

theorem placeOf_inj {i j : Nat} (hi : i < nodes.length) (hj : j < nodes.length)
    (same : placeOf nodes i = placeOf nodes j) : i = j := by
  have first := getElem?_placeOf hi
  have second := getElem?_placeOf hj
  rw [List.getElem?_eq_getElem hi] at first
  rw [List.getElem?_eq_getElem hj, ← same, first] at second
  exact congrArg Prod.fst (Option.some.inj second)

end Places

/-! ### Assembled nodes -/

/-- The fields name different places, all of them places of children, and no key stands twice. -/
structure Settled (n : Node) : Prop where
  keys : (n.info.fields.map (·.1)).Nodup
  once : (numbers n.info.fields).Nodup
  bound : ∀ i ∈ numbers n.info.fields, i < n.children.length

section Assembly

variable (id : Int64) (kind : NodeKind) (src : Span) (parts : List Part)

/-- The parts of a node, taken up one after the other. -/
def gathered : Gathered := parts.foldl Gathered.add {}

theorem sound_gathered : (gathered parts).Sound := Gathered.sound_foldl parts Gathered.sound_empty

theorem fields_assemble : (assemble id kind src parts).info.fields =
    (gathered parts).fields.map fun (key, entries) =>
      (key, entries.map (·.map (placeOf (gathered parts).nodes.reverse))) := rfl

theorem children_assemble : (assemble id kind src parts).children =
    (numbered (gathered parts).nodes.reverse).map (·.2) := rfl

theorem length_children_assemble :
    (assemble id kind src parts).children.length = (gathered parts).nodes.length := by
  rw [children_assemble, List.length_map, length_numbered, List.length_reverse]

theorem numbers_assemble : numbers (assemble id kind src parts).info.fields =
    (numbers (gathered parts).fields).map (placeOf (gathered parts).nodes.reverse) := by
  rw [fields_assemble, numbers, numbers, List.flatMap_map, ← List.reduceOption_map,
    List.map_flatMap]

theorem getElem?_children_assemble {i : Nat} (h : i < (gathered parts).nodes.length) :
    (assemble id kind src parts).children[placeOf (gathered parts).nodes.reverse i]? =
      (gathered parts).nodes.reverse[i]? := by
  rw [children_assemble, List.getElem?_map, getElem?_placeOf (by rwa [List.length_reverse]),
    Option.map_map]
  exact Option.map_id'

/-- **Under each key** a node has the nodes that its parts store there. -/
theorem list?_assemble (key : String) :
    (assemble id kind src parts).list? key = parts.foldl (Part.store key) none := by
  refine Eq.trans ?_ (Gathered.stored?_foldl parts Gathered.sound_empty key)
  change (under? key (assemble id kind src parts).info.fields).map (Gathered.resolve _) =
    (under? key (gathered parts).fields).map _
  rw [fields_assemble, under?_map, Option.map_map]
  refine Option.map_congr fun entries there => ?_
  rw [Function.comp_apply, Gathered.resolve, Gathered.resolve, List.map_map]
  refine List.map_congr_left fun entry hentry => ?_
  cases entry with
  | none => rfl
  | some i =>
      exact getElem?_children_assemble id kind src parts
        ((sound_gathered parts).bound i (mem_numbers there hentry))

theorem settled_assemble : (assemble id kind src parts).Settled := by
  have sound := sound_gathered parts
  refine ⟨?_, ?_, fun i hi => ?_⟩
  · simpa [fields_assemble, Function.comp_def] using sound.keys
  · rw [numbers_assemble]
    refine sound.once.map_on fun i hi j hj same => placeOf_inj ?_ ?_ same
    · simpa using sound.bound i hi
    · simpa using sound.bound j hj
  · rw [numbers_assemble] at hi
    obtain ⟨j, hj, rfl⟩ := List.mem_map.mp hi
    rw [length_children_assemble, ← List.length_reverse]
    exact placeOf_lt (by simpa using sound.bound j hj)

/-- **Every child has its field** when no field replaces what stands under its key. -/
theorem perm_places_assemble
    (fits : ∀ before part after, parts = before ++ part :: after →
      ¬ (gathered before).Replaces part) :
    (numbers (assemble id kind src parts).info.fields).Perm
      (List.range (assemble id kind src parts).children.length) := by
  have settled := settled_assemble id kind src parts
  have full : (numbers (gathered parts).fields).Perm (List.range (gathered parts).nodes.length) :=
    Gathered.perm_numbers_foldl Gathered.sound_empty (.refl _) fits
  -- Different places below the number of children, and as many as there are children.
  have places := settled.once.subperm fun i hi => List.mem_range.mpr (settled.bound i hi)
  refine places.perm_of_length_le ?_
  rw [numbers_assemble, List.length_map, full.length_eq, List.length_range, List.length_range,
    length_children_assemble]

end Assembly

/-! ### Keys without dots -/

/-- The key under which the part stores nodes. -/
def Part.key? : Part → Option String
  | .attr _ _ => none
  | .field key _ | .hidden key _ => some key

/-- The key under which the slot asks for nodes. -/
def Slot.key? : Slot → Option String
  | .attr _ _ => none
  | .field key _ | .hidden key _ => some key

theorem exists_of_mem_keys_foldl {parts : List Part} {g : Gathered} (h : g.Sound) {key : String}
    (hkey : key ∈ (parts.foldl Gathered.add g).fields.map (·.1)) :
    key ∈ g.fields.map (·.1) ∨ ∃ part ∈ parts, part.key? = some key := by
  induction parts generalizing g with
  | nil => exact .inl hkey
  | cons part parts ih =>
      rcases ih (h.add part) hkey with there | ⟨later, hlater, own⟩
      · have : key ∈ g.fields.map (·.1) ∨ part.key? = some key := by
          cases part with
          | attr k value => exact .inl there
          | field k ns | hidden k _ =>
              exact (mem_keys_setKey h.keys there).symm.imp_right fun same => congrArg some same.symm
        exact this.imp_right fun own => ⟨part, List.mem_cons_self, own⟩
      · exact .inr ⟨later, List.mem_cons_of_mem part hlater, own⟩

/-- The second slot is a field under the key of the first. -/
def Slot.Overridden (first second : Slot) : Prop :=
  ∃ key values, second = .field key values ∧ first.key? = some key

/-- Keys that stand once and have no dot are overridden by none. -/
theorem pairwise_slots {members : List (String × Json)} (once : (members.map (·.1)).Nodup)
    (dotless : ∀ member ∈ members, '.' ∉ member.1.toList) :
    (slots members).Pairwise fun s t => ¬ s.Overridden t := by
  refine List.pairwise_flatMap.mpr ⟨fun member hm => ?_, ?_⟩
  · rcases slotsOf_cases member with ⟨values, eq, -⟩ | ⟨hidden, eq, inside⟩
    · rw [eq]
      exact List.pairwise_singleton _ _
    · -- Only the first slot is no hidden one, and it is no field either.
      rw [eq]
      have none : ∀ t ∈ hidden, ∀ s : Slot, ¬ s.Overridden t := by
        rintro t ht s ⟨key, values, rfl, -⟩
        obtain ⟨_, _, same, -⟩ := inside _ ht
        cases same
      exact .cons (fun t ht => none t ht _)
        (List.pairwise_of_forall_mem_list fun s _ t ht => none t ht s)
  · have apart : (ownless members).Pairwise fun a b => a.1 ≠ b.1 :=
      (List.pairwise_map.mp once).filter _
    refine apart.imp_of_mem fun {a b} ha hb differ s hs t ht => ?_
    rintro ⟨key, values, rfl, own⟩
    have later : b.1 = key := by
      rcases slotsOf_cases b with ⟨_, eq, -⟩ | ⟨hidden, eq, inside⟩
      · rw [eq, List.mem_singleton] at ht
        exact (Slot.field.inj ht).1.symm
      · rw [eq, List.mem_cons] at ht
        rcases ht with same | ht
        · cases same
        · obtain ⟨_, _, same, -⟩ := inside _ ht
          cases same
    rcases slotsOf_cases a with ⟨_, eq, -⟩ | ⟨hidden, eq, inside⟩
    · rw [eq, List.mem_singleton] at hs
      subst hs
      exact differ (Option.some.inj own |>.trans later.symm)
    · rw [eq, List.mem_cons] at hs
      rcases hs with rfl | hs
      · cases own
      · obtain ⟨_, _, rfl, dotted, -⟩ := inside _ hs
        obtain rfl := Option.some.inj own
        exact dotless b (List.mem_filter.mp hb).1 (later ▸ dotted)

theorem key?_of_build {slot : Slot} {part : Part} (h : slot.build = .ok part) :
    part.key? = slot.key? ∧ ∀ key ns, part = .field key ns → ∃ values, slot = .field key values := by
  cases slot with
  | attr key value =>
      obtain rfl := Except.ok.inj h
      exact ⟨rfl, fun _ _ same => by cases same⟩
  | field key values =>
      obtain ⟨ns, -, rfl⟩ := map_eq_ok.mp h
      exact ⟨rfl, fun _ _ same => ⟨values, (Part.field.inj same).1 ▸ rfl⟩⟩
  | hidden key value =>
      obtain ⟨n, -, rfl⟩ := map_eq_ok.mp h
      exact ⟨rfl, fun _ _ same => by cases same⟩

theorem exists_of_mem_built {slots : List Slot} {parts : List Part}
    (built : List.Forall₂ (fun slot part => slot.build = .ok part) slots parts) {part : Part}
    (h : part ∈ parts) : ∃ slot ∈ slots, slot.build = .ok part := by
  induction built with
  | nil => exact absurd h List.not_mem_nil
  | cons hpart _ ih =>
      rcases List.mem_cons.mp h with rfl | h
      · exact ⟨_, List.mem_cons_self, hpart⟩
      · obtain ⟨slot, there, hslot⟩ := ih h
        exact ⟨slot, List.mem_cons_of_mem _ there, hslot⟩

theorem pairwise_parts {slots : List Slot} {parts : List Part}
    (built : List.Forall₂ (fun slot part => slot.build = .ok part) slots parts)
    (apart : slots.Pairwise fun s t => ¬ s.Overridden t) :
    parts.Pairwise fun p q => ∀ key ns, q = .field key ns → p.key? ≠ some key := by
  induction built with
  | nil => exact .nil
  | @cons slot part slots parts hpart hparts ih =>
      obtain ⟨first, rest⟩ := List.pairwise_cons.mp apart
      refine .cons (fun q hq key ns field own => ?_) (ih rest)
      obtain ⟨t, ht, hq⟩ := exists_of_mem_built hparts hq
      obtain ⟨values, rfl⟩ := (key?_of_build hq).2 key ns field
      exact first _ ht ⟨key, values, rfl, (key?_of_build hpart).1 ▸ own⟩

/-- No part of a node replaces anything if the keys stand once and have no dot. -/
theorem not_replaces_of_dotless {members : List (String × Json)}
    (once : (members.map (·.1)).Nodup) (dotless : ∀ member ∈ members, '.' ∉ member.1.toList)
    {parts : List Part} (built : (slots members).mapM Slot.build = .ok parts)
    {before after : List Part} {part : Part} (eq : parts = before ++ part :: after) :
    ¬ (gathered before).Replaces part := by
  rintro ⟨key, ns, rfl, there⟩
  have apart := pairwise_parts (mapM_eq_ok.mp built) (pairwise_slots once dotless)
  rw [eq, List.pairwise_append] at apart
  rcases exists_of_mem_keys_foldl Gathered.sound_empty there with none | ⟨early, hearly, own⟩
  · exact absurd none List.not_mem_nil
  · exact apart.2.2 early hearly _ List.mem_cons_self key ns rfl own

end Node

end SolidityLint
