import SolidityLint.Proofs.Ast.Coverage
import SolidityLint.Proofs.Json.Canonical

/-!
# Ast — what decoding builds

What an object contributes to a tree can be told before anything is built: `slots` lists its
attributes, fields and hidden nodes, with the values that declare nodes in place of the nodes
(`Slot`).  Decoding builds those values in order (`build_obj`), and so on below them: `reached`
lists every value that is built.

* `accounts_reached`: the nodes of a tree are those of the values reached, one to one.
* `exists_build_iff`: there is a tree exactly when every value reached has a span in its `src`.
-/

namespace SolidityLint

namespace Node

/-! ### Slots -/

/-- What a member of a node contributes, with the values that declare nodes instead of these. -/
inductive Slot where
  | attr (key : String) (value : Json)
  | field (key : String) (values : List (Option Json))
  | hidden (key : String) (value : Json)

/-- The values that declare nodes. -/
def Slot.values : Slot → List Json
  | .attr _ _ => []
  | .field _ values => values.reduceOption
  | .hidden _ value => [value]

/-- The node of a value, unless the value was left out. -/
def buildEntry : Option Json → Except DecodeError (Option Node)
  | none => pure none
  | some value => some <$> build value

/-- Builds the nodes of a slot. -/
def Slot.build : Slot → Except DecodeError Part
  | .attr key value => pure (.attr key value)
  | .field key values => .field key <$> values.mapM buildEntry
  | .hidden key value => .hidden key <$> Node.build value

mutual

/-- The slots of the nodes inside a value that is no node itself. -/
def hiddenSlots (path : String) : Json → List Slot
  | .obj members => hiddenSlotsOfMembers path members
  | .arr items => hiddenSlotsOfItems path items
  | _ => []

/-- Member by member. -/
def hiddenSlotsOfMembers (path : String) : List (String × Json) → List Slot
  | [] => []
  | (key, value) :: rest =>
    (if isNodeValue value then [.hidden (path ++ "." ++ key) value]
      else hiddenSlots (path ++ "." ++ key) value) ++ hiddenSlotsOfMembers path rest

/-- Item by item. -/
def hiddenSlotsOfItems (path : String) : List Json → List Slot
  | [] => []
  | value :: rest => hiddenSlots path value ++ hiddenSlotsOfItems path rest

end

/-- The entry of a list of nodes and nulls. -/
def entryOf (value : Json) : Option Json := if value.isNull then none else some value

/-- The slots of one member. -/
def slotsOf (member : String × Json) : List Slot :=
  if isNodeValue member.2 then [.field member.1 [some member.2]]
  else match member.2 with
    | .arr items =>
      if isNodeList items then [.field member.1 (items.map entryOf)]
      else .attr member.1 (.arr items) :: hiddenSlotsOfItems member.1 items
    | .obj members => .attr member.1 (.obj members) :: hiddenSlotsOfMembers member.1 members
    | value => [.attr member.1 value]

/-- The members that do not make the node itself. -/
def ownless (members : List (String × Json)) : List (String × Json) :=
  members.filter fun member => !isOwnKey member.1

/-- The slots of the members of a node. -/
def slots (members : List (String × Json)) : List Slot := (ownless members).flatMap slotsOf

/-! ### Decoding by slots -/

section Slots

theorem mapM_build_append {slots slots' : List Slot} :
    (slots ++ slots').mapM Slot.build = (do
      let here ← slots.mapM Slot.build
      let others ← slots'.mapM Slot.build
      return here ++ others) := List.mapM_append

mutual

theorem hiddenIn_eq (path : String) (v : Json) :
    hiddenIn path v = (hiddenSlots path v).mapM Slot.build := by
  match v with
  | .obj members => rw [hiddenIn, hiddenSlots, hiddenMembers_eq path members]
  | .arr items => rw [hiddenIn, hiddenSlots, hiddenItems_eq path items]
  | .null | .bool _ | .num _ | .str _ => rfl
termination_by sizeOf v

theorem hiddenMembers_eq (path : String) (members : List (String × Json)) :
    hiddenMembers path members = (hiddenSlotsOfMembers path members).mapM Slot.build := by
  match members with
  | [] => rw [hiddenMembers, hiddenSlotsOfMembers]; rfl
  | (key, value) :: rest =>
      rw [hiddenMembers, hiddenSlotsOfMembers, mapM_build_append, hiddenMembers_eq path rest]
      by_cases hv : isNodeValue value
      · simp [hv, Slot.build]
      · simp [hv, hiddenIn_eq (path ++ "." ++ key) value]
termination_by sizeOf members

theorem hiddenItems_eq (path : String) (items : List Json) :
    hiddenItems path items = (hiddenSlotsOfItems path items).mapM Slot.build := by
  match items with
  | [] => rw [hiddenItems, hiddenSlotsOfItems]; rfl
  | value :: rest =>
      rw [hiddenItems, hiddenSlotsOfItems, mapM_build_append, hiddenIn_eq path value,
        hiddenItems_eq path rest]
termination_by sizeOf items

end

theorem buildItems_eq (items : List Json) :
    buildItems items = (items.map entryOf).mapM buildEntry := by
  induction items with
  | nil => rw [buildItems]; rfl
  | cons value rest ih =>
      rw [buildItems.eq_def, List.map_cons, List.mapM_cons, ← ih]
      cases value <;> rfl

theorem valueParts_eq (key : String) (value : Json) :
    valueParts key value = (slotsOf (key, value)).mapM Slot.build := by
  rw [valueParts.eq_def, slotsOf]
  by_cases hv : isNodeValue value
  · simp [hv, Slot.build, buildEntry]
  · cases value with
    | arr items =>
        by_cases list : isNodeList items
        · simp [hv, list, Slot.build, buildItems_eq]
        · simp [hv, list, Slot.build, hiddenItems_eq]
    | obj members => simp [hv, Slot.build, hiddenMembers_eq]
    | null | bool | num | str => simp [hv, Slot.build]

theorem memberParts_eq (members : List (String × Json)) :
    memberParts members = (slots members).mapM Slot.build := by
  induction members with
  | nil => rw [memberParts]; rfl
  | cons member rest ih =>
      obtain ⟨key, value⟩ := member
      by_cases own : isOwnKey key
      · rw [memberParts, if_pos own, ih]
        simp [slots, ownless, own]
      · rw [memberParts_cons own, valueParts_eq, ih]
        simp [slots, ownless, own]

/-- **Decoding an object** builds what its slots ask for. -/
theorem build_obj (members : List (String × Json)) :
    build (.obj members) = (do
      let (kind, id, src) ← header members
      let parts ← (slots members).mapM Slot.build
      return assemble id kind src parts) := by
  rw [build, memberParts_eq]

end Slots

/-! ### The values that are built -/

/-- The values that are built directly below a value. -/
def inner : Json → List Json
  | .obj members => (slots members).flatMap Slot.values
  | _ => []

/-- The slot is of a node inside a value, under a dotted key. -/
def Slot.HiddenIn (slot : Slot) (v : Json) : Prop :=
  ∃ key w, slot = .hidden key w ∧ '.' ∈ key.toList ∧ isNodeValue w ∧ w.Under v

theorem Slot.HiddenIn.trans {slot : Slot} {v v' : Json} (h : slot.HiddenIn v) (below : v.Under v') :
    slot.HiddenIn v' := by
  obtain ⟨key, w, eq, dotted, hw, inside⟩ := h
  exact ⟨key, w, eq, dotted, hw, inside.trans below⟩

mutual

theorem hiddenIn_of_mem_hiddenSlots {path : String} {v : Json} {slot : Slot}
    (h : slot ∈ hiddenSlots path v) : slot.HiddenIn v := by
  match v with
  | .obj members =>
      rw [hiddenSlots] at h
      exact hiddenIn_of_mem_members h fun _ hm => hm
  | .arr items =>
      rw [hiddenSlots] at h
      exact hiddenIn_of_mem_items h fun _ hi => hi
  | .null | .bool _ | .num _ | .str _ => exact absurd h List.not_mem_nil
termination_by sizeOf v

theorem hiddenIn_of_mem_members {path : String} {members all : List (String × Json)} {slot : Slot}
    (h : slot ∈ hiddenSlotsOfMembers path members) (part : members ⊆ all) :
    slot.HiddenIn (.obj all) := by
  match members with
  | [] => rw [hiddenSlotsOfMembers] at h; exact absurd h List.not_mem_nil
  | (key, value) :: rest =>
      rw [hiddenSlotsOfMembers, List.mem_append] at h
      have there : Json.Under value (.obj all) := .member (part List.mem_cons_self)
      rcases h with here | h
      · by_cases hv : isNodeValue value
        · rw [if_pos hv, List.mem_singleton] at here
          exact ⟨_, value, here, by simp, hv, there⟩
        · rw [if_neg hv] at here
          exact (hiddenIn_of_mem_hiddenSlots here).trans there
      · exact hiddenIn_of_mem_members h fun _ hm => part (List.mem_cons_of_mem _ hm)
termination_by sizeOf members

theorem hiddenIn_of_mem_items {path : String} {items all : List Json} {slot : Slot}
    (h : slot ∈ hiddenSlotsOfItems path items) (part : items ⊆ all) :
    slot.HiddenIn (.arr all) := by
  match items with
  | [] => rw [hiddenSlotsOfItems] at h; exact absurd h List.not_mem_nil
  | value :: rest =>
      rw [hiddenSlotsOfItems, List.mem_append] at h
      rcases h with here | h
      · exact (hiddenIn_of_mem_hiddenSlots here).trans (.item (part List.mem_cons_self))
      · exact hiddenIn_of_mem_items h fun _ hi => part (List.mem_cons_of_mem value hi)
termination_by sizeOf items

end

/-- **What a member contributes**: one field of nodes that stand at the member, or an attribute and
nodes hidden in it. -/
theorem slotsOf_cases (member : String × Json) :
    (∃ values, slotsOf member = [.field member.1 values] ∧ ∀ w ∈ values.reduceOption,
      isNodeValue w ∧ w.Within member.2) ∨
    (∃ hidden, slotsOf member = .attr member.1 member.2 :: hidden ∧
      ∀ slot ∈ hidden, slot.HiddenIn member.2) := by
  obtain ⟨key, value⟩ := member
  rw [slotsOf]
  by_cases hv : isNodeValue value
  · refine .inl ⟨[some value], if_pos hv, ?_⟩
    simpa [List.reduceOption, Json.Within] using hv
  · rw [if_neg hv]
    cases value with
    | arr items =>
        by_cases list : isNodeList items
        · refine .inl ⟨items.map entryOf, if_pos list, fun w hw => ?_⟩
          obtain ⟨item, hi, eq⟩ := List.mem_map.mp (List.reduceOption_mem_iff.mp hw)
          rw [entryOf] at eq
          split at eq
          · cases eq
          · rename_i present
            obtain rfl := Option.some.inj eq
            exact ⟨(forall_of_isNodeList list item hi).resolve_left present, .inr (.item hi)⟩
        · refine .inr ⟨hiddenSlotsOfItems key items, if_neg list, fun slot h => ?_⟩
          exact hiddenIn_of_mem_items h fun _ hi => hi
    | obj members =>
        refine .inr ⟨hiddenSlotsOfMembers key members, rfl, fun slot h => ?_⟩
        exact hiddenIn_of_mem_members h fun _ hm => hm
    | null | bool | num | str =>
        exact .inr ⟨[], rfl, fun _ h => absurd h List.not_mem_nil⟩

theorem under_of_mem_slotsOf {member : String × Json} {slot : Slot} {w : Json}
    (h : slot ∈ slotsOf member) (hw : w ∈ slot.values) :
    isNodeValue w ∧ w.Within member.2 := by
  rcases slotsOf_cases member with ⟨values, eq, nodes⟩ | ⟨hidden, eq, nodes⟩
  · rw [eq, List.mem_singleton] at h
    subst h
    exact nodes w hw
  · rw [eq, List.mem_cons] at h
    rcases h with rfl | h
    · exact absurd hw List.not_mem_nil
    · obtain ⟨key, v, rfl, -, hv, below⟩ := nodes slot h
      obtain rfl := List.mem_singleton.mp hw
      exact ⟨hv, .inr below⟩

/-- What is built below a value declares a node and stands inside the value. -/
theorem under_of_mem_inner {v w : Json} (h : w ∈ inner v) : isNodeValue w ∧ w.Under v := by
  cases v with
  | obj members =>
      obtain ⟨slot, hslot, hw⟩ := List.mem_flatMap.mp h
      obtain ⟨member, hm, hslot⟩ := List.mem_flatMap.mp hslot
      have there : member ∈ members := (List.mem_filter.mp hm).1
      obtain ⟨hv, rfl | below⟩ := under_of_mem_slotsOf hslot hw
      · exact ⟨hv, .member there⟩
      · exact ⟨hv, below.trans (.member there)⟩
  | null | bool | num | str | arr => exact absurd h List.not_mem_nil

/-- Induction along what is built. -/
theorem inner_induction {motive : Json → Prop}
    (step : ∀ v, (∀ w ∈ inner v, motive w) → motive v) (v : Json) : motive v :=
  step v fun w _ => inner_induction step w
termination_by sizeOf v
decreasing_by
  rename_i hw
  exact (under_of_mem_inner hw).2.sizeOf_lt

/-- The values that are built for a value, itself first. -/
def reached (v : Json) : List Json := v :: (inner v).attach.flatMap fun w => reached w.1
termination_by sizeOf v
decreasing_by exact (under_of_mem_inner w.2).2.sizeOf_lt

theorem reached_eq (v : Json) : reached v = v :: (inner v).flatMap reached := by
  rw [reached, List.flatMap_subtype (g := reached) fun _ _ => rfl, List.unattach_attach]

theorem mem_reached {v w : Json} : w ∈ reached v ↔ w = v ∨ ∃ u ∈ inner v, w ∈ reached u := by
  rw [reached_eq, List.mem_cons, List.mem_flatMap]

/-- What is reached declares a node, and is the value itself or stands inside it. -/
theorem under_of_mem_reached {v w : Json} (hv : isNodeValue v) (h : w ∈ reached v) :
    isNodeValue w ∧ w.Within v := by
  induction v using inner_induction with
  | step v ih =>
      rcases mem_reached.mp h with rfl | ⟨u, hu, h⟩
      · exact ⟨hv, .inl rfl⟩
      · obtain ⟨node, below⟩ := under_of_mem_inner hu
        obtain ⟨hw, rfl | deeper⟩ := ih u hu node h
        · exact ⟨hw, .inr below⟩
        · exact ⟨hw, .inr (deeper.trans below)⟩

/-! ### Building one after the other -/

section Sequence

variable {α β ε : Type} {f : α → Except ε β}

theorem mapM_eq_ok {xs : List α} {ys : List β} :
    xs.mapM f = .ok ys ↔ List.Forall₂ (fun x y => f x = .ok y) xs ys := by
  induction xs generalizing ys with
  | nil =>
      rw [List.mapM_nil, List.forall₂_nil_left_iff]
      exact ⟨fun h => (Except.ok.inj h).symm, fun h => h ▸ rfl⟩
  | cons x xs ih =>
      rw [List.mapM_cons, List.forall₂_cons_left_iff, bind_eq_ok]
      constructor
      · rintro ⟨y, hy, h⟩
        obtain ⟨rest, hrest, h⟩ := bind_eq_ok.mp h
        exact ⟨y, rest, hy, ih.mp hrest, (Except.ok.inj h).symm⟩
      · rintro ⟨y, rest, hy, hrest, rfl⟩
        exact ⟨y, hy, bind_eq_ok.mpr ⟨rest, ih.mpr hrest, rfl⟩⟩

theorem exists_mapM_iff {xs : List α} :
    (∃ ys, xs.mapM f = .ok ys) ↔ ∀ x ∈ xs, ∃ y, f x = .ok y := by
  induction xs with
  | nil => simp [pure, Except.pure]
  | cons x xs ih =>
      rw [List.forall_mem_cons, ← ih]
      simp only [mapM_eq_ok, List.forall₂_cons_left_iff]
      constructor
      · rintro ⟨_, y, rest, hy, hrest, -⟩
        exact ⟨⟨y, hy⟩, rest, hrest⟩
      · rintro ⟨⟨y, hy⟩, rest, hrest⟩
        exact ⟨_, y, rest, hy, hrest, rfl⟩

theorem bind_eq_error {γ : Type} {x : Except ε β} {g : β → Except ε γ} {e : ε} :
    x >>= g = .error e ↔ x = .error e ∨ ∃ y, x = .ok y ∧ g y = .error e := by
  cases x <;> simp [bind, Except.bind]

theorem map_eq_ok {γ : Type} {x : Except ε β} {g : β → γ} {z : γ} :
    g <$> x = .ok z ↔ ∃ y, x = .ok y ∧ g y = z := by
  cases x <;> simp [Functor.map, Except.map]

theorem map_eq_error {γ : Type} {x : Except ε β} {g : β → γ} {e : ε} :
    g <$> x = .error e ↔ x = .error e := by
  cases x <;> simp [Functor.map, Except.map]

theorem mapM_eq_error {xs : List α} {e : ε} (h : xs.mapM f = .error e) :
    ∃ x ∈ xs, f x = .error e := by
  induction xs with
  | nil => cases h
  | cons x xs ih =>
      rw [List.mapM_cons] at h
      rcases bind_eq_error.mp h with first | ⟨y, -, h⟩
      · exact ⟨x, List.mem_cons_self, first⟩
      · rcases bind_eq_error.mp h with later | ⟨ys, -, h⟩
        · obtain ⟨x', hx', eq⟩ := ih later
          exact ⟨x', List.mem_cons_of_mem x hx', eq⟩
        · cases h

end Sequence

/-! ### Trees and the values reached -/

/-- The value is an object whose `src` is a span. -/
def HasSpan (v : Json) : Prop :=
  ∃ members text span, v = .obj members ∧ member? "src" members = some (.str text) ∧
    Span.parse text = .ok span

theorem header_eq_ok {members : List (String × Json)} {kind : NodeKind} {id : Int64} {src : Span}
    (h : header members = .ok (kind, id, src)) :
    ∃ text, member? "src" members = some (.str text) ∧ Span.parse text = .ok src := by
  rw [header] at h
  match there : member? "src" members with
  | some (.str text) =>
      cases read : Span.parse text with
      | error e => simp [there, read] at h
      | ok span =>
          obtain rfl : span = src := by simp [there, read] at h; exact h.2.2
          exact ⟨text, rfl, read⟩
  | none | some .null | some (.bool _) | some (.num _) | some (.arr _) | some (.obj _) =>
      simp [there] at h

theorem exists_header_iff (members : List (String × Json)) :
    (∃ made, header members = .ok made) ↔ HasSpan (.obj members) := by
  constructor
  · rintro ⟨⟨kind, id, src⟩, h⟩
    obtain ⟨text, there, read⟩ := header_eq_ok h
    exact ⟨members, text, src, rfl, there, read⟩
  · rintro ⟨_, text, src, same, there, read⟩
    obtain rfl := Json.obj.inj same
    simp [header, there, read]

/-- Building a value makes a header and the parts of its slots. -/
theorem build_eq_ok {v : Json} {n : Node} :
    build v = .ok n ↔ ∃ members kind id src parts, v = .obj members ∧
      header members = .ok (kind, id, src) ∧ (slots members).mapM Slot.build = .ok parts ∧
      n = assemble id kind src parts := by
  constructor
  · intro h
    cases v with
    | obj members =>
        rw [build_obj] at h
        obtain ⟨⟨kind, id, src⟩, hheader, h⟩ := bind_eq_ok.mp h
        obtain ⟨parts, hparts, h⟩ := bind_eq_ok.mp h
        exact ⟨members, kind, id, src, parts, rfl, hheader, hparts, (Except.ok.inj h).symm⟩
    | null | bool | num | str | arr => rw [build.eq_def] at h; cases h
  · rintro ⟨members, kind, id, src, parts, rfl, hheader, hparts, rfl⟩
    rw [build_obj]
    exact bind_eq_ok.mpr ⟨_, hheader, bind_eq_ok.mpr ⟨_, hparts, rfl⟩⟩

/-- What is built for an entry of a field. -/
theorem buildEntry_eq_ok {value : Option Json} {n : Option Node} :
    buildEntry value = .ok n ↔
      (value = none ∧ n = none) ∨ ∃ w m, value = some w ∧ n = some m ∧ build w = .ok m := by
  cases value with
  | none => simp [buildEntry, pure, Except.pure, eq_comm]
  | some w =>
      rw [buildEntry, map_eq_ok]
      constructor
      · rintro ⟨m, built, rfl⟩
        exact .inr ⟨w, m, rfl, rfl, built⟩
      · rintro (⟨none, -⟩ | ⟨w', m, same, rfl, built⟩)
        · cases none
        · exact ⟨m, Option.some.inj same ▸ built, rfl⟩

theorem exists_slot_build_iff (slot : Slot) :
    (∃ part, slot.build = .ok part) ↔ ∀ w ∈ slot.values, ∃ n, build w = .ok n := by
  cases slot with
  | attr key value => simp [Slot.build, Slot.values, pure, Except.pure]
  | hidden key value => simp [Slot.build, map_eq_ok, Slot.values]
  | field key values =>
      have entries : (∃ part, (Slot.field key values).build = .ok part) ↔
          ∃ ns, values.mapM buildEntry = .ok ns := by
        simp only [Slot.build, map_eq_ok]
        exact ⟨fun ⟨_, ns, h, _⟩ => ⟨ns, h⟩, fun ⟨ns, h⟩ => ⟨_, ns, h, rfl⟩⟩
      rw [entries, exists_mapM_iff, Slot.values]
      simp only [List.reduceOption_mem_iff, buildEntry_eq_ok]
      constructor
      · intro h w hw
        obtain ⟨n, ⟨none, -⟩ | ⟨w', m, same, -, built⟩⟩ := h (some w) hw
        · cases none
        · exact ⟨m, Option.some.inj same ▸ built⟩
      · intro h entry hentry
        cases entry with
        | none => exact ⟨none, .inl ⟨rfl, rfl⟩⟩
        | some w =>
            obtain ⟨m, built⟩ := h w hentry
            exact ⟨some m, .inr ⟨w, m, rfl, rfl, built⟩⟩

theorem exists_of_slot_error {slot : Slot} {e : DecodeError} (h : slot.build = .error e) :
    ∃ w ∈ slot.values, build w = .error e := by
  cases slot with
  | attr key value => cases h
  | hidden key value => exact ⟨value, List.mem_singleton_self _, map_eq_error.mp h⟩
  | field key values =>
      obtain ⟨entry, hentry, refused⟩ := mapM_eq_error (map_eq_error.mp h)
      cases entry with
      | none => cases refused
      | some w => exact ⟨w, List.reduceOption_mem_iff.mpr hentry, map_eq_error.mp refused⟩

theorem exists_build_obj_iff (members : List (String × Json)) :
    (∃ n, build (.obj members) = .ok n) ↔
      HasSpan (.obj members) ∧ ∀ w ∈ inner (.obj members), ∃ n, build w = .ok n := by
  rw [← exists_header_iff, inner, List.forall_mem_flatMap]
  rw [← forall₂_congr fun slot _ => exists_slot_build_iff slot, ← exists_mapM_iff]
  simp only [build_eq_ok]
  constructor
  · rintro ⟨n, _, kind, id, src, parts, same, hheader, hparts, -⟩
    obtain rfl := Json.obj.inj same
    exact ⟨⟨_, hheader⟩, parts, hparts⟩
  · rintro ⟨⟨⟨kind, id, src⟩, hheader⟩, parts, hparts⟩
    exact ⟨_, members, kind, id, src, parts, rfl, hheader, hparts, rfl⟩

/-- **When there is a tree**: exactly when every value reached has a span. -/
theorem exists_build_iff (v : Json) :
    (∃ n, build v = .ok n) ↔ ∀ w ∈ reached v, HasSpan w := by
  induction v using inner_induction with
  | step v ih =>
      rw [reached_eq, List.forall_mem_cons, List.forall_mem_flatMap, ← forall₂_congr ih]
      cases v with
      | obj members => exact exists_build_obj_iff members
      | null | bool | num | str | arr => simp [build_eq_ok, HasSpan]

/-- What is refused names an object that was reached. -/
theorem header_of_build_error {v : Json} {e : DecodeError} (hv : isNodeValue v)
    (h : build v = .error e) : ∃ members, .obj members ∈ reached v ∧ header members = .error e := by
  induction v using inner_induction with
  | step v ih =>
      cases v with
      | obj members =>
          rw [build_obj] at h
          rcases bind_eq_error.mp h with refused | ⟨⟨kind, id, src⟩, -, h⟩
          · exact ⟨members, mem_reached.mpr (.inl rfl), refused⟩
          · rcases bind_eq_error.mp h with refused | ⟨parts, -, h⟩
            · obtain ⟨slot, hslot, refused⟩ := mapM_eq_error refused
              obtain ⟨w, hw, refused⟩ := exists_of_slot_error refused
              have hw : w ∈ inner (.obj members) := List.mem_flatMap.mpr ⟨slot, hslot, hw⟩
              obtain ⟨ms, hms, eq⟩ := ih w hw (under_of_mem_inner hw).1 refused
              exact ⟨ms, mem_reached.mpr (.inr ⟨w, hw, hms⟩), eq⟩
            · cases h
      | null | bool | num | str | arr => simp [isNodeValue] at hv

/-! ### The nodes of a tree -/

section Accounting

/-- What is built for some values accounts for all that is reached from them. -/
def AccountsFor (values : List Json) (ns : List Node) : Prop :=
  Accounts (ns.flatMap nodes) (values.flatMap reached) []

theorem accountsFor_entries {values : List (Option Json)} {ns : List (Option Node)}
    (h : List.Forall₂ (fun value n => buildEntry value = .ok n) values ns)
    (below : ∀ w ∈ values.reduceOption, ∀ n, build w = .ok n → Accounts n.nodes (reached w) []) :
    AccountsFor values.reduceOption ns.reduceOption := by
  induction h with
  | nil => exact .unmet []
  | @cons value n values ns hn _ ih =>
      obtain ⟨rfl, rfl⟩ | ⟨w, m, rfl, rfl, built⟩ := buildEntry_eq_ok.mp hn
      · exact ih below
      · rw [List.reduceOption_cons_of_some, List.forall_mem_cons] at below
        rw [AccountsFor, List.reduceOption_cons_of_some, List.reduceOption_cons_of_some,
          List.flatMap_cons, List.flatMap_cons]
        exact (below.1 m built).append (ih below.2)

theorem accountsFor_slot {slot : Slot} {part : Part} (h : slot.build = .ok part)
    (below : ∀ w ∈ slot.values, ∀ n, build w = .ok n → Accounts n.nodes (reached w) []) :
    AccountsFor slot.values part.nodes := by
  cases slot with
  | attr key value =>
      obtain rfl := Except.ok.inj h
      exact .unmet []
  | hidden key value =>
      obtain ⟨n, built, rfl⟩ := map_eq_ok.mp h
      have inside := below value (List.mem_singleton_self _) n built
      simpa [AccountsFor, Slot.values, Part.nodes] using inside
  | field key values =>
      obtain ⟨ns, built, rfl⟩ := map_eq_ok.mp h
      exact accountsFor_entries (mapM_eq_ok.mp built) below

theorem accountsFor_slots {slots : List Slot} {parts : List Part}
    (h : List.Forall₂ (fun slot part => slot.build = .ok part) slots parts)
    (below : ∀ w ∈ slots.flatMap Slot.values, ∀ n, build w = .ok n →
      Accounts n.nodes (reached w) []) :
    AccountsFor (slots.flatMap Slot.values) (parts.flatMap Part.nodes) := by
  induction h with
  | nil => exact .unmet []
  | @cons slot part slots parts hpart _ ih =>
      rw [List.flatMap_cons, List.forall_mem_append] at below
      have here : AccountsFor slot.values part.nodes := accountsFor_slot hpart below.1
      rw [AccountsFor, List.flatMap_cons, List.flatMap_cons, List.flatMap_append,
        List.flatMap_append]
      exact here.append (ih below.2)

/-- **The nodes of a tree** are those of the values reached, one to one. -/
theorem accounts_reached {v : Json} {n : Node} (h : build v = .ok n) :
    Accounts n.nodes (reached v) [] := by
  induction v using inner_induction generalizing n with
  | step v ih =>
      obtain ⟨members, kind, id, src, parts, rfl, -, hparts, rfl⟩ := build_eq_ok.mp h
      have below : AccountsFor (inner (.obj members)) (parts.flatMap Part.nodes) :=
        accountsFor_slots (mapM_eq_ok.mp hparts) fun w hw n built => ih w hw built
      rw [nodes_eq, reached_eq]
      refine .cons h (.perm ?_ below)
      exact ((perm_children_assemble id kind src parts).flatMap_right nodes).symm

/-- Every node of a tree is that of a value reached. -/
theorem exists_of_mem_nodes {v : Json} {n m : Node} (h : build v = .ok n) (hm : m ∈ n.nodes) :
    ∃ w ∈ reached v, build w = .ok m := by
  obtain ⟨pairs, met, all, built⟩ := accounts_reached h
  obtain ⟨p, hp, rfl⟩ := List.mem_map.mp (met.mem_iff.mpr hm)
  refine ⟨p.2, all.mem_iff.mp ?_, built p hp⟩
  exact List.mem_append_left _ (List.mem_map_of_mem hp)

end Accounting

end Node

end SolidityLint
