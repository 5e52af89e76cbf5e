import Mathlib.Data.List.Nodup
import SolidityLint.Config.Data
import SolidityLint.Proofs.Json.RoundTrip
import SolidityLint.Proofs.Json.SortedKeys
import SolidityLint.Proofs.Number.Integral

/-!
# Config — options in JSON

`Data.Plain n` are the options that JSON holds without loss: truth values, strings, integers of
magnitude at most `2 ^ 53`, lists and maps, at most `n` levels of them.  Their JSON form reads back
as the same options (`Plain.carried`).  The reader makes every number a double and orders the
entries of maps, so what it gives is the same up to that (`Data.Same`); options it gave are read
back as they are (`Data.Settled`).
-/

namespace SolidityLint

/-- The text of an integer is its sign and its digits. -/
theorem Json.int_eq (k : Int) :
    Json.int k = .num (String.ofList (Binary64.signedDigits (k < 0) k.natAbs)) := by
  rw [Json.int, Binary64.signedDigits, Nat.repr_eq_ofList_toDigits]
  by_cases negative : k < 0
  · simp [negative, String.ofList_cons]
  · simp [negative]

namespace Data

/-- Options that JSON holds without loss, with at most so many levels of lists and maps. -/
inductive Plain : Nat → Data → Prop where
  | null {n : Nat} : Plain n .null
  | bool {n : Nat} (b : Bool) : Plain n (.bool b)
  | str {n : Nat} (s : String) : Plain n (.str s)
  | int {n : Nat} {k : Int} (h : k.natAbs ≤ 2 ^ 53) : Plain n (.int k)
  | double {n : Nat} {k : Int} (h : k.natAbs ≤ 2 ^ 53) : Plain n (.float (.ofInt k))
  | list {n : Nat} {items : List Data} (h : ∀ d ∈ items, Plain n d) : Plain (n + 1) (.list items)
  | map {n : Nat} {entries : List (String × Data)} (keys : (entries.map (·.1)).Nodup)
      (h : ∀ e ∈ entries, Plain n e.2) : Plain (n + 1) (.map entries)

/-- The exact value of a number. -/
def number? : Data → Option ℚ
  | .int n => some n
  | .float x => x.value?
  | _ => none

/-- The same options: numbers of one value, lists item by item, and maps with the same keys and
under each key the same. -/
inductive Same : Data → Data → Prop where
  | null : Same .null .null
  | bool (b : Bool) : Same (.bool b) (.bool b)
  | str (s : String) : Same (.str s) (.str s)
  | number {d d' : Data} {q : ℚ} (h : d.number? = some q) (h' : d'.number? = some q) : Same d d'
  | list {items items' : List Data} (length : items.length = items'.length)
      (h : ∀ p ∈ items.zip items', Same p.1 p.2) : Same (.list items) (.list items')
  | map {entries entries' : List (String × Data)}
      (keys : ∀ k, k ∈ entries.map (·.1) ↔ k ∈ entries'.map (·.1))
      (h : ∀ k d d', (k, d) ∈ entries → (k, d') ∈ entries' → Same d d') :
      Same (.map entries) (.map entries')

/-- Options as they are read from JSON: every number is a double, and the entries of maps are in
the order of their keys. -/
inductive Settled : Data → Prop where
  | null : Settled .null
  | bool (b : Bool) : Settled (.bool b)
  | str (s : String) : Settled (.str s)
  | float (x : Binary64) : Settled (.float x)
  | list {items : List Data} (h : ∀ d ∈ items, Settled d) : Settled (.list items)
  | map {entries : List (String × Data)} (keys : (entries.map (·.1)).Pairwise (· < ·))
      (h : ∀ e ∈ entries, Settled e.2) : Settled (.map entries)

/-- The options have a JSON form within so many levels, and it reads back as the same options. -/
structure Carried (n : Nat) (d : Data) (j : Json) (d' : Data) : Prop where
  toJson : d.toJson? = some j
  ofJson : ofJson? j = some d'
  same : d.Same d'
  settled : d.Settled → d' = d
  numerals : j.Numerals
  depth : j.depth ≤ n

/-! ### Item by item -/

theorem toJsonItems?_map {items : List Data} {f : Data → Json}
    (h : ∀ d ∈ items, d.toJson? = some (f d)) : toJsonItems? items = some (items.map f) := by
  induction items with
  | nil => rfl
  | cons d ds ih =>
      obtain ⟨first, others⟩ := List.forall_mem_cons.mp h
      simp [toJsonItems?, first, ih others]

theorem ofJsonItems?_map {items : List Data} {f : Data → Json} {g : Data → Data}
    (h : ∀ d ∈ items, ofJson? (f d) = some (g d)) :
    ofJsonItems? (items.map f) = some (items.map g) := by
  induction items with
  | nil => rfl
  | cons d ds ih =>
      obtain ⟨first, others⟩ := List.forall_mem_cons.mp h
      simp [ofJsonItems?, first, ih others]

theorem toJsonEntries?_map {entries : List (String × Data)} {f : String × Data → Json}
    (h : ∀ e ∈ entries, e.2.toJson? = some (f e)) :
    toJsonEntries? entries = some (entries.map fun e => (e.1, f e)) := by
  induction entries with
  | nil => rfl
  | cons e es ih =>
      obtain ⟨first, others⟩ := List.forall_mem_cons.mp h
      simp [toJsonEntries?, first, ih others]

theorem ofJsonMembers?_map {entries : List (String × Data)} {f : String × Data → Json}
    {g : String × Data → Data} (h : ∀ e ∈ entries, ofJson? (f e) = some (g e)) :
    ofJsonMembers? (entries.map fun e => (e.1, f e)) = some (entries.map fun e => (e.1, g e)) := by
  induction entries with
  | nil => rfl
  | cons e es ih =>
      obtain ⟨first, others⟩ := List.forall_mem_cons.mp h
      simp [ofJsonMembers?, first, ih others]

/-! ### Numbers -/

theorem ofJson?_int {k : Int} (h : k.natAbs ≤ 2 ^ 53) :
    ofJson? (.int k) = some (.float (.ofInt k)) := by
  rw [Json.int_eq, ofJson?, Binary64.ofNumeral?_ofInt h]
  rfl

theorem toJson?_ofInt {k : Int} (h : k.natAbs ≤ 2 ^ 53) :
    (Data.float (.ofInt k)).toJson? = some (.int k) := by
  rw [Json.int_eq, toJson?, Binary64.render?_ofInt h]
  rfl

theorem carried_int {k : Int} (h : k.natAbs ≤ 2 ^ 53) (n : Nat) :
    Carried n (.int k) (.int k) (.float (.ofInt k)) where
  toJson := by rw [toJson?]
  ofJson := ofJson?_int h
  same := .number (q := k) rfl (Binary64.value?_ofInt h)
  settled := nofun
  numerals := Json.numerals_int k
  depth := Nat.zero_le n

theorem carried_double {k : Int} (h : k.natAbs ≤ 2 ^ 53) (n : Nat) :
    Carried n (.float (.ofInt k)) (.int k) (.float (.ofInt k)) where
  toJson := toJson?_ofInt h
  ofJson := ofJson?_int h
  same := .number (Binary64.value?_ofInt h) (Binary64.value?_ofInt h)
  settled := fun _ => rfl
  numerals := Json.numerals_int k
  depth := Nat.zero_le n

/-! ### Lists and maps -/

theorem carried_list {n : Nat} {items : List Data} {f : Data → Json} {g : Data → Data}
    (h : ∀ d ∈ items, Carried n d (f d) (g d)) :
    Carried (n + 1) (.list items) (.arr (items.map f)) (.list (items.map g)) where
  toJson := by rw [toJson?, toJsonItems?_map fun d hd => (h d hd).toJson]; rfl
  ofJson := by rw [ofJson?, ofJsonItems?_map fun d hd => (h d hd).ofJson]; rfl
  same := by
    refine .list (by simp) fun p hp => ?_
    rw [← List.map_prod_left_eq_zip] at hp
    obtain ⟨d, hd, rfl⟩ := List.mem_map.mp hp
    exact (h d hd).same
  settled := by
    intro settled
    cases settled with
    | list all =>
        have fixed : items.map g = items.map id := List.map_congr_left fun d hd =>
          (h d hd).settled (all d hd)
        rw [fixed, List.map_id]
  numerals := by
    rw [Json.numerals_arr, List.forall_mem_map]
    exact fun d hd => (h d hd).numerals
  depth := by
    rw [Json.depth]
    refine Nat.succ_le_succ (Json.itemsDepth_le_iff.mpr ?_)
    rw [List.forall_mem_map]
    exact fun d hd => (h d hd).depth

theorem carried_map {n : Nat} {entries : List (String × Data)} (keys : (entries.map (·.1)).Nodup)
    {f : String × Data → Json} {g : String × Data → Data}
    (h : ∀ e ∈ entries, Carried n e.2 (f e) (g e)) :
    Carried (n + 1) (.map entries) (.obj ((sortByKey entries).map fun e => (e.1, f e)))
      (.map ((sortByKey entries).map fun e => (e.1, g e))) := by
  have perm := sortByKey_perm entries
  have mem {e : String × Data} (he : e ∈ sortByKey entries) : e ∈ entries := perm.mem_iff.mp he
  have once : ((sortByKey entries).map (·.1)).Nodup := (perm.map _).nodup_iff.mpr keys
  have once' {β : Type} (v : String × Data → β) :
      (((sortByKey entries).map fun e => (e.1, v e)).map (·.1)).Nodup := by rwa [List.map_map]
  have order : ((sortByKey entries).map fun e => (e.1, g e)).Pairwise fun a b => a.1 ≤ b.1 :=
    List.pairwise_map.mpr (sortByKey_pairwise entries)
  constructor
  · rw [toJson?, toJsonEntries?_map fun e he => (h e he).toJson, Option.map_some, Json.sorted,
      ← map_sortByKey, lastOfRun_of_nodup (once' f)]
  · rw [ofJson?, ofJsonMembers?_map fun e he => (h e (mem he)).ofJson, Option.map_some,
      sortByKey_of_pairwise order, lastOfRun_of_nodup (once' g)]
  · refine .map (fun k => ?_) fun k d d' hd hd' => ?_
    · rw [List.map_map]
      exact ((perm.map (·.1)).mem_iff (a := k)).symm
    · obtain ⟨e, he, same⟩ := List.mem_map.mp hd'
      -- A key stands for one value only.
      have eq : e = (k, d) := List.inj_on_of_nodup_map keys (mem he) hd (Prod.mk.inj same).1
      subst eq
      rw [← (Prod.mk.inj same).2]
      exact (h _ hd).same
  · intro settled
    cases settled with
    | map sorted all =>
        have ordered : sortByKey entries = entries :=
          sortByKey_of_pairwise ((List.pairwise_map.mp sorted).imp Std.le_of_lt)
        have fixed : entries.map (fun e => (e.1, g e)) = entries.map id :=
          List.map_congr_left fun e he => by rw [(h e he).settled (all e he)]; rfl
        rw [ordered, fixed, List.map_id]
  · rw [Json.numerals_obj, List.forall_mem_map]
    exact fun e he => (h e (mem he)).numerals
  · rw [Json.depth]
    refine Nat.succ_le_succ (Json.membersDepth_le_iff.mpr ?_)
    rw [List.forall_mem_map]
    exact fun e he => (h e (mem he)).depth

/-- **Plain options read back.**  They have a JSON form, and it reads as the same options. -/
theorem Plain.carried {n : Nat} {d : Data} (h : Plain n d) : ∃ j d', Carried n d j d' := by
  induction h with
  | null =>
      exact ⟨.null, .null, rfl, rfl, .null, fun _ => rfl, Json.numerals_null, Nat.zero_le _⟩
  | bool b =>
      exact ⟨.bool b, .bool b, rfl, rfl, .bool b, fun _ => rfl, Json.numerals_bool b, Nat.zero_le _⟩
  | str s =>
      exact ⟨.str s, .str s, rfl, rfl, .str s, fun _ => rfl, Json.numerals_str s, Nat.zero_le _⟩
  | int h => exact ⟨_, _, carried_int h _⟩
  | double h => exact ⟨_, _, carried_double h _⟩
  | list _ ih =>
      choose! f g carried using ih
      exact ⟨_, _, carried_list carried⟩
  | map keys _ ih =>
      choose! f g carried using ih
      exact ⟨_, _, carried_map keys carried⟩

end Data

end SolidityLint
