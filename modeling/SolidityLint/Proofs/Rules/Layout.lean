import Mathlib.Data.List.Basic
import Mathlib.Data.List.Induction
import SolidityLint.Proofs.Ast.Removal
import SolidityLint.Rules.Order

/-!
# Rules — the layout of files and contracts

The rule about ordering goes through a list with the highest rank so far.  An item that falls below
it is reported and leaves it as it is, so that it is the highest rank of all items before
(`isMisplaced_raise`), reported or not: an item is reported exactly if some item before it in the
list has a strictly greater rank (`FallsBehind`).

* `judged_eq`: what a run over a list finds, for the items of a file and the members of a contract
  alike.
* `behind_eq_nil_iff`: nothing falls behind exactly in lists whose ranks do not decrease.
* `ordering_reports_items_behind`: the findings of a file, when there are none, and that there are
  none any more when the items that they are about are taken out of the tree.
-/

namespace SolidityLint

namespace Rules

/-! ### Items that fall behind -/

section

variable {α β : Type} (rank? : α → Option Nat)

/-- Both are ranked, the first strictly higher. -/
def Outranks (a b : α) : Prop := ∃ s r, rank? a = some s ∧ rank? b = some r ∧ r < s

theorem isMisplaced_iff {a b : α} : isMisplaced (rank? b) (rank? a) ↔ Outranks rank? a b := by
  unfold isMisplaced Outranks
  cases rank? a <;> cases rank? b <;> simp

instance (a b : α) : Decidable (Outranks rank? a b) :=
  decidable_of_iff _ (isMisplaced_iff rank?)

/-- Some item before it outranks the item. -/
def FallsBehind (before : List α) (x : α) : Prop := ∃ a ∈ before, Outranks rank? a x

instance (before : List α) (x : α) : Decidable (FallsBehind rank? before x) :=
  inferInstanceAs (Decidable (∃ a ∈ _, _))

theorem fallsBehind_cons {a x : α} {before : List α} :
    FallsBehind rank? (a :: before) x ↔ Outranks rank? a x ∨ FallsBehind rank? before x :=
  List.exists_mem_cons_iff ..

/-- The items of a list that fall behind, in order. -/
def behind (xs : List α) : List α :=
  (xs.zipIdx.filter fun p => FallsBehind rank? (xs.take p.2) p.1).map (·.1)

variable {rank?}

theorem mem_behind {xs : List α} {x : α} :
    x ∈ behind rank? xs ↔
      ∃ before after, xs = before ++ x :: after ∧ FallsBehind rank? before x := by
  simp only [behind, List.mem_map, List.mem_filter, decide_eq_true_eq, Prod.exists,
    List.mem_zipIdx_iff_getElem?]
  constructor
  · rintro ⟨x, i, ⟨there, falls⟩, rfl⟩
    obtain ⟨lt, rfl⟩ := List.getElem?_eq_some_iff.mp there
    exact ⟨xs.take i, xs.drop (i + 1), by simp, falls⟩
  · rintro ⟨before, after, rfl, falls⟩
    exact ⟨x, before.length, ⟨by simp, by simpa using falls⟩, rfl⟩

theorem isSome_rank_of_mem_behind {xs : List α} {x : α} (h : x ∈ behind rank? xs) :
    (rank? x).isSome := by
  obtain ⟨-, -, -, -, -, _, _, -, rank, -⟩ := mem_behind.mp h
  exact Option.isSome_of_eq_some rank

/-- Of two items of a list the later one falls behind if the other outranks it. -/
theorem mem_behind_of_sublist {xs : List α} {a x : α} (sub : [a, x].Sublist xs)
    (h : Outranks rank? a x) : x ∈ behind rank? xs := by
  obtain ⟨front, rest, rfl, ha, hx⟩ := List.cons_sublist_iff.mp sub
  obtain ⟨before, after, rfl⟩ := List.append_of_mem (List.singleton_sublist.mp hx)
  exact mem_behind.mpr ⟨front ++ before, after, by simp, a, List.mem_append_left _ ha, h⟩

/-- The ranks of a list do not decrease if no item outranks a later one. -/
theorem pairwise_ranks_iff {xs : List α} :
    (xs.filterMap rank?).Pairwise (· ≤ ·) ↔ xs.Pairwise fun a b => ¬ Outranks rank? a b := by
  rw [List.pairwise_filterMap]
  refine List.Pairwise.iff fun a b => ⟨?_, fun h s hs r hr => Nat.le_of_not_lt fun lt => ?_⟩
  · rintro h ⟨s, r, hs, hr, lt⟩
    exact Nat.not_lt.mpr (h s hs r hr) lt
  · exact h ⟨s, r, hs, hr, lt⟩

/-- Items that do not fall behind have ranks that do not decrease, whatever is left out. -/
theorem pairwise_ranks_of_not_behind {xs ys : List α} (sub : ys.Sublist xs)
    (h : ∀ y ∈ ys, y ∉ behind rank? xs) : (ys.filterMap rank?).Pairwise (· ≤ ·) := by
  refine pairwise_ranks_iff.mpr (List.pairwise_iff_forall_sublist.mpr fun {a b} pair outranks => ?_)
  have hb : b ∈ ys := pair.subset (List.mem_cons_of_mem a List.mem_cons_self)
  exact h b hb (mem_behind_of_sublist (pair.trans sub) outranks)

/-- **Nothing falls behind** exactly in lists whose ranks do not decrease. -/
theorem behind_eq_nil_iff {xs : List α} :
    behind rank? xs = [] ↔ (xs.filterMap rank?).Pairwise (· ≤ ·) := by
  rw [List.eq_nil_iff_forall_not_mem]
  refine ⟨fun h => pairwise_ranks_of_not_behind (List.Sublist.refl xs) fun y _ => h y, ?_⟩
  intro ordered x hx
  obtain ⟨before, after, rfl, a, ha, outranks⟩ := mem_behind.mp hx
  have apart := (List.pairwise_append.mp (pairwise_ranks_iff.mp ordered)).2.2
  exact apart a ha x List.mem_cons_self outranks

theorem behind_concat (xs : List α) (x : α) : behind rank? (xs ++ [x]) =
    behind rank? xs ++ if FallsBehind rank? xs x then [x] else [] := by
  have before : ∀ p ∈ xs.zipIdx, (xs ++ [x]).take p.2 = xs.take p.2 := fun p hp =>
    List.take_append_of_le_length (Nat.le_of_lt (List.snd_lt_of_mem_zipIdx hp))
  rw [behind, List.zipIdx_append, List.filter_append, List.map_append,
    List.filter_congr fun p hp => by rw [before p hp]]
  refine congrArg (behind rank? xs ++ ·) ?_
  rw [List.zipIdx_singleton, Nat.zero_add]
  by_cases falls : FallsBehind rank? xs x <;> simp [falls]

/-- **What falls behind** is the same with the unranked entries of a list left out. -/
theorem filterMap_behind (g : β → Option α) (xs : List β) :
    (behind (fun x => (g x).bind rank?) xs).filterMap g = behind rank? (xs.filterMap g) := by
  have outranks {a x : β} {y : α} (hy : g x = some y) :
      Outranks (fun x => (g x).bind rank?) a x ↔ ∃ b, g a = some b ∧ Outranks rank? b y := by
    unfold Outranks
    cases ha : g a <;> simp [ha, hy]
  have falls {before : List β} {x : β} {y : α} (hy : g x = some y) :
      FallsBehind (fun x => (g x).bind rank?) before x ↔
        FallsBehind rank? (before.filterMap g) y := by
    simp only [FallsBehind, outranks hy, List.mem_filterMap]
    grind
  induction xs using List.reverseRecOn with
  | nil => rfl
  | append_singleton xs x ih =>
      rw [behind_concat, List.filterMap_append, List.filterMap_append, ih]
      cases hx : g x with
      | none =>
          have one : [x].filterMap g = [] := by rw [List.filterMap_cons, hx, List.filterMap_nil]
          split <;> simp [one]
      | some y =>
          have one : [x].filterMap g = [y] := by rw [List.filterMap_cons, hx, List.filterMap_nil]
          rw [one, behind_concat, if_congr (falls hx) rfl rfl]
          split <;> simp [one]

/-! ### A run over a list -/

/-- A run that judges each item by the highest rank so far. -/
def judged (rank? : α → Option Nat) (emit : α → Bool → List β) : List α → Option Nat → List β
  | [], _ => []
  | x :: xs, highest =>
    emit x (isMisplaced (rank? x) highest) ++ judged rank? emit xs (raise (rank? x) highest)

/-- **One more item** raises the highest rank to its own, if it has a higher one. -/
theorem isMisplaced_raise (r rank highest : Option Nat) :
    isMisplaced r (raise rank highest) = (isMisplaced r highest || isMisplaced r rank) := by
  cases r with
  | none => rfl
  | some r =>
      cases rank with
      | none => rw [raise, isMisplaced.eq_def (some r) none, Bool.or_false]
      | some s =>
          cases highest with
          | none => rfl
          | some h =>
              simp only [raise, isMisplaced, decide_eq_true_eq]
              rw [Bool.eq_iff_iff, Bool.or_eq_true, decide_eq_true_eq, decide_eq_true_eq]
              by_cases below : s < h
              · rw [if_pos below, decide_eq_true_eq]
                omega
              · rw [if_neg below, decide_eq_true_eq]
                omega

/-- **A run over a list** judges each item by all items before it. -/
theorem judged_eq (emit : α → Bool → List β) (xs : List α) (highest : Option Nat) :
    judged rank? emit xs highest = xs.zipIdx.flatMap fun p =>
      emit p.1 (isMisplaced (rank? p.1) highest || FallsBehind rank? (xs.take p.2) p.1) := by
  induction xs generalizing highest with
  | nil => rfl
  | cons x xs ih =>
      have later (y : α) (i : Nat) :
          (isMisplaced (rank? y) (raise (rank? x) highest) ||
              decide (FallsBehind rank? (xs.take i) y)) =
            (isMisplaced (rank? y) highest ||
              decide (FallsBehind rank? ((x :: xs).take (i + 1)) y)) := by
        rw [isMisplaced_raise, Bool.or_assoc, Bool.eq_iff_iff]
        simp only [Bool.or_eq_true, decide_eq_true_eq, isMisplaced_iff, List.take_succ_cons,
          fallsBehind_cons]
      have first : decide (FallsBehind rank? ((x :: xs).take 0) x) = false :=
        decide_eq_false fun ⟨_, h, _⟩ => nomatch h
      rw [judged, ih, List.zipIdx_cons, List.flatMap_cons, List.zipIdx_succ, List.flatMap_map]
      simp only [first, Bool.or_false, later]

theorem flatMap_ite_singleton (xs : List α) (p : α → Prop) [DecidablePred p] (g : α → β) :
    (xs.flatMap fun x => if p x then [g x] else []) = (xs.filter p).map g := by
  induction xs with
  | nil => rfl
  | cons x xs ih =>
      rw [List.flatMap_cons, ih, List.filter_cons]
      by_cases h : p x <;> simp [h]

end

/-! ### The findings of a file -/

/-- The items of a file that were not left out. -/
def items (f : SourceFile) : List Node := (fileItems f).filterMap fun item => item

theorem mapM_eq_some_iff {α : Type} {xs : List (Option α)} {ys : List α} :
    (xs.mapM fun x => x) = some ys ↔ none ∉ xs ∧ ys = xs.filterMap fun x => x := by
  induction xs generalizing ys with
  | nil => simp [eq_comm]
  | cons x xs ih =>
      cases x with
      | none => simp
      | some y =>
          rw [@eq_comm _ ys]
          simp [Option.bind_eq_some_iff, ih]

/-- The finding about an item that falls behind. -/
def behindFinding (f : SourceFile) (n : Node) : Finding :=
  f.findingAt n "Invalid ordering of items in the file"

/-- The members of a contract that fall behind; other items have none. -/
def membersBehind (n : Node) : List Node :=
  if n.kind == "ContractDefinition" then behind memberRank? (n.list "nodes") else []

/-- The items of a file that fall behind, and behind each place the members that do. -/
def itemsBehind (f : SourceFile) : List Node :=
  (items f).zipIdx.flatMap fun p =>
    (if FallsBehind fileRank? ((items f).take p.2) p.1 then [p.1] else []) ++ membersBehind p.1

theorem misplacedMembers_eq (f : SourceFile) (ns : List Node) :
    misplacedMembers f ns none = (behind memberRank? ns).map (behindFinding f) := by
  have run (highest : Option Nat) : misplacedMembers f ns highest =
      judged memberRank? (fun n b => if b then [behindFinding f n] else []) ns highest := by
    induction ns generalizing highest with
    | nil => rfl
    | cons n ns ih =>
        rw [misplacedMembers, judged, ← ih]
        cases isMisplaced (memberRank? n) highest <;> rfl
  have start (n : Node) : isMisplaced (memberRank? n) none = false := by
    cases memberRank? n <;> rfl
  rw [run, judged_eq, behind, List.map_map]
  simp only [start, Bool.false_or, decide_eq_true_eq]
  exact flatMap_ite_singleton ns.zipIdx (fun p => FallsBehind memberRank? (ns.take p.2) p.1) _

theorem misplacedItems_eq (f : SourceFile) :
    misplacedItems f (items f) none = (itemsBehind f).map (behindFinding f) := by
  have run (ns : List Node) (highest : Option Nat) : misplacedItems f ns highest =
      judged fileRank? (fun n b => (if b then [behindFinding f n] else []) ++
        (membersBehind n).map (behindFinding f)) ns highest := by
    induction ns generalizing highest with
    | nil => rfl
    | cons n ns ih =>
        rw [misplacedItems, judged, ← ih, membersBehind, misplacedMembers_eq]
        cases n.kind == "ContractDefinition" <;> rfl
  have start (n : Node) : isMisplaced (fileRank? n) none = false := by
    cases fileRank? n <;> rfl
  rw [run, judged_eq, itemsBehind, List.map_flatMap]
  simp only [start, Bool.false_or, decide_eq_true_eq, List.map_append]
  congr 1
  funext p
  split <;> rfl

theorem ordering_eq {f : SourceFile} (complete : none ∉ fileItems f) :
    ordering f = some ((itemsBehind f).map (behindFinding f)) := by
  rw [ordering, mapM_eq_some_iff.mpr ⟨complete, rfl⟩]
  exact congrArg some (misplacedItems_eq f)

/-- The ranks of the file's items do not decrease, and neither do those of the members of each of
its contracts. -/
def LaidOut (f : SourceFile) : Prop :=
  ((items f).filterMap fileRank?).Pairwise (· ≤ ·) ∧
    ∀ n ∈ items f, n.kind = "ContractDefinition" →
      ((n.list "nodes").filterMap memberRank?).Pairwise (· ≤ ·)

theorem itemsBehind_eq_nil_iff (f : SourceFile) : itemsBehind f = [] ↔ LaidOut f := by
  have numbered : (∀ p ∈ (items f).zipIdx, membersBehind p.1 = []) ↔
      ∀ n ∈ items f, membersBehind n = [] := by
    conv => rhs; rw [← List.zipIdx_map_fst 0 (items f)]
    simp only [List.forall_mem_map]
  have top : (∀ p ∈ (items f).zipIdx, ¬ FallsBehind fileRank? ((items f).take p.2) p.1) ↔
      behind fileRank? (items f) = [] := by
    simp only [behind, List.map_eq_nil_iff, List.filter_eq_nil_iff, decide_eq_true_eq]
  have members (n : Node) : membersBehind n = [] ↔ (n.kind = "ContractDefinition" →
      ((n.list "nodes").filterMap memberRank?).Pairwise (· ≤ ·)) := by
    rw [membersBehind, ite_eq_right_iff, beq_iff_eq, behind_eq_nil_iff]
  simp only [itemsBehind, List.flatMap_eq_nil_iff, List.append_eq_nil_iff, ite_eq_right_iff,
    List.cons_ne_nil, imp_false, forall_and, numbered, top]
  simp only [LaidOut, members, behind_eq_nil_iff]

/-! ### Taking items out -/

/-- The rank of the node at an entry of a list. -/
def entryRank? (rank? : Node → Option Nat) (n : Node) (entry : Option Nat) : Option Nat :=
  (entry.bind (n.children[·]?)).bind rank?

/-- The places that a node stores under `nodes`. -/
def entries (n : Node) : List (Option Nat) := (n.places? "nodes").getD []

/-- The entries of a node's list whose nodes fall behind. -/
def entriesBehind (rank? : Node → Option Nat) (n : Node) : List (Option Nat) :=
  behind (entryRank? rank? n) (entries n)

/-- The node without those of its items that fall behind. -/
def trimmed (rank? : Node → Option Nat) (n : Node) : Node :=
  n.without fun p => (entriesBehind rank? n).contains (some p)

/-- A contract loses the members that fall behind; other nodes stay as they are. -/
def trimMembers (n : Node) : Node :=
  if n.kind == "ContractDefinition" then trimmed memberRank? n else n

/-- The node with the members of the contracts among its items trimmed. -/
def trimContracts (n : Node) : Node :=
  n.mapChildren fun p c => if (entries n).contains (some p) then trimMembers c else c

/-- The file without the items and the members that fall behind. -/
def withoutBehind (f : SourceFile) : SourceFile :=
  { f with root := f.root.map fun root => trimContracts (trimmed fileRank? root) }

section

variable (rank? : Node → Option Nat) (n : Node)

theorem list?_nodes :
    (n.list? "nodes").getD [] = (entries n).map fun entry => entry.bind (n.children[·]?) := by
  rw [Node.list?, entries]
  cases n.places? "nodes" <;> rfl

/-- **The items taken out** are those that fall behind. -/
theorem filterMap_entriesBehind :
    (entriesBehind rank? n).filterMap (fun entry => entry.bind (n.children[·]?)) =
      behind rank? (n.list "nodes") := by
  rw [Node.list, list?_nodes, List.filterMap_map]
  exact filterMap_behind _ _

/-- The items that stay are those that do not fall behind. -/
theorem list?_trimmed :
    ((trimmed rank? n).list? "nodes").getD [] =
      ((entries n).filter fun entry => entry ∉ entriesBehind rank? n).map
        fun entry => entry.bind (n.children[·]?) := by
  have stays (entry : Option Nat) :
      (!entry.any fun p => (entriesBehind rank? n).contains (some p)) =
        decide (entry ∉ entriesBehind rank? n) := by
    cases entry with
    | none =>
        -- An entry that the compiler left out has no rank, and falls behind nothing.
        have unranked : none ∉ entriesBehind rank? n := fun h =>
          nomatch isSome_rank_of_mem_behind h
        exact (decide_eq_true unranked).symm
    | some p => simp
  rw [trimmed, Node.list?_without]
  simp only [stays]
  rw [entries]
  cases n.places? "nodes" <;> rfl

theorem list?_trimmed_sublist :
    (((trimmed rank? n).list? "nodes").getD []).Sublist ((n.list? "nodes").getD []) := by
  rw [list?_trimmed, list?_nodes]
  exact List.filter_sublist.map _

theorem pairwise_ranks_trimmed :
    (((trimmed rank? n).list "nodes").filterMap rank?).Pairwise (· ≤ ·) := by
  rw [Node.list, list?_trimmed, List.filterMap_map, List.filterMap_filterMap]
  refine pairwise_ranks_of_not_behind List.filter_sublist fun entry h => ?_
  exact of_decide_eq_true (List.mem_filter.mp h).2

end

theorem fileRank?_trimMembers (n : Node) : fileRank? (trimMembers n) = fileRank? n := by
  unfold trimMembers
  split
  · cases n
    rfl
  · rfl

@[simp] theorem kind_trimMembers (n : Node) : (trimMembers n).kind = n.kind := by
  unfold trimMembers
  split
  · exact Node.kind_without n
  · rfl

theorem list?_trimContracts (n : Node) :
    ((trimContracts n).list? "nodes").getD [] =
      ((n.list? "nodes").getD []).map (Option.map trimMembers) := by
  rw [list?_nodes n, List.map_map, trimContracts, Node.list?_mapChildren]
  have there : ∀ entry ∈ entries n,
      (entry.bind fun p => (n.children[p]?).map fun c =>
        if (entries n).contains (some p) then trimMembers c else c) =
        (entry.bind (n.children[·]?)).map trimMembers := by
    intro entry hentry
    cases entry with
    | none => rfl
    | some p => simp [hentry]
  refine Eq.trans ?_ (List.map_congr_left there)
  rw [entries]
  cases n.places? "nodes" <;> rfl

section

variable {f : SourceFile} {root : Node} (hroot : f.root = some root)
include hroot

theorem fileItems_withoutBehind : fileItems (withoutBehind f) =
    (((trimmed fileRank? root).list? "nodes").getD []).map (Option.map trimMembers) := by
  rw [← list?_trimContracts, fileItems, withoutBehind, hroot]
  rfl

theorem items_withoutBehind :
    items (withoutBehind f) = ((trimmed fileRank? root).list "nodes").map trimMembers := by
  rw [items, fileItems_withoutBehind hroot, Node.list, List.filterMap_map, List.map_filterMap]
  rfl

end

theorem complete_withoutBehind {f : SourceFile} (complete : none ∉ fileItems f) :
    none ∉ fileItems (withoutBehind f) := by
  cases hroot : f.root with
  | none => simp [fileItems, withoutBehind, hroot]
  | some root =>
      rw [fileItems_withoutBehind hroot]
      intro h
      obtain ⟨item, hitem, left⟩ := List.mem_map.mp h
      obtain rfl := Option.map_eq_none_iff.mp left
      rw [fileItems, hroot] at complete
      exact complete ((list?_trimmed_sublist fileRank? root).subset hitem)

/-- What is left of a file is laid out. -/
theorem laidOut_withoutBehind (f : SourceFile) : LaidOut (withoutBehind f) := by
  cases hroot : f.root with
  | none =>
      have none : items (withoutBehind f) = [] := by simp [items, fileItems, withoutBehind, hroot]
      simp [LaidOut, none]
  | some root =>
      rw [LaidOut, items_withoutBehind hroot, List.filterMap_map, List.forall_mem_map]
      refine ⟨?_, fun c _ kind => ?_⟩
      · have ranks : fileRank? ∘ trimMembers = fileRank? := funext fileRank?_trimMembers
        rw [ranks]
        exact pairwise_ranks_trimmed fileRank? root
      · rw [kind_trimMembers] at kind
        rw [trimMembers, kind]
        exact pairwise_ranks_trimmed memberRank? c

/-- **The findings about the layout** of a file in which no item was left out are those about the
ranked items and members that one of strictly greater rank stands before in their list, each item
before its members.  There are none exactly if the ranks decrease in no list, and none in the file
without the items and members that there are findings about: those at the entries that are taken
out of a list. -/
theorem ordering_reports_items_behind (f : SourceFile) (complete : none ∉ fileItems f) :
    ordering f = some ((itemsBehind f).map fun n =>
      f.findingAt n "Invalid ordering of items in the file") ∧
    (ordering f = some [] ↔ LaidOut f) ∧
    ordering (withoutBehind f) = some [] ∧
    ∀ (rank? : Node → Option Nat) (n : Node),
      (entriesBehind rank? n).filterMap (fun entry => entry.bind (n.children[·]?)) =
        behind rank? (n.list "nodes") := by
  have empty {g : SourceFile} (h : none ∉ fileItems g) : ordering g = some [] ↔ LaidOut g := by
    rw [ordering_eq h, Option.some_inj, List.map_eq_nil_iff, itemsBehind_eq_nil_iff]
  exact ⟨ordering_eq complete, empty complete,
    (empty (complete_withoutBehind complete)).mpr (laidOut_withoutBehind f),
    filterMap_entriesBehind⟩

/-- A contract with a variable behind a function, and behind the contract a directive that belongs to
the top, an error that may stand anywhere and an interface. -/
def mixedFile : SourceFile :=
  .ofBytes "/a.sol" ("contract C \x7bfunction f() external \x7b\x7duint x;\x7d" ++
      "pragma solidity ^0.8.0;error E();interface I \x7b\x7d").toUTF8 (some (.mk
    ⟨7, "SourceUnit", ⟨0, 91, 0⟩, [], [("nodes", [some 0, some 1, some 2, some 3])]⟩
    [.mk ⟨3, "ContractDefinition", ⟨0, 44, 0⟩, [("contractKind", .str "contract")],
        [("nodes", [some 0, some 1])]⟩
      [.mk ⟨1, "FunctionDefinition", ⟨12, 24, 0⟩, [("visibility", .str "external")], []⟩ [],
        .mk ⟨2, "VariableDeclaration", ⟨36, 6, 0⟩, [], []⟩ []],
      .mk ⟨4, "PragmaDirective", ⟨44, 23, 0⟩, [], []⟩ [],
      .mk ⟨5, "ErrorDefinition", ⟨67, 10, 0⟩, [], []⟩ [],
      .mk ⟨6, "ContractDefinition", ⟨77, 14, 0⟩, [("contractKind", .str "interface")], []⟩ []]))

/-- The variable, the directive and the interface are reported; the error and the contract with its
function are left. -/
theorem ordering_reports_items_behind_mixed :
    none ∉ fileItems mixedFile ∧
    (itemsBehind mixedFile).map Node.id = [2, 4, 6] ∧
    ordering mixedFile = some ((itemsBehind mixedFile).map fun n =>
      mixedFile.findingAt n "Invalid ordering of items in the file") ∧
    ¬ LaidOut mixedFile ∧
    (items (withoutBehind mixedFile)).map (fun n => (n.id, n.names "nodes")) = [(3, [""]), (5, [])] ∧
    ordering (withoutBehind mixedFile) = some [] := by
  have complete : none ∉ fileItems mixedFile := by
    simp [fileItems, mixedFile, Node.list?, Node.places?, Node.info, Node.children,
      SourceFile.ofBytes]
  obtain ⟨reported, laidOut, left, -⟩ := ordering_reports_items_behind mixedFile complete
  have found : (itemsBehind mixedFile).map Node.id = [2, 4, 6] := rfl
  refine ⟨complete, found, reported, fun h => ?_, rfl, left⟩
  rw [laidOut.mpr h, Option.some_inj, eq_comm, List.map_eq_nil_iff] at reported
  rw [reported] at found
  cases found

end Rules

end SolidityLint
