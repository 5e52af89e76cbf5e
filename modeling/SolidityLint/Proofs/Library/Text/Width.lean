import Mathlib.Data.List.TakeWhile
import SolidityLint.Library.Text.Width

/-!
# Text — the width of a piece

Width goes by user-perceived characters, so that of a piece is not that of the text less what was
cut off: marks at the front of the piece go to what is put before it.

The tables of characters are those of a terminal, and large.  Theorems about layout look up in them
what `CharacterLaws` says, and nothing else: they hold for any tables that keep these laws.

* `characterLaws`: ours do.
* `Grapheme.clusters_of_other`: an ordinary character takes the marks behind it, and what follows
  them is cut as if it stood alone.
* `widthOf_le`: a text is at most as wide as its characters together.
* `displayWidth_ellipsis_append`: an ellipsis takes one column, and the marks behind it none.
-/

namespace SolidityLint

/-! ### The tables of characters -/

/-- The character is a printable one of ASCII. -/
def PrintableAscii (c : Char) : Prop := 0x20 ≤ c.toNat ∧ c.toNat < 0x7F

/-- What theorems about layout rely on of the tables that give a character its class and its
columns. -/
structure CharacterLaws (classOf : Char → Grapheme.Class) (columnsOf : Char → Nat) : Prop where
  /-- A printable character of ASCII is an ordinary one of one column. -/
  printable : ∀ {c : Char}, PrintableAscii c → classOf c = .other ∧ columnsOf c = 1
  /-- No character of ASCII takes more. -/
  ascii : ∀ {c : Char}, c.toNat < 0x80 → columnsOf c ≤ 1
  /-- An ellipsis is an ordinary character of one column. -/
  ellipsis : classOf '…' = .other ∧ columnsOf '…' = 1

theorem classOf_of_printable {c : Char} (h : PrintableAscii c) : Grapheme.classOf c = .other := by
  obtain ⟨low, high⟩ := h
  have noReturn : (c.toNat == 0x0D) = false := by simp; omega
  have noNewline : (c.toNat == 0x0A) = false := by simp; omega
  simp only [Grapheme.classOf, noReturn, noNewline, Nat.not_lt.mpr low, high, if_true, if_false,
    Bool.false_eq_true]

theorem columnsOf_of_printable {c : Char} (h : PrintableAscii c) : columnsOf c = 1 := by
  have printable : (decide (0x20 ≤ c.toNat) && decide (c.toNat < 0x7F)) = true := by
    simpa [PrintableAscii] using h
  rw [columnsOf]
  exact if_pos printable

theorem columnsOf_of_ascii {c : Char} (h : c.toNat < 0x80) : columnsOf c ≤ 1 := by
  have all : ∀ n < 0x80, columnsOf (Char.ofNat n) ≤ 1 := by decide +kernel
  have here := all c.toNat h
  rwa [Char.ofNat_toNat] at here

/-- **The tables keep the laws.** -/
theorem characterLaws : CharacterLaws Grapheme.classOf columnsOf where
  printable h := ⟨classOf_of_printable h, columnsOf_of_printable h⟩
  ascii := columnsOf_of_ascii
  ellipsis := by decide +kernel

namespace Grapheme

/-! ### Marks behind an ordinary character -/

/-- Marks and joiners, which stay with an ordinary character before them. -/
def Class.attaches : Class → Bool
  | .extend | .joiner | .spacingMark => true
  | _ => false

/-- Does a character stay with an ordinary one before it? -/
def attaches (c : Char) : Bool := (classOf c).attaches

/-- An ordinary character has been read, with marks behind it. -/
structure State.Ordinary (s : State) : Prop where
  last : s.last = .other ∨ s.last.attaches
  afterPicture : s.afterPicture = false

theorem State.Ordinary.joins {s : State} (h : s.Ordinary) (k : Class) : s.joins k = k.attaches := by
  obtain ⟨last, pictures, odd⟩ := s
  obtain ⟨hlast, rfl⟩ : (last = .other ∨ last.attaches) ∧ pictures = false := ⟨h.last, h.afterPicture⟩
  rcases hlast with rfl | hlast
  · cases k <;> rfl
  · cases last with
    | extend | joiner | spacingMark => cases k <;> rfl
    | _ => cases hlast

theorem State.Ordinary.next {s : State} (h : s.Ordinary) {k : Class} (hk : k.attaches) :
    (State.next (some s) k).Ordinary := by
  refine ⟨.inr hk, ?_⟩
  have picture : (k == .picture) = false := by cases k <;> first | rfl | cases hk
  simp [State.next, picture, h.afterPicture]

theorem clustersFrom_of_ordinary {s : State} (h : s.Ordinary) (cs : List Char) {cur : List Char}
    (hcur : cur ≠ []) :
    clustersFrom cs (some s) cur =
      (cur.reverse ++ cs.takeWhile attaches) :: clusters (cs.dropWhile attaches) := by
  induction cs generalizing s cur with
  | nil => simp [clustersFrom, clusters, hcur]
  | cons c cs ih =>
      rw [clustersFrom, h.joins]
      cases hc : (classOf c).attaches with
      | true =>
          have mark : attaches c = true := hc
          rw [if_pos rfl, ih (h.next hc) (List.cons_ne_nil c cur)]
          simp [mark]
      | false =>
          have other : attaches c = false := hc
          rw [if_neg Bool.false_ne_true, List.takeWhile_cons_of_neg (by simp [other]),
            List.dropWhile_cons_of_neg (by simp [other]), List.append_nil]
          rfl

/-- An ordinary character and the marks behind it are one user-perceived character. -/
theorem clusters_of_other {c : Char} (hc : classOf c = .other) (cs : List Char) :
    clusters (c :: cs) = (c :: cs.takeWhile attaches) :: clusters (cs.dropWhile attaches) := by
  have ordinary : (State.next none (classOf c)).Ordinary := by
    rw [hc]
    exact ⟨.inl rfl, rfl⟩
  exact clustersFrom_of_ordinary ordinary cs (List.cons_ne_nil c [])

/-! ### All characters are there -/

theorem flatten_clustersFrom (cs : List Char) (s : State) (cur : List Char) :
    (clustersFrom cs (some s) cur).flatten = cur.reverse ++ cs := by
  induction cs generalizing s cur with
  | nil => cases cur <;> simp [clustersFrom]
  | cons c cs ih =>
      rw [clustersFrom]
      cases s.joins (classOf c) with
      | true => rw [if_pos rfl, ih]; simp
      | false => rw [if_neg Bool.false_ne_true, List.flatten_cons, ih]; simp

/-- The user-perceived characters of a text are the text. -/
theorem flatten_clusters (cs : List Char) : (clusters cs).flatten = cs := by
  cases cs with
  | nil => rfl
  | cons c cs => exact flatten_clustersFrom cs _ [c]

end Grapheme

open Grapheme

/-! ### Widths -/

theorem clusterWidth_le (cluster : List Char) : clusterWidth cluster ≤ sumOf (cluster.map columnsOf) := by
  unfold clusterWidth
  cases h : (cluster.map columnsOf).find? (0 < ·) with
  | none => exact Nat.zero_le _
  | some n => exact le_sumOf_of_mem (List.mem_of_find?_eq_some h)

/-- A text is at most as wide as its characters together. -/
theorem widthOf_le (cs : List Char) : widthOf cs ≤ sumOf (cs.map columnsOf) := by
  have each (clusters : List (List Char)) :
      sumOf (clusters.map clusterWidth) ≤ sumOf (clusters.flatten.map columnsOf) := by
    induction clusters with
    | nil => exact Nat.le_refl _
    | cons cl clusters ih =>
        rw [List.flatten_cons, List.map_append, sumOf_append, List.map_cons, sumOf]
        exact Nat.add_le_add (clusterWidth_le cl) ih
  have h := each (clusters cs)
  rwa [flatten_clusters] at h

/-- Narrow characters give a text at most as wide as it is long. -/
theorem widthOf_le_length {cs : List Char} (narrow : ∀ c ∈ cs, columnsOf c ≤ 1) :
    widthOf cs ≤ cs.length := by
  refine Nat.le_trans (widthOf_le cs) ?_
  induction cs with
  | nil => exact Nat.le_refl _
  | cons c cs ih =>
      obtain ⟨first, rest⟩ := List.forall_mem_cons.mp narrow
      have := ih rest
      rw [List.map_cons, sumOf, List.length_cons]
      omega

/-- The columns of a run of one ordinary character add up. -/
theorem widthOf_replicate_append {c : Char} (hc : classOf c = .other) {cs : List Char}
    (apart : cs.takeWhile attaches = []) (n : Nat) :
    widthOf (List.replicate n c ++ cs) = n * columnsOf c + widthOf cs := by
  have plain : attaches c = false := by
    rw [attaches, hc]
    rfl
  have own : clusterWidth [c] = columnsOf c := by
    by_cases none : columnsOf c = 0 <;> simp [clusterWidth, none, Nat.pos_iff_ne_zero]
  induction n with
  | zero => simp
  | succ n ih =>
      have none : (List.replicate n c ++ cs).takeWhile attaches = [] := by
        cases n with
        | zero => exact apart
        | succ n => simp [List.replicate_succ, plain]
      have all := List.takeWhile_append_dropWhile (p := attaches) (l := List.replicate n c ++ cs)
      rw [none, List.nil_append] at all
      rw [List.replicate_succ, List.cons_append, widthOf, clusters_of_other hc, none, all,
        List.map_cons, sumOf, own, Nat.succ_mul, Nat.add_right_comm, ← ih, Nat.add_comm]
      rfl

/-- An ellipsis in front of a piece takes one column, and the marks at the front of the piece none. -/
theorem displayWidth_ellipsis_append (cs : List Char) :
    displayWidth ("…" ++ String.ofList cs) = 1 + widthOf (cs.dropWhile attaches) := by
  obtain ⟨other, column⟩ := characterLaws.ellipsis
  have chars : ("…" ++ String.ofList cs).toList = '…' :: cs := by simp
  rw [displayWidth, chars, widthOf, clusters_of_other other, List.map_cons, sumOf, clusterWidth,
    List.map_cons, column]
  rfl

end SolidityLint
