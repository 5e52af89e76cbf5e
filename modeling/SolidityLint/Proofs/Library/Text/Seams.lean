import Mathlib.Data.List.DropRight
import SolidityLint.Proofs.Library.Text.Width

/-!
# Text — texts side by side

The width of a text that is put between others is not always its own.  A mark at its front goes to
what stands before it, and a letter at its end that is prepended to the next one takes up what
stands behind it.

* `widthOf_cons_add`, `widthOf_append_add`: what an ordinary character of one column, such as a
  blank, loses to the text behind it and to the one in front of it.
* `widthOf_between_add`: hence the width of a text between blanks.
* `displayWidth_truncate_le`: a text that is cut on the right fits.
-/

namespace SolidityLint

namespace Grapheme

/-- Is the character prepended to the one behind it? -/
def leads (c : Char) : Bool := classOf c == .leadPrepend

/-! ### Where a user-perceived character starts -/

theorem State.joins_of_starts {k : Class} (hk : k = .other ∨ k = .leadPrepend) (s : State) :
    s.joins k = (s.last == .leadPrepend) := by
  obtain ⟨last, pictures, odd⟩ := s
  obtain rfl | rfl := hk <;> cases last <;> rfl

theorem State.joins_of_lead {k : Class} (hk : k = .other ∨ k = .leadPrepend) {s : State}
    (hs : s.last = .leadPrepend) : s.joins k = true := by
  rw [State.joins_of_starts hk, hs]
  rfl

theorem clustersFrom_append {c : Char} (hc : classOf c = .other ∨ classOf c = .leadPrepend)
    (rest cs : List Char) {s : State} {cur : List Char} (hcur : cur ≠ [])
    (apart : (cs.map classOf).getLastD s.last ≠ .leadPrepend) :
    clustersFrom (cs ++ c :: rest) (some s) cur =
      clustersFrom cs (some s) cur ++ clusters (c :: rest) := by
  induction cs generalizing s cur with
  | nil =>
      have breaks : s.joins (classOf c) = false := by
        rw [State.joins_of_starts hc]
        exact beq_eq_false_iff_ne.mpr apart
      have done : clustersFrom [] (some s) cur = [cur.reverse] := if_neg (by simpa using hcur)
      rw [List.nil_append, done, clustersFrom, breaks, if_neg Bool.false_ne_true]
      rfl
  | cons d cs ih =>
      rw [List.map_cons, List.getLastD_cons] at apart
      rw [List.cons_append, clustersFrom, clustersFrom]
      split
      · exact ih (List.cons_ne_nil d cur) apart
      · rw [ih (List.cons_ne_nil d []) apart]
        rfl

/-- An ordinary character or a prepended letter starts a user-perceived character, unless a
prepended letter stands in front of it. -/
theorem clusters_append {c : Char} (hc : classOf c = .other ∨ classOf c = .leadPrepend)
    (rest : List Char) {cs : List Char} (apart : ∀ h : cs ≠ [], ¬ leads (cs.getLast h)) :
    clusters (cs ++ c :: rest) = clusters cs ++ clusters (c :: rest) := by
  cases cs with
  | nil => rfl
  | cons d cs =>
      refine clustersFrom_append hc rest cs (List.cons_ne_nil d []) ?_
      have last := apart (List.cons_ne_nil d cs)
      rw [List.getLast_eq_getLastD] at last
      exact fun same => last (beq_iff_eq.mpr (List.getLastD_map.symm.trans same))

/-! ### Prepended letters -/

theorem clustersFrom_of_leads {lead : List Char} (all : ∀ d ∈ lead, leads d) {s : State}
    (hs : s.last = .leadPrepend) (cs cur : List Char) :
    ∃ t : State, t.last = .leadPrepend ∧
      clustersFrom (lead ++ cs) (some s) cur = clustersFrom cs (some t) (lead.reverse ++ cur) := by
  induction lead generalizing s cur with
  | nil => exact ⟨s, hs, rfl⟩
  | cons d lead ih =>
      obtain ⟨first, rest⟩ := List.forall_mem_cons.mp all
      have hd : classOf d = .leadPrepend := beq_iff_eq.mp first
      obtain ⟨t, ht, eq⟩ := ih rest (s := State.next (some s) (classOf d)) hd (d :: cur)
      refine ⟨t, ht, ?_⟩
      rw [List.cons_append, clustersFrom, if_pos (State.joins_of_lead (.inr hd) hs), eq,
        List.reverse_cons, List.append_assoc]
      rfl

theorem exists_clusters_of_leads {d : Char} {lead : List Char} (all : ∀ e ∈ d :: lead, leads e)
    (cs : List Char) : ∃ t : State, t.last = .leadPrepend ∧
      clusters (d :: lead ++ cs) = clustersFrom cs (some t) (d :: lead).reverse := by
  obtain ⟨first, rest⟩ := List.forall_mem_cons.mp all
  obtain ⟨t, ht, eq⟩ := clustersFrom_of_leads rest (s := State.next none (classOf d))
    (beq_iff_eq.mp first) cs [d]
  exact ⟨t, ht, by rw [List.reverse_cons, ← eq]; rfl⟩

/-- Prepended letters with nothing behind them are one user-perceived character. -/
theorem clusters_of_leads {lead : List Char} (all : ∀ d ∈ lead, leads d) (some : lead ≠ []) :
    clusters lead = [lead] := by
  cases lead with
  | nil => exact absurd rfl some
  | cons d lead =>
      obtain ⟨t, -, eq⟩ := exists_clusters_of_leads all []
      rw [List.append_nil] at eq
      rw [eq, clustersFrom, if_neg (by simp), List.reverse_reverse]

/-- Prepended letters take up an ordinary character behind them, with its marks. -/
theorem clusters_of_leads_other {lead : List Char} (all : ∀ d ∈ lead, leads d) {c : Char}
    (hc : classOf c = .other) (cs : List Char) :
    clusters (lead ++ c :: cs) =
      (lead ++ c :: cs.takeWhile attaches) :: clusters (cs.dropWhile attaches) := by
  cases lead with
  | nil => exact clusters_of_other hc cs
  | cons d lead =>
      obtain ⟨t, ht, eq⟩ := exists_clusters_of_leads all (c :: cs)
      have ordinary : (State.next (some t) (classOf c)).Ordinary := by
        rw [hc]
        exact ⟨.inl rfl, Bool.and_false t.afterPicture⟩
      rw [eq, clustersFrom, if_pos (State.joins_of_lead (.inl hc) ht),
        clustersFrom_of_ordinary ordinary cs (List.cons_ne_nil c _)]
      simp

/-! ### Marks at the front -/

theorem clusters_eq_marks_cons {cs : List Char} (some : cs.takeWhile attaches ≠ []) :
    clusters cs = cs.takeWhile attaches :: clusters (cs.dropWhile attaches) := by
  cases cs with
  | nil => exact absurd rfl some
  | cons c cs =>
      have mark : attaches c = true := by
        by_contra other
        exact some (List.takeWhile_cons_of_neg other)
      have ordinary : (State.next none (classOf c)).Ordinary := by
        refine ⟨.inr mark, ?_⟩
        cases hc : classOf c <;> first | rfl | (rw [attaches, hc] at mark; cases mark)
      rw [List.takeWhile_cons_of_pos mark, List.dropWhile_cons_of_pos mark]
      exact clustersFrom_of_ordinary ordinary cs (List.cons_ne_nil c [])

/-! ### A part of the user-perceived characters -/

theorem clustersFrom_take {cs : List Char} {s : State} {cur : List Char} (hcur : cur ≠ [])
    {front back : List (List Char)} (hfront : front ≠ [])
    (h : clustersFrom cs (some s) cur = front ++ back) :
    ∃ n, front.flatten = cur.reverse ++ cs.take n ∧ clustersFrom (cs.take n) (some s) cur = front := by
  induction cs generalizing s cur front with
  | nil =>
      rw [clustersFrom, if_neg (by simpa using hcur)] at h
      obtain ⟨rfl, -⟩ | ⟨rfl, -⟩ := List.singleton_eq_append_iff.mp h
      · exact absurd rfl hfront
      · exact ⟨0, by simp, by simp [clustersFrom, hcur]⟩
  | cons d cs ih =>
      rw [clustersFrom] at h
      split at h
      · rename_i joins
        obtain ⟨n, flat, eq⟩ := ih (List.cons_ne_nil d cur) hfront h
        refine ⟨n + 1, by rw [flat]; simp, ?_⟩
        rw [List.take_succ_cons, clustersFrom, if_pos joins, eq]
      · rename_i breaks
        obtain ⟨first, front, rfl⟩ := List.exists_cons_of_ne_nil hfront
        obtain ⟨rfl, later⟩ := List.cons.inj h
        by_cases more : front = []
        · subst more
          exact ⟨0, by simp, by simp [clustersFrom, hcur]⟩
        · obtain ⟨n, flat, eq⟩ := ih (List.cons_ne_nil d []) more later
          refine ⟨n + 1, by rw [List.flatten_cons, flat]; simp, ?_⟩
          rw [List.take_succ_cons, clustersFrom, if_neg breaks, eq]

/-- The first user-perceived characters of a text are those of a text of their own. -/
theorem clusters_flatten {cs : List Char} {front back : List (List Char)}
    (h : clusters cs = front ++ back) : clusters front.flatten = front := by
  by_cases some : front = []
  · subst some
    rfl
  · cases cs with
    | nil => exact absurd (List.append_eq_nil_iff.mp h.symm).1 some
    | cons c cs =>
        obtain ⟨n, flat, eq⟩ := clustersFrom_take (List.cons_ne_nil c []) some h
        rw [flat]
        exact eq

end Grapheme

open Grapheme

/-! ### Widths -/

theorem clusterWidth_append (front back : List Char) :
    clusterWidth (front ++ back) =
      if clusterWidth front = 0 then clusterWidth back else clusterWidth front := by
  unfold clusterWidth
  rw [List.map_append, List.find?_append]
  cases h : (front.map columnsOf).find? (0 < ·) with
  | none => rfl
  | some n =>
      have positive : 0 < n := by simpa using List.find?_some h
      exact (if_neg (Nat.ne_of_gt positive)).symm

theorem clusterWidth_cons_of_pos {c : Char} (hc : 0 < columnsOf c) (cs : List Char) :
    clusterWidth (c :: cs) = columnsOf c := by
  rw [clusterWidth, List.map_cons, List.find?_cons_of_pos (by simpa using hc)]
  rfl

theorem widthOf_append_clusters {cs front back : List Char}
    (h : clusters cs = clusters front ++ clusters back) :
    widthOf cs = widthOf front + widthOf back := by
  rw [widthOf, h, List.map_append, sumOf_append]
  rfl

/-- The marks at the front of a text are a user-perceived character of their own. -/
theorem widthOf_eq_marks_add (cs : List Char) :
    widthOf cs = clusterWidth (cs.takeWhile attaches) + widthOf (cs.dropWhile attaches) := by
  by_cases none : cs.takeWhile attaches = []
  · have same := List.takeWhile_append_dropWhile (p := attaches) (l := cs)
    rw [none, List.nil_append] at same
    rw [none, same]
    exact (Nat.zero_add _).symm
  · rw [widthOf, clusters_eq_marks_cons none]
    rfl

theorem widthOf_cons {c : Char} (hc : classOf c = .other) (column : columnsOf c = 1)
    (cs : List Char) : widthOf (c :: cs) = 1 + widthOf (cs.dropWhile attaches) := by
  rw [widthOf, clusters_of_other hc, List.map_cons, sumOf,
    clusterWidth_cons_of_pos (by rw [column]; exact Nat.one_pos), column]
  rfl

/-- Behind an ordinary character of one column, a text loses the columns of the marks at its
front. -/
theorem widthOf_cons_add {c : Char} (hc : classOf c = .other) (column : columnsOf c = 1)
    (cs : List Char) :
    widthOf (c :: cs) + clusterWidth (cs.takeWhile attaches) = 1 + widthOf cs := by
  rw [widthOf_cons hc column, widthOf_eq_marks_add cs]
  omega

theorem widthOf_of_leads {lead : List Char} (all : ∀ d ∈ lead, leads d) :
    widthOf lead = clusterWidth lead := by
  by_cases none : lead = []
  · subst none
    rfl
  · rw [widthOf, clusters_of_leads all none]
    rfl

theorem widthOf_leads_append_add {lead : List Char} (all : ∀ d ∈ lead, leads d) {c : Char}
    (hc : classOf c = .other) (column : columnsOf c = 1) (rest : List Char) :
    widthOf (lead ++ c :: rest) + min 1 (clusterWidth lead) =
      clusterWidth lead + widthOf (c :: rest) := by
  have wide : 0 < columnsOf c := by rw [column]; exact Nat.one_pos
  have joined : widthOf (lead ++ c :: rest) =
      (if clusterWidth lead = 0 then 1 else clusterWidth lead)
        + widthOf (rest.dropWhile attaches) := by
    rw [widthOf, clusters_of_leads_other all hc, List.map_cons, sumOf, clusterWidth_append,
      clusterWidth_cons_of_pos wide, column]
    rfl
  rw [joined, widthOf_cons hc column]
  split <;> omega

/-- In front of an ordinary character of one column, a text loses a column if the prepended letters
at its end take any. -/
theorem widthOf_append_add {c : Char} (hc : classOf c = .other) (column : columnsOf c = 1)
    (cs rest : List Char) :
    widthOf (cs ++ c :: rest) + min 1 (clusterWidth (cs.rtakeWhile leads)) =
      widthOf cs + widthOf (c :: rest) := by
  obtain ⟨front, lead, hfront, hlead⟩ :
      ∃ front lead, front = cs.rdropWhile leads ∧ lead = cs.rtakeWhile leads := ⟨_, _, rfl, rfl⟩
  have split : cs = front ++ lead := by
    rw [hfront, hlead, List.rdropWhile_append_rtakeWhile]
  have apart : ∀ h : front ≠ [], ¬ leads (front.getLast h) := by
    subst hfront
    exact List.rdropWhile_last_not leads cs
  have all : ∀ d ∈ lead, leads d := by
    subst hlead
    exact fun d => List.mem_rtakeWhile_imp
  have joined := widthOf_leads_append_add all hc column rest
  rw [← hlead, split, List.append_assoc]
  cases lead with
  | nil =>
      rw [List.nil_append, List.append_nil,
        widthOf_append_clusters (clusters_append (.inl hc) rest apart)]
      rfl
  | cons d lead =>
      have hd : classOf d = .leadPrepend := beq_iff_eq.mp (all d List.mem_cons_self)
      have alone := widthOf_append_clusters (clusters_append (.inr hd) lead apart)
      have before := widthOf_append_clusters (clusters_append (.inr hd) (lead ++ c :: rest) apart)
      rw [List.cons_append, before, alone, widthOf_of_leads all]
      rw [List.cons_append] at joined
      omega

/-! ### Printable characters of ASCII -/

/-- Printable characters of ASCII take one column each. -/
theorem widthOf_of_printable {cs : List Char} (h : ∀ c ∈ cs, PrintableAscii c) :
    widthOf cs = cs.length := by
  induction cs with
  | nil => rfl
  | cons c cs ih =>
      obtain ⟨first, rest⟩ := List.forall_mem_cons.mp h
      have none : cs.dropWhile attaches = cs := by
        cases cs with
        | nil => rfl
        | cons d cs =>
            have other : ¬ attaches d := by
              rw [attaches, (characterLaws.printable (rest d List.mem_cons_self)).1]
              decide
            exact List.dropWhile_cons_of_neg other
      obtain ⟨other, column⟩ := characterLaws.printable first
      rw [widthOf_cons other column, none, ih rest, List.length_cons]
      omega

/-! ### Between blanks -/

theorem classOf_blank : classOf ' ' = .other :=
  (characterLaws.printable ⟨by decide, by decide⟩).1

theorem columnsOf_blank : columnsOf ' ' = 1 := (characterLaws.printable ⟨by decide, by decide⟩).2

theorem widthOf_blank_blank (cs : List Char) : widthOf (' ' :: ' ' :: cs) = 1 + widthOf (' ' :: cs) := by
  have other : ¬ attaches ' ' := by rw [attaches, classOf_blank]; decide
  rw [widthOf_cons classOf_blank columnsOf_blank, List.dropWhile_cons_of_neg other]

theorem widthOf_blanks_append (n : Nat) (cs : List Char) :
    widthOf (List.replicate n ' ' ++ ' ' :: cs) = n + widthOf (' ' :: cs) := by
  have apart : (' ' :: cs).takeWhile attaches = [] :=
    List.takeWhile_cons_of_neg (by rw [attaches, classOf_blank]; decide)
  rw [widthOf_replicate_append classOf_blank apart, columnsOf_blank, Nat.mul_one]

theorem rtakeWhile_blank_cons (cs : List Char) :
    (' ' :: cs).rtakeWhile leads = cs.rtakeWhile leads := by
  have other : leads ' ' = false := by rw [leads, classOf_blank]; rfl
  rw [List.rtakeWhile, List.rtakeWhile, List.reverse_cons, List.takeWhile_append]
  split
  · rename_i all
    rw [List.takeWhile_cons_of_neg (by simp [other]), List.append_nil,
      (List.takeWhile_prefix leads).eq_of_length all]
  · rfl

/-- Between blanks, a text loses the columns of the marks at its front, and one more if the
prepended letters at its end take any. -/
theorem widthOf_between_add (cs : List Char) (n : Nat) (rest : List Char) :
    widthOf (' ' :: (cs ++ List.replicate n ' ' ++ ' ' :: rest))
        + clusterWidth (cs.takeWhile attaches) + min 1 (clusterWidth (cs.rtakeWhile leads)) =
      1 + widthOf cs + n + widthOf (' ' :: rest) := by
  have shifted : List.replicate n ' ' ++ ' ' :: rest = ' ' :: (List.replicate n ' ' ++ rest) := by
    rw [List.append_cons, ← List.replicate_succ', List.replicate_succ, List.cons_append]
  have behind := widthOf_append_add classOf_blank columnsOf_blank (' ' :: cs)
    (List.replicate n ' ' ++ rest)
  have before := widthOf_cons_add classOf_blank columnsOf_blank cs
  rw [rtakeWhile_blank_cons, ← shifted, widthOf_blanks_append] at behind
  rw [List.append_assoc, ← List.cons_append]
  omega

/-- Behind a blank and with blanks to the end, the prepended letters lose nothing if there are
none. -/
theorem widthOf_behind_add (cs : List Char) (n : Nat) :
    widthOf (' ' :: (cs ++ List.replicate n ' ')) + clusterWidth (cs.takeWhile attaches)
        + (if n = 0 then 0 else min 1 (clusterWidth (cs.rtakeWhile leads))) =
      1 + widthOf cs + n := by
  cases n with
  | zero =>
      have before := widthOf_cons_add classOf_blank columnsOf_blank cs
      rw [List.replicate_zero, List.append_nil, if_pos rfl]
      exact before
  | succ n =>
      have between := widthOf_between_add cs n []
      have blank : widthOf [' '] = 1 := widthOf_cons classOf_blank columnsOf_blank []
      rw [List.append_assoc, ← List.replicate_succ', blank] at between
      rw [if_neg (Nat.succ_ne_zero n)]
      exact between

/-! ### Texts that are cut -/

theorem fitting_prefix (room : Nat) (cs : List (List Char)) : fitting room cs <+: cs := by
  induction cs generalizing room with
  | nil => exact List.prefix_rfl
  | cons c cs ih =>
      rw [fitting]
      split
      · exact List.cons_prefix_cons.mpr ⟨rfl, ih _⟩
      · exact List.nil_prefix

theorem sumOf_fitting_le (room : Nat) (cs : List (List Char)) :
    sumOf ((fitting room cs).map clusterWidth) ≤ room := by
  induction cs generalizing room with
  | nil => exact Nat.zero_le room
  | cons c cs ih =>
      rw [fitting]
      split
      · rename_i fits
        have rest := ih (room - clusterWidth c)
        rw [List.map_cons, sumOf]
        omega
      · exact Nat.zero_le room

theorem widthOf_fitting_le (room : Nat) (cs : List Char) :
    widthOf (fitting room (clusters cs)).flatten ≤ room := by
  obtain ⟨back, eq⟩ := fitting_prefix room (clusters cs)
  rw [widthOf, clusters_flatten eq.symm]
  exact sumOf_fitting_le room _

/-- A text that is cut on the right keeps its front. -/
theorem truncate_cases (width : Nat) (tail s : String) :
    truncate width tail s = s ∨
      ∃ front, front <+: s.toList ∧ truncate width tail s = String.ofList front ++ tail := by
  rw [truncate]
  split
  · exact .inl rfl
  · obtain ⟨back, eq⟩ := fitting_prefix (width - displayWidth tail) (clusters s.toList)
    refine .inr ⟨_, ⟨back.flatten, ?_⟩, rfl⟩
    rw [← List.flatten_append, eq, flatten_clusters]

/-- A text that is cut on the right fits, if what stands for the rest of it does and starts with an
ordinary character of one column. -/
theorem displayWidth_truncate_le {width : Nat} {tail : String} (room : displayWidth tail ≤ width)
    (starts : ∀ c cs, tail.toList = c :: cs → classOf c = .other ∧ columnsOf c = 1) (s : String) :
    displayWidth (truncate width tail s) ≤ width := by
  rw [truncate]
  split
  · assumption
  have kept := widthOf_fitting_le (width - displayWidth tail) s.toList
  rw [displayWidth, String.toList_append, String.toList_ofList]
  cases htail : tail.toList with
  | nil =>
      rw [List.append_nil]
      omega
  | cons c cs =>
      obtain ⟨other, column⟩ := starts c cs htail
      have seam := widthOf_append_add other column
        (fitting (width - displayWidth tail) (clusters s.toList)).flatten cs
      have whole : displayWidth tail = widthOf (c :: cs) := congrArg widthOf htail
      omega

end SolidityLint
