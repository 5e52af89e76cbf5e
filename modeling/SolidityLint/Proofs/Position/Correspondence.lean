import SolidityLint.Proofs.Position.Order

/-!
# Position — positions and offsets correspond

The offsets from zero to the length of a source have positions of their own, in the same order
(`before_positionAt`); the end of the source has one too, which the scan for a position never
comes to but where it ends.  So a scan takes each of these positions back to its offset
(`indexOfPosition_positionAt`), and every other one to the end.

* `positions_correspond_to_offsets`: both ways, and that asking for a position in a span and in the
  range of the span come to the same.
-/

namespace SolidityLint

/-! ### Positions of offsets -/

theorem clampOffset_ofNat {i size : Nat} (hi : i ≤ size) (fits : size < 2 ^ 63) :
    clampOffset (Int64.ofNat i) size = i := by
  rw [clampOffset, Int64.toInt_ofNat_of_lt (Nat.lt_of_le_of_lt hi fits), Int.toNat_natCast]
  exact Nat.min_eq_left hi

/-- The position of an offset in the source. -/
def positionAt (source : List UInt8) (i : Nat) : Position := positionOfIndex (Int64.ofNat i) source

section

variable {source : List UInt8} (fits : source.length < 2 ^ 63 - 1)

include fits

theorem positionAt_eq {i : Nat} (hi : i ≤ source.length) :
    positionAt source i = .ofNat (coordinates source i).1 (coordinates source i).2 := by
  rw [positionAt, positionOfIndex_eq, clampOffset_ofNat hi (by omega)]

/-- The coordinates of an offset are words. -/
theorem coordinates_fit {i : Nat} (hi : i ≤ source.length) :
    (coordinates source i).1 < 2 ^ 63 ∧ (coordinates source i).2 < 2 ^ 63 := by
  have := scan_le source i 1 1
  unfold coordinates
  omega

/-- The offsets in a source and their positions have the same order. -/
theorem before_positionAt {i j : Nat} (hi : i ≤ source.length) (hj : j ≤ source.length) :
    (positionAt source i).before (positionAt source j) ↔ i < j := by
  obtain ⟨linei, characteri⟩ := coordinates_fit fits hi
  obtain ⟨linej, characterj⟩ := coordinates_fit fits hj
  rw [positionAt_eq fits hi, positionAt_eq fits hj,
    Position.before_ofNat linei characteri linej characterj]
  rcases Nat.lt_or_ge i j with lt | ge
  · have := coordinates_lt lt hj
    omega
  · have := coordinates_le ge hi
    omega

/-- A position with the coordinates of an offset is the position of the offset. -/
theorem is_iff_eq_positionAt {p : Position} {i : Nat} (hi : i ≤ source.length) :
    p.Is (coordinates source i) ↔ p = positionAt source i := by
  obtain ⟨line, character⟩ := coordinates_fit fits hi
  rw [positionAt_eq fits hi, Position.Is, Position.ofNat, Position.mk.injEq, ← Int64.toInt_inj,
    ← Int64.toInt_inj, Int64.toInt_ofNat_of_lt line, Int64.toInt_ofNat_of_lt character]
  exact and_congr eq_comm eq_comm

theorem positionAt_inj {i j : Nat} (hi : i ≤ source.length) (hj : j ≤ source.length)
    (same : positionAt source i = positionAt source j) : i = j := by
  have ij := before_positionAt fits hi hj
  have ji := before_positionAt fits hj hi
  have self := before_positionAt fits hj hj
  rw [same, self] at ij ji
  omega

/-- **Back to the offset.** -/
theorem indexOfPosition_positionAt {i : Nat} (hi : i ≤ source.length) :
    indexOfPosition (positionAt source i) source = i := by
  rcases Nat.lt_or_eq_of_le hi with lt | rfl
  · exact indexOfPosition_of_coordinates lt ((is_iff_eq_positionAt fits hi).mpr rfl)
  · -- No byte has the position of the end, so the scan runs through to it.
    refine indexOfPosition_of_ne fun k lt is => ?_
    have same := (is_iff_eq_positionAt fits (Nat.le_of_lt lt)).mp is
    exact Nat.ne_of_gt lt (positionAt_inj fits hi (Nat.le_of_lt lt) same)

theorem indexOfPosition_of_forall_ne {p : Position}
    (h : ∀ i ≤ source.length, p ≠ positionAt source i) :
    indexOfPosition p source = source.length :=
  indexOfPosition_of_ne fun k lt is =>
    h k (Nat.le_of_lt lt) ((is_iff_eq_positionAt fits (Nat.le_of_lt lt)).mp is)

end

theorem positionOfIndex_eq_positionAt {o : Int64} (nonneg : 0 ≤ o) (source : List UInt8) :
    positionOfIndex o source = positionAt source o.toInt.toNat := by
  rw [Int64.le_iff_toInt_le, Int64.toInt_zero] at nonneg
  rw [positionAt, ← Int64.ofInt_eq_ofNat, Int.toNat_of_nonneg nonneg, Int64.ofInt_toInt]

/-! ### Spans inside the source -/

/-- The span lies in a source of a size. -/
structure Span.InSource (s : Span) (size : Nat) : Prop where
  offset : 0 ≤ s.offset
  length : 0 ≤ s.length
  stop : s.offset.toInt + s.length.toInt ≤ size

namespace Span.InSource

variable {s : Span} {size : Nat}

theorem toInt_stop (h : s.InSource size) (fits : size < 2 ^ 63) :
    s.stop.toInt = s.offset.toInt + s.length.toInt := by
  have start := Int64.le_iff_toInt_le.mp h.offset
  have length := Int64.le_iff_toInt_le.mp h.length
  have stop := h.stop
  rw [Int64.toInt_zero] at start length
  rw [Span.stop, Int64.toInt_add, Int.bmod_eq_of_le (by omega) (by omega)]

end Span.InSource

namespace LineIndex

variable {l : LineIndex} (fits : l.size < 2 ^ 63 - 1) {s : Span} (inside : s.InSource l.size)

include fits inside

/-- The ends of the range of a span in the source are the positions of the ends of the span. -/
theorem range_eq : ∃ i j : Nat, i ≤ j ∧ j ≤ l.size ∧ s.offset.toInt = i ∧ s.stop.toInt = j ∧
    l.range s = ⟨positionAt l.source i, positionAt l.source j⟩ := by
  have stop := inside.toInt_stop (by omega)
  have start := Int64.le_iff_toInt_le.mp inside.offset
  have length := Int64.le_iff_toInt_le.mp inside.length
  have last := inside.stop
  rw [Int64.toInt_zero] at start length
  have nonneg : 0 ≤ s.stop := by
    rw [Int64.le_iff_toInt_le, Int64.toInt_zero]
    omega
  refine ⟨s.offset.toInt.toNat, s.stop.toInt.toNat, by omega, by omega, by omega, by omega, ?_⟩
  rw [range, position_eq, position_eq, positionOfIndex_eq_positionAt inside.offset,
    positionOfIndex_eq_positionAt nonneg]

/-- The range of a span does not start behind its end. -/
theorem not_stop_before_start : ¬ (l.range s).stop.before (l.range s).start := by
  obtain ⟨i, j, le, hj, -, -, range⟩ := range_eq fits inside
  have fits : l.source.length < 2 ^ 63 - 1 := fits
  rw [range, before_positionAt fits hj (Nat.le_trans le hj)]
  exact Nat.not_lt.mpr le

/-- **In the span and in its range.** -/
theorem covers_iff_contains {k : Nat} (hk : k ≤ l.size) :
    s.covers (positionAt l.source k) l.source ↔ (l.range s).contains (positionAt l.source k) := by
  obtain ⟨i, j, le, hj, start, stop, range⟩ := range_eq fits inside
  have hi : i ≤ l.size := Nat.le_trans le hj
  have fits : l.source.length < 2 ^ 63 - 1 := fits
  have behind := before_positionAt fits hk hi
  have ahead := before_positionAt fits hj hk
  rw [range, Span.covers, indexOfPosition_positionAt fits hk, Range.contains]
  simp only [Bool.and_eq_true, decide_eq_true_eq, Bool.not_eq_true', ← Bool.not_eq_true, behind,
    ahead, Int64.le_iff_toInt_le, start, stop, Int64.toInt_ofNat_of_lt (show k < 2 ^ 63 by omega)]
  omega

end LineIndex

/-- **Positions and offsets correspond.**  In every source that fits in memory, its end included,
offsets and their positions have the same order, and the scan for a position gives back the offset;
any other position it takes to the end.  So for a span in the source a position of an offset falls
within the span exactly if its range contains the position, and that range does not start behind its
end. -/
theorem positions_correspond_to_offsets (l : LineIndex) (fits : l.size < 2 ^ 63 - 1) :
    (∀ i j, i ≤ l.size → j ≤ l.size →
      ((positionAt l.source i).before (positionAt l.source j) ↔ i < j)) ∧
    (∀ i ≤ l.size, indexOfPosition (positionAt l.source i) l.source = i) ∧
    (∀ p, (∀ i ≤ l.size, p ≠ positionAt l.source i) → indexOfPosition p l.source = l.size) ∧
    ∀ s : Span, s.InSource l.size →
      ¬ (l.range s).stop.before (l.range s).start ∧
      ∀ i ≤ l.size, (s.covers (positionAt l.source i) l.source ↔
        (l.range s).contains (positionAt l.source i)) :=
  ⟨fun _ _ => before_positionAt fits, fun _ => indexOfPosition_positionAt fits,
    fun _ => indexOfPosition_of_forall_ne fits, fun _ inside =>
      ⟨LineIndex.not_stop_before_start fits inside,
        fun _ => LineIndex.covers_iff_contains fits inside⟩⟩

/-- The newline of the first line has a column of its own, and so has the end of the source. -/
theorem positions_correspond_to_offsets_twoLines :
    twoLines.size < 2 ^ 63 - 1 ∧ positionAt twoLines.source 2 = ⟨1, 3⟩ ∧
    indexOfPosition ⟨1, 3⟩ twoLines.source = 2 ∧ positionAt twoLines.source 5 = ⟨2, 3⟩ ∧
    indexOfPosition ⟨2, 3⟩ twoLines.source = 5 ∧ indexOfPosition ⟨1, 4⟩ twoLines.source = 5 ∧
    (Span.mk 1 3 (-1)).InSource twoLines.size ∧
    (twoLines.range ⟨1, 3, -1⟩).contains ⟨1, 3⟩ := by
  have fits : twoLines.size < 2 ^ 63 - 1 := by decide
  have newlineAt : positionAt twoLines.source 2 = ⟨1, 3⟩ := rfl
  have endAt : positionAt twoLines.source 5 = ⟨2, 3⟩ := rfl
  have inside : (Span.mk 1 3 (-1)).InSource twoLines.size :=
    ⟨by decide, by decide, by decide⟩
  obtain ⟨-, back, others, spans⟩ := positions_correspond_to_offsets twoLines fits
  have other : ∀ i ≤ twoLines.size, (⟨1, 4⟩ : Position) ≠ positionAt twoLines.source i := by
    decide
  have covered : (Span.mk 1 3 (-1)).covers (positionAt twoLines.source 2) twoLines.source :=
    rfl
  refine ⟨fits, newlineAt, newlineAt ▸ back 2 (by decide), endAt, endAt ▸ back 5 (by decide),
    others _ other, inside, ?_⟩
  have contained := ((spans _ inside).2 2 (by decide)).mp covered
  rwa [newlineAt] at contained

end SolidityLint
