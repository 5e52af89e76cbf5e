import SolidityLint.Proofs.Position.LineIndex

/-!
# Position — positions follow offsets

A scan that goes on from a place never comes to an earlier one, so of two offsets the larger does
not have the earlier position (`LineIndex.not_before_of_le`).  Lines and characters are words; they
count up to one more than the bytes of the source, which therefore has to leave room for that.
-/

namespace SolidityLint

/-! ### Scanning on -/

/-- A scan can be taken up where it was left. -/
theorem scan_add (bs : List UInt8) (m k line character : Nat) :
    scan bs (m + k) line character =
      scan (bs.drop m) k (scan bs m line character).1 (scan bs m line character).2 := by
  induction bs generalizing m line character with
  | nil => simp [scan]
  | cons b bs ih =>
      cases m with
      | zero => simp
      | succ m =>
          rw [Nat.add_right_comm, scan, scan, List.drop_succ_cons]
          split
          · exact ih m (line + 1) 1
          · exact ih m line (character + 1)

/-- A scan counts no more lines and characters than bytes. -/
theorem scan_le (bs : List UInt8) (m line character : Nat) :
    (scan bs m line character).1 ≤ line + m ∧
      (scan bs m line character).2 ≤ max 1 character + m := by
  induction bs generalizing m line character with
  | nil => simp only [scan]; omega
  | cons b bs ih =>
      cases m with
      | zero => simp only [scan]; omega
      | succ m =>
          rw [scan]
          split
          · have := ih m (line + 1) 1
            omega
          · have := ih m line (character + 1)
            omega

/-- Some bytes on, an offset has a later line, or is so much further on the same one. -/
theorem coordinates_add {source : List UInt8} {k d : Nat} (h : k + d ≤ source.length) :
    (coordinates source k).1 < (coordinates source (k + d)).1 ∨
      coordinates source (k + d) = ((coordinates source k).1, (coordinates source k).2 + d) := by
  unfold coordinates
  rw [scan_add]
  exact scan_advances _ d _ _ (by rw [List.length_drop]; omega)

/-- Coordinates grow with the offset. -/
theorem coordinates_lt {source : List UInt8} {j k : Nat} (h : j < k) (hk : k ≤ source.length) :
    (coordinates source j).1 < (coordinates source k).1 ∨
      ((coordinates source j).1 = (coordinates source k).1 ∧
        (coordinates source j).2 < (coordinates source k).2) := by
  obtain ⟨d, rfl⟩ := Nat.exists_eq_add_of_le (Nat.le_of_lt h)
  rcases coordinates_add hk with later | same
  · exact .inl later
  · rw [same]
    exact .inr ⟨rfl, by omega⟩

theorem coordinates_le {source : List UInt8} {j k : Nat} (h : j ≤ k) (hk : k ≤ source.length) :
    (coordinates source j).1 < (coordinates source k).1 ∨
      ((coordinates source j).1 = (coordinates source k).1 ∧
        (coordinates source j).2 ≤ (coordinates source k).2) := by
  rcases Nat.lt_or_eq_of_le h with lt | rfl
  · exact (coordinates_lt lt hk).imp_right fun same => ⟨same.1, Nat.le_of_lt same.2⟩
  · exact .inr ⟨rfl, Nat.le_refl _⟩

/-! ### Positions -/

theorem Position.before_iff {p q : Position} :
    p.before q ↔ p.line.toInt < q.line.toInt ∨
      (p.line.toInt = q.line.toInt ∧ p.character.toInt < q.character.toInt) := by
  unfold before
  rw [← Int64.lt_iff_toInt_lt, ← Int64.lt_iff_toInt_lt, Int64.toInt_inj]
  split
  · rename_i ne
    rw [decide_eq_true_iff, iff_comm]
    exact or_iff_left fun same => bne_iff_ne.mp ne same.1
  · rename_i eq
    have eq : p.line = q.line := by simpa using eq
    rw [decide_eq_true_iff, eq]
    simp

theorem Position.before_ofNat {a b c d : Nat} (ha : a < 2 ^ 63) (hb : b < 2 ^ 63) (hc : c < 2 ^ 63)
    (hd : d < 2 ^ 63) :
    (ofNat a b).before (ofNat c d) ↔ a < c ∨ (a = c ∧ b < d) := by
  rw [before_iff]
  unfold ofNat
  rw [Int64.toInt_ofNat_of_lt ha, Int64.toInt_ofNat_of_lt hb, Int64.toInt_ofNat_of_lt hc,
    Int64.toInt_ofNat_of_lt hd]
  omega

namespace LineIndex

variable {l : LineIndex}

/-- **Positions follow offsets.** -/
theorem not_before_of_le (fits : l.size < 2 ^ 63 - 1) {i j : Int64} (h : i ≤ j) :
    ¬ (l.position j).before (l.position i) := by
  have clamped : clampOffset i l.size ≤ clampOffset j l.size := by
    rw [Int64.le_iff_toInt_le] at h
    unfold clampOffset
    omega
  have last : clampOffset j l.size ≤ l.source.length := Nat.min_le_right ..
  have order := coordinates_le clamped last
  have boundi := scan_le l.source (clampOffset i l.size) 1 1
  have boundj := scan_le l.source (clampOffset j l.size) 1 1
  rw [size_eq] at fits
  rw [position_eq, position_eq, positionOfIndex_eq, positionOfIndex_eq, ← size_eq]
  unfold coordinates at order ⊢
  rw [Position.before_ofNat (by omega) (by omega) (by omega) (by omega)]
  omega

/-- The range of a span has the positions of the offsets from its start to its end. -/
theorem contains_range (fits : l.size < 2 ^ 63 - 1) {s : Span} {o : Int64} (start : s.offset ≤ o)
    (stop : o ≤ s.stop) : (l.range s).contains (l.position o) := by
  have first := not_before_of_le fits start
  have last := not_before_of_le fits stop
  simp only [Bool.not_eq_true] at first last
  simp [Range.contains, range, first, last]

/-- Every line but the first stands behind a byte that ends one. -/
theorem lineCount_le (l : LineIndex) : l.lineCount ≤ l.size + 1 := by
  have after : ∀ (i : Nat) (bs : List UInt8), (lineStartsAfter i bs).length ≤ bs.length := by
    intro i bs
    induction bs generalizing i with
    | nil => exact Nat.le_refl 0
    | cons b bs ih =>
        rw [lineStartsAfter]
        split
        · exact Nat.succ_le_succ (ih _)
        · exact Nat.le_succ_of_le (ih _)
  rw [lineCount_eq, size_eq]
  exact Nat.succ_le_succ (after 0 l.source)

end LineIndex

end SolidityLint
