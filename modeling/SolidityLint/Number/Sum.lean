/-!
# Number — sums

The sum of some numbers.
-/

namespace SolidityLint

/-- The sum of numbers. -/
def sumOf : List Nat → Nat
  | [] => 0
  | n :: ns => n + sumOf ns

theorem sumOf_append (ms ns : List Nat) : sumOf (ms ++ ns) = sumOf ms + sumOf ns := by
  induction ms with
  | nil => simp [sumOf]
  | cons m ms ih => simp [sumOf, ih, Nat.add_assoc]

theorem le_sumOf_of_mem {n : Nat} {ns : List Nat} (h : n ∈ ns) : n ≤ sumOf ns := by
  induction ns with
  | nil => exact absurd h List.not_mem_nil
  | cons m ns ih =>
      rw [sumOf]
      rcases List.mem_cons.mp h with rfl | h
      · exact Nat.le_add_right ..
      · exact Nat.le_trans (ih h) (Nat.le_add_left ..)

end SolidityLint
