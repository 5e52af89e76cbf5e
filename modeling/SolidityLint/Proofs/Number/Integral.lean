import Mathlib.Algebra.Order.Field.Rat
import Mathlib.Data.List.TakeWhile
import Mathlib.Tactic.NormNum
import Mathlib.Tactic.Positivity
import SolidityLint.Number.Shortest
import SolidityLint.Proofs.Text.Integer

/-!
# Number — integers as doubles

An integer of magnitude at most `2 ^ 53` is a double exactly (`value?_ofInt`).  Its decimal text
reads as that double (`ofNumeral?_ofInt`), and that double is written as the decimal text
(`render?_ofInt`): the search for the shortest digits ends at those of the integer without its
trailing zeros, since the interval around the double holds no other integer (`Interval.Around`).
-/

namespace SolidityLint

/-! ### Digits of round numbers -/

/-- A power of ten puts zeros behind the digits. -/
theorem toDigits_mul_pow {g : Nat} (pos : 0 < g) (u : Nat) :
    Nat.toDigits 10 (g * 10 ^ u) = Nat.toDigits 10 g ++ List.replicate u '0' := by
  induction u with
  | zero => simp
  | succ u ih =>
      have ten : 10 ≤ g * 10 ^ u * 10 := by
        have := Nat.mul_pos pos (Nat.pow_pos (n := u) (by decide : 0 < 10))
        omega
      rw [Nat.pow_succ, ← Nat.mul_assoc, Nat.toDigits_of_base_le (by decide) ten,
        Nat.mul_div_cancel _ (by decide), Nat.mul_mod_left, ih, List.append_assoc,
        List.replicate_succ']
      rfl

namespace Binary64

theorem exists_dropTrailingZeros (ds : List Char) :
    ∃ j, ds = dropTrailingZeros ds ++ List.replicate j '0' := by
  have zeros : ∀ c ∈ (ds.reverse.takeWhile (· == '0')).reverse, c = '0' := by
    intro c hc
    have := List.mem_takeWhile_imp (List.mem_reverse.mp hc)
    simpa using this
  refine ⟨(ds.reverse.takeWhile (· == '0')).reverse.length, ?_⟩
  rw [← List.eq_replicate_of_mem zeros, dropTrailingZeros, ← List.reverse_append,
    List.takeWhile_append_dropWhile, List.reverse_reverse]

/-! ### The double of an integer -/

/-- The exact value of a finite double. -/
def value? : Binary64 → Option ℚ
  | .finite negative m e => some ((if negative then -1 else 1) * m * (2 : ℚ) ^ e)
  | _ => none

theorem roundDiv_one (n : Nat) : roundDiv n 1 = n := by
  simp [roundDiv, Nat.mod_one]

/-- The shift fills the mantissa. -/
theorem shifted_bounds {n : Nat} (pos : 0 < n) (small : n < 2 ^ 53) :
    2 ^ 52 ≤ n * 2 ^ (52 - n.log2) ∧ n * 2 ^ (52 - n.log2) < 2 ^ 53 := by
  have ne : n ≠ 0 := by omega
  have short : n.log2 < 53 := (Nat.log2_lt ne).mpr small
  constructor
  · calc 2 ^ 52 = 2 ^ n.log2 * 2 ^ (52 - n.log2) := by rw [← Nat.pow_add]; congr 1; omega
      _ ≤ n * 2 ^ (52 - n.log2) := Nat.mul_le_mul_right _ (Nat.log2_self_le ne)
  · calc n * 2 ^ (52 - n.log2) < 2 ^ (n.log2 + 1) * 2 ^ (52 - n.log2) :=
          Nat.mul_lt_mul_of_pos_right Nat.lt_log2_self (Nat.two_pow_pos _)
      _ = 2 ^ 53 := by rw [← Nat.pow_add]; congr 1; omega

/-- A positive integer below `2 ^ 53` fits into a mantissa, and is shifted up until it fills it. -/
theorem ofFraction?_of_lt (negative : Bool) {n : Nat} (pos : 0 < n) (small : n < 2 ^ 53) :
    ofFraction? negative n 1 =
      some (.finite negative (n * 2 ^ (52 - n.log2)) (-((52 - n.log2 : Nat) : Int))) := by
  have ne : n ≠ 0 := by omega
  have short : n.log2 ≤ 52 := Nat.lt_succ_iff.mp ((Nat.log2_lt ne).mpr small)
  obtain ⟨filled, full⟩ := shifted_bounds pos small
  obtain ⟨s, hs⟩ : ∃ s, s = 52 - n.log2 := ⟨_, rfl⟩
  rw [← hs] at filled full ⊢
  have guess : (n.log2 : Int) - (Nat.log2 1 : Int) - 1 - 52 = -((s + 1 : Nat) : Int) := by
    have : Nat.log2 1 = 0 := by decide
    omega
  have beyond : 2 ^ 53 ≤ n * 2 ^ (s + 1) := by
    rw [Nat.pow_succ 2 s, ← Nat.mul_assoc]
    omega
  unfold ofFraction?
  rw [if_neg ne]
  have exact : (if -((s + 1 : Nat) : Int) < 0 then n * Nat.pow 2 (-((s + 1 : Nat) : Int)).natAbs / 1
      else n / (1 * Nat.pow 2 (-((s + 1 : Nat) : Int)).natAbs)) = n * 2 ^ (s + 1) := by
    rw [if_pos (by omega), Int.natAbs_neg, Int.natAbs_natCast, Nat.div_one]
    rfl
  have scaled : (if -(s : Int) < 0 then roundDiv (n * Nat.pow 2 (-(s : Int)).natAbs) 1
      else roundDiv n (1 * Nat.pow 2 (-(s : Int)).natAbs)) = n * 2 ^ s := by
    rw [Int.natAbs_neg, Int.natAbs_natCast]
    split
    · exact roundDiv_one _
    · have : s = 0 := by omega
      subst this
      simpa using roundDiv_one n
  have up : -((s + 1 : Nat) : Int) + 1 = -(s : Int) := by omega
  have above : max (-(s : Int)) leastExponent = -(s : Int) := by
    rw [leastExponent]
    omega
  have beyond' : ¬ n * 2 ^ (s + 1) < Nat.pow 2 53 := Nat.not_lt.mpr beyond
  have full' : ¬ n * 2 ^ s = Nat.pow 2 53 := Nat.ne_of_lt full
  have below : ¬ greatestExponent < -(s : Int) := by
    rw [greatestExponent]
    omega
  simp only [guess, exact, beyond', if_false, up, above, scaled, full', below]

/-! ### The interval of an integer -/

/-- The interval of an integer holds no other integer. -/
structure Interval.Around (i : Interval) (n : Nat) : Prop where
  value : i.value = n * i.den
  low : i.low < i.value ∧ i.value < i.low + i.den
  high : i.value < i.high ∧ i.high < i.value + i.den

namespace Interval

variable {i : Interval} {n : Nat}

theorem Around.holds (h : i.Around n) (g : Nat) : i.holds (g * i.den) 1 = decide (g = n) := by
  obtain ⟨value, ⟨low, low'⟩, ⟨high, high'⟩⟩ := h
  rcases Nat.lt_trichotomy g n with lt | rfl | gt
  · have : (g + 1) * i.den ≤ n * i.den := Nat.mul_le_mul_right _ lt
    rw [Nat.succ_mul] at this
    have out : ¬ i.low ≤ g * i.den := by omega
    have out' : ¬ i.low < g * i.den := by omega
    simp [Interval.holds, out, out', Nat.ne_of_lt lt]
  · simp only [Interval.holds, Nat.mul_one, ← value, decide_true]
    simp [low, high, low.le, high.le]
  · have : (n + 1) * i.den ≤ g * i.den := Nat.mul_le_mul_right _ gt
    rw [Nat.succ_mul] at this
    have out : ¬ g * i.den ≤ i.high := by omega
    have out' : ¬ g * i.den < i.high := by omega
    simp [Interval.holds, out, out', Nat.ne_of_gt gt]

/-- The decimals with fewer digits than the integer reach it only by its zeros. -/
theorem Around.digits? (h : i.Around n) {p k : Nat} (hk : k ≤ p) :
    i.digits? p k = if 10 ^ (p - k) ∣ n then some (n / 10 ^ (p - k)) else none := by
  obtain ⟨u, hu⟩ : ∃ u, u = p - k := ⟨_, rfl⟩
  have unit : (p : Int) - (k : Int) = (u : Int) := by omega
  have den : 0 < i.den := by have := h.low; omega
  have grid : i.value / (i.den * Nat.pow 10 u) = n / 10 ^ u := by
    rw [h.value, Nat.mul_comm n]
    exact Nat.mul_div_mul_left n (10 ^ u) den
  have point (g : Nat) : g * (i.den * Nat.pow 10 u) = g * 10 ^ u * i.den := by
    rw [Nat.mul_comm i.den, Nat.mul_assoc]
    rfl
  have next : (n / 10 ^ u + 1) * 10 ^ u ≠ n := by
    rw [Nat.mul_comm]
    exact Nat.ne_of_gt (Nat.lt_mul_div_succ n (by positivity))
  have whole : n / 10 ^ u * 10 ^ u = n ↔ 10 ^ u ∣ n := (Nat.dvd_iff_div_mul_eq n (10 ^ u)).symm
  rw [← hu]
  unfold Interval.digits?
  simp only [unit, Int.natAbs_natCast, Nat.mul_one, grid, point, h.holds, next, decide_false,
    if_neg (Int.not_lt.mpr (Int.natCast_nonneg u)), whole]
  split <;> simp_all

/-- The first guess at the number of digits is at most four too low, and never too high. -/
theorem guess_digits : ∀ l < 53, 10 ^ (l * 30103 / 100000) ≤ 2 ^ l ∧
    2 ^ (l + 1) ≤ 10 ^ (l * 30103 / 100000 + 3) := by
  decide

theorem Around.below (h : i.Around n) (pos : 0 < n) (p : Int) :
    (if p < 0 then decide (i.value * Nat.pow 10 p.natAbs < i.den)
      else decide (i.value < i.den * Nat.pow 10 p.natAbs)) =
      decide (((Nat.toDigits 10 n).length : Int) ≤ p) := by
  have den : 0 < i.den := by have := h.low; omega
  have digits : 0 < (Nat.toDigits 10 n).length := Nat.length_toDigits_pos
  split
  · next negative =>
      have large : ¬ i.value * Nat.pow 10 p.natAbs < i.den := by
        rw [h.value, Nat.not_lt]
        have : 1 ≤ n * Nat.pow 10 p.natAbs := Nat.mul_pos pos (Nat.pow_pos (by decide))
        calc i.den = i.den * 1 := (Nat.mul_one _).symm
          _ ≤ i.den * (n * Nat.pow 10 p.natAbs) := Nat.mul_le_mul_left _ this
          _ = n * i.den * Nat.pow 10 p.natAbs := by ac_rfl
      rw [decide_eq_false large, eq_comm, decide_eq_false_iff_not]
      omega
  · next positive =>
      obtain ⟨k, rfl⟩ := Int.eq_ofNat_of_zero_le (Int.not_lt.mp positive)
      have scaled : i.value < i.den * Nat.pow 10 k ↔ n < 10 ^ k := by
        rw [h.value, Nat.mul_comm n]
        exact Nat.mul_lt_mul_left den
      rw [Int.natAbs_natCast, decide_eq_decide, scaled, Int.ofNat_le]
      cases k with
      | zero => simp; omega
      | succ k => exact (Nat.length_toDigits_le_iff (by decide) (by omega)).symm

/-- Looking upwards from a guess that is not too high. -/
theorem find?_guess {guess t : Int} (low : guess ≤ t) (high : t ≤ guess + 4) :
    (([0, 1, 2, 3, 4].map fun k => guess + k).find? fun p => decide (t ≤ p)).getD guess = t := by
  obtain ⟨k, hk⟩ : ∃ k : Int, t = guess + k := ⟨t - guess, by omega⟩
  have : k = 0 ∨ k = 1 ∨ k = 2 ∨ k = 3 ∨ k = 4 := by omega
  rcases this with rfl | rfl | rfl | rfl | rfl <;> simp [hk]

/-- The point stands behind the digits of the integer. -/
theorem Around.point (h : i.Around n) (pos : 0 < n) (small : n < 2 ^ 53)
    (logs : (i.value.log2 : Int) - i.den.log2 = n.log2) :
    i.point = (Nat.toDigits 10 n).length := by
  have ne : n ≠ 0 := by omega
  have short : n.log2 < 53 := (Nat.log2_lt ne).mpr small
  obtain ⟨lower, upper⟩ := guess_digits n.log2 short
  obtain ⟨g, hg⟩ : ∃ g, g = n.log2 * 30103 / 100000 := ⟨_, rfl⟩
  rw [← hg] at lower upper
  have many : g < (Nat.toDigits 10 n).length := by
    by_contra fewer
    have digits : 0 < (Nat.toDigits 10 n).length := Nat.length_toDigits_pos
    have : n < 10 ^ g :=
      (Nat.length_toDigits_le_iff (by decide) (by omega)).mp (Nat.not_lt.mp fewer)
    have := Nat.log2_self_le ne
    omega
  have few : (Nat.toDigits 10 n).length ≤ g + 3 :=
    (Nat.length_toDigits_le_iff (by decide) (by omega)).mpr (Nat.lt_log2_self.trans_le upper)
  have guess : (n.log2 : Int) * 30103 / 100000 - 1 = (g : Int) - 1 := by omega
  unfold Interval.point
  simp only [logs, guess, h.below pos]
  exact find?_guess (by omega) (by omega)

end Interval

section Shifted

variable {n : Nat}

/-- The interval of a mantissa that counts parts of one. -/
theorem interval_neg (m s : Nat) : ∃ gap, (gap = 1 ∨ gap = 2) ∧
    interval m (-(s : Int)) =
      ⟨4 * m, 4 * m - gap, 4 * m + 2, 4 * 2 ^ s, decide (m % 2 = 0)⟩ := by
  refine ⟨if m = Nat.pow 2 52 && leastExponent < -(s : Int) then 1 else 2, ?_, ?_⟩
  · split <;> simp
  · cases s with
    | zero => simp [interval]
    | succ s =>
        have negative : -((s + 1 : Nat) : Int) < 0 := by omega
        simp only [interval, if_pos negative, Int.natAbs_neg, Int.natAbs_natCast, Nat.mul_one]
        rfl

theorem around_interval (pos : 0 < n) (small : n < 2 ^ 53) :
    (interval (n * 2 ^ (52 - n.log2)) (-((52 - n.log2 : Nat) : Int))).Around n := by
  obtain ⟨gap, hgap, same⟩ := interval_neg (n * 2 ^ (52 - n.log2)) (52 - n.log2)
  obtain ⟨full, -⟩ := shifted_bounds pos small
  have width : 0 < 2 ^ (52 - n.log2) := Nat.two_pow_pos _
  rw [same]
  refine ⟨Nat.mul_left_comm 4 n _, ⟨?_, ?_⟩, ⟨?_, ?_⟩⟩ <;> simp only <;> omega

theorem log2_interval (pos : 0 < n) (small : n < 2 ^ 53) :
    ((interval (n * 2 ^ (52 - n.log2)) (-((52 - n.log2 : Nat) : Int))).value.log2 : Int)
      - (interval (n * 2 ^ (52 - n.log2)) (-((52 - n.log2 : Nat) : Int))).den.log2 = n.log2 := by
  obtain ⟨gap, -, same⟩ := interval_neg (n * 2 ^ (52 - n.log2)) (52 - n.log2)
  obtain ⟨full, below⟩ := shifted_bounds pos small
  have ne : n ≠ 0 := by omega
  have short : n.log2 < 53 := (Nat.log2_lt ne).mpr small
  have value : (4 * (n * 2 ^ (52 - n.log2))).log2 = 54 := by
    rw [Nat.log2_eq_iff (by omega)]
    omega
  have den : (4 * 2 ^ (52 - n.log2)).log2 = 54 - n.log2 := by
    have : 4 * 2 ^ (52 - n.log2) = 2 ^ (54 - n.log2) := by
      rw [show 54 - n.log2 = 52 - n.log2 + 2 by omega, Nat.pow_add, Nat.mul_comm]
    rw [this, Nat.log2_two_pow]
  rw [same]
  simp only [value, den]
  omega

/-- Searching upwards finds something no later than where something is. -/
theorem exists_findSome?_range {β : Type} (f : Nat → Option β) {m size : Nat} (hm : m < size)
    (h : (f m).isSome) : ∃ k ≤ m, ∃ b, f k = some b ∧ (List.range size).findSome? f = some b := by
  cases found : (List.range size).findSome? f with
  | none =>
      rw [List.findSome?_eq_none_iff.mp found m (List.mem_range.mpr hm)] at h
      cases h
  | some b =>
      obtain ⟨before, k, after, same, hk, none_before⟩ := List.findSome?_eq_some_iff.mp found
      refine ⟨k, ?_, b, hk, rfl⟩
      by_contra late
      have sorted := List.pairwise_lt_range (n := size)
      have mem := List.mem_range.mpr hm
      rw [same] at sorted mem
      rcases List.mem_append.mp mem with mem | mem
      · rw [none_before m mem] at h
        cases h
      · rcases List.mem_cons.mp mem with rfl | mem
        · exact late (Nat.le_refl _)
        · obtain ⟨later, -⟩ := List.pairwise_cons.mp (List.pairwise_append.mp sorted).2.1
          exact late (Nat.le_of_lt (later m mem))

/-- The shortest digits of an integer are its digits without zeros at the end. -/
theorem shortest_shifted (pos : 0 < n) (small : n < 2 ^ 53) :
    ∃ ds j, shortest (n * 2 ^ (52 - n.log2)) (-((52 - n.log2 : Nat) : Int)) =
        (ds, ((Nat.toDigits 10 n).length : Int)) ∧
      Nat.toDigits 10 n = ds ++ List.replicate j '0' := by
  have around := around_interval pos small
  have place := around.point pos small (log2_interval pos small)
  obtain ⟨p, hp⟩ : ∃ p, p = (Nat.toDigits 10 n).length := ⟨_, rfl⟩
  have digits : 0 < p := hp ▸ Nat.length_toDigits_pos
  have few : p ≤ 16 := by
    rw [hp]
    exact (Nat.length_toDigits_le_iff (by decide) (by decide)).mpr (by omega)
  rw [← hp] at place
  simp only [shortest, place]
  generalize interval (n * 2 ^ (52 - n.log2)) (-((52 - n.log2 : Nat) : Int)) = i at around
  have last : i.digits? p (p - 1 + 1) = some n := by
    rw [around.digits? (by omega), Nat.sub_add_cancel digits, Nat.sub_self]
    simp
  obtain ⟨k, hk, b, found, first⟩ := exists_findSome?_range
    (fun k => (i.digits? p (k + 1)).map fun g => (g, k + 1)) (show p - 1 < 17 by omega)
    (by rw [last]; rfl)
  rw [first]
  obtain ⟨g, hg, rfl⟩ := Option.map_eq_some_iff.mp found
  rw [around.digits? (by omega)] at hg
  split at hg
  · next divides =>
      obtain ⟨j, hj⟩ := exists_dropTrailingZeros (Nat.toDigits 10 g)
      have value : n = g * 10 ^ (p - (k + 1)) := by
        rw [← Option.some.inj hg, Nat.div_mul_cancel divides]
      have positive : 0 < g := by
        rcases Nat.eq_zero_or_pos g with rfl | h
        · omega
        · exact h
      have chars := toDigits_mul_pow positive (p - (k + 1))
      rw [← value] at chars
      have length : p = (Nat.toDigits 10 g).length + (p - (k + 1)) := by
        have := congrArg List.length chars
        rwa [← hp, List.length_append, List.length_replicate] at this
      refine ⟨dropTrailingZeros (Nat.toDigits 10 g), j + (p - (k + 1)), ?_, ?_⟩
      · rw [← hp, Prod.mk.injEq]
        exact ⟨rfl, by omega⟩
      · rw [List.replicate_add, ← List.append_assoc, ← hj, chars]
  · cases hg

end Shifted

/-! ### Writing -/

/-- Digits are completed with zeros up to the point. -/
theorem positional_of_zeros {digits ds : List Char} {j : Nat}
    (h : digits = ds ++ List.replicate j '0') (ne : digits ≠ []) :
    positional ds digits.length = digits := by
  have pos : ¬ (digits.length : Int) ≤ 0 := by
    have := List.length_pos_iff.mpr ne
    omega
  have length : digits.length = ds.length + j := by simp [h]
  have behind : ds.length ≤ digits.length := by omega
  have zeros : digits.length - ds.length = j := by omega
  rw [positional, if_neg pos, Int.toNat_natCast, if_pos behind, zeros, ← h]

/-- The digits of an integer behind its sign. -/
def signedDigits (negative : Bool) (n : Nat) : List Char :=
  if negative then '-' :: Nat.toDigits 10 n else Nat.toDigits 10 n

theorem render?_of_shortest (negative : Bool) {m n j : Nat} {e : Int} {ds : List Char} (hm : m ≠ 0)
    (short : (Nat.toDigits 10 n).length ≤ 16)
    (h : shortest m e = (ds, ((Nat.toDigits 10 n).length : Int)))
    (zeros : Nat.toDigits 10 n = ds ++ List.replicate j '0') :
    render? jsonNotation (.finite negative m e) = some (String.ofList (signedDigits negative n)) := by
  have some_digits : 0 < (Nat.toDigits 10 n).length := Nat.length_toDigits_pos
  have plain : (decide (((Nat.toDigits 10 n).length : Int) - 1 < jsonNotation.least) ||
      decide (jsonNotation.limit ≤ ((Nat.toDigits 10 n).length : Int) - 1)) = false := by
    rw [Bool.or_eq_false_iff, decide_eq_false_iff_not, decide_eq_false_iff_not]
    simp only [jsonNotation]
    omega
  simp only [render?, if_neg hm, h, plain, Bool.false_eq_true, if_false,
    positional_of_zeros zeros Nat.toDigits_ne_nil]
  rfl

/-- The double of a natural number up to `2 ^ 53` has exactly its value and is written with its
digits. -/
theorem ofFraction?_spec (negative : Bool) {n : Nat} (h : n ≤ 2 ^ 53) :
    ∃ m e, ofFraction? negative n 1 = some (.finite negative m e) ∧ (m : ℚ) * 2 ^ e = n ∧
      render? jsonNotation (.finite negative m e) =
        some (String.ofList (signedDigits negative n)) := by
  rcases Nat.eq_zero_or_pos n with rfl | pos
  · refine ⟨0, leastExponent, if_pos rfl, by rw [Nat.cast_zero, zero_mul], ?_⟩
    simp [render?, signedDigits]
  · rcases Nat.lt_or_eq_of_le h with small | rfl
    · obtain ⟨filled, -⟩ := shifted_bounds pos small
      obtain ⟨ds, j, digits, zeros⟩ := shortest_shifted pos small
      refine ⟨_, _, ofFraction?_of_lt negative pos small, ?_, ?_⟩
      · have two : (2 : ℚ) ^ (52 - n.log2) ≠ 0 := by positivity
        rw [zpow_neg, zpow_natCast, Nat.cast_mul, Nat.cast_pow, Nat.cast_ofNat,
          mul_inv_cancel_right₀ two]
      · refine render?_of_shortest negative (by omega) ?_ digits zeros
        exact (Nat.length_toDigits_le_iff (by decide) (by decide)).mpr (by omega)
    · -- The mantissa is full at `2 ^ 53`: the next double is two further.
      refine ⟨2 ^ 52, 1, ?_, by norm_num, ?_⟩
      · cases negative <;> rfl
      · have digits : shortest (2 ^ 52) 1 = (Nat.toDigits 10 (2 ^ 53), 16) := rfl
        exact render?_of_shortest negative (j := 0) (by decide) (by decide +kernel) digits
          (by simp)

/-! ### Reading -/

/-- Digits behind a sign are a whole number. -/
theorem ofNumeral?_signedDigits (negative : Bool) (n : Nat) :
    ofNumeral? (String.ofList (signedDigits negative n)) = ofDecimal? negative n 0 := by
  have digits : ∀ c ∈ Nat.toDigits 10 n, c.isDigit = true := isDigit_of_mem_toDigits
  have whole := List.takeWhile_eq_self_iff.mpr digits
  have rest := List.dropWhile_eq_nil_iff.mpr digits
  have value : natOfDigits (Nat.toDigits 10 n) = n := Nat.ofDigitChars_ten_toDigits
  cases negative with
  | true => simp [ofNumeral?, signedDigits, whole, rest, value]
  | false =>
      cases chars : Nat.toDigits 10 n with
      | nil => exact absurd chars Nat.toDigits_ne_nil
      | cons c cs =>
          rw [chars] at digits whole rest value
          have digit := digits c List.mem_cons_self
          have minus : c ≠ '-' := by rintro rfl; simp at digit
          have plus : c ≠ '+' := by rintro rfl; simp at digit
          simp [ofNumeral?, signedDigits, chars, minus, plus, whole, rest, value]

theorem ofDecimal?_whole (negative : Bool) {n : Nat} (h : n ≤ 2 ^ 53) :
    ofDecimal? negative n 0 = ofFraction? negative n 1 := by
  have short : (Nat.toDigits 10 n).length ≤ 16 :=
    (Nat.length_toDigits_le_iff (by decide) (by decide)).mpr (by omega)
  rcases Nat.eq_zero_or_pos n with rfl | pos
  · simp [ofDecimal?, ofFraction?]
  · have ne : n ≠ 0 := by omega
    have fits : ¬ ((Nat.toDigits 10 n).length : Int) + 0 < -400 := by omega
    have fits' : ¬ (400 : Int) < ((Nat.toDigits 10 n).length : Int) + 0 := by omega
    unfold ofDecimal?
    simp only [ne, fits, fits', decide_false, Bool.or_false, Bool.false_eq_true, if_false]
    simp

/-! ### Integers -/

/-- The double of an integer up to `2 ^ 53`. -/
theorem ofInt_spec {n : Int} (h : n.natAbs ≤ 2 ^ 53) :
    ∃ m e, ofFraction? (n < 0) n.natAbs 1 = some (ofInt n) ∧ ofInt n = .finite (n < 0) m e ∧
      (m : ℚ) * 2 ^ e = n.natAbs ∧
      render? jsonNotation (ofInt n) = some (String.ofList (signedDigits (n < 0) n.natAbs)) := by
  obtain ⟨m, e, double, value, text⟩ := ofFraction?_spec (n < 0) h
  have same : ofInt n = .finite (n < 0) m e := by rw [ofInt, double]; rfl
  exact ⟨m, e, by rw [double, same], same, value, by rw [same, text]⟩

/-- **Integers are doubles exactly**, up to `2 ^ 53`. -/
theorem value?_ofInt {n : Int} (h : n.natAbs ≤ 2 ^ 53) : (ofInt n).value? = some (n : ℚ) := by
  obtain ⟨m, e, -, same, value, -⟩ := ofInt_spec h
  rw [same, value?, mul_assoc, value]
  congr 1
  by_cases negative : n < 0
  · have : (n.natAbs : ℤ) = -n := by omega
    have cast : ((n.natAbs : ℕ) : ℚ) = -n := by rw [← Int.cast_natCast, this, Int.cast_neg]
    simp [negative, cast]
  · have : (n.natAbs : ℤ) = n := by omega
    have cast : ((n.natAbs : ℕ) : ℚ) = n := by rw [← Int.cast_natCast, this]
    simp [negative, cast]

/-- The double of an integer is written as the integer. -/
theorem render?_ofInt {n : Int} (h : n.natAbs ≤ 2 ^ 53) :
    (ofInt n).render? jsonNotation = some (String.ofList (signedDigits (n < 0) n.natAbs)) := by
  obtain ⟨_, _, -, -, -, text⟩ := ofInt_spec h
  exact text

/-- The text of an integer is read as its double. -/
theorem ofNumeral?_ofInt {n : Int} (h : n.natAbs ≤ 2 ^ 53) :
    ofNumeral? (String.ofList (signedDigits (n < 0) n.natAbs)) = some (ofInt n) := by
  obtain ⟨_, _, double, -⟩ := ofInt_spec h
  rw [ofNumeral?_signedDigits, ofDecimal?_whole _ h, double]

end Binary64

end SolidityLint
