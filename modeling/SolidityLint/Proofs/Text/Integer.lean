import Mathlib.Algebra.Group.Nat.Defs
import SolidityLint.Text.Integer

/-!
# Text — decimal integers

Only zero is written with a zero in front (`toDigits_eq_zero_cons`), and the decimal text of an
integer of 64 bits is read as that integer (`Integer.read_render`), the least one included, whose
magnitude is no such integer itself.

The texts that are read are the numerals whose values fit (`Integer.read_eq_ok_iff`): an optional
sign in front of one or more digits, zeros in front included (`Integer.Numeral`).
-/

namespace SolidityLint

/-! ### Digits -/

theorem isDigit_of_mem_toDigits {n : Nat} : ∀ c ∈ Nat.toDigits 10 n, c.isDigit = true :=
  fun _ hc => Nat.isDigit_of_mem_toDigits (by decide) (by decide) hc

theorem digitChar_eq_zero : ∀ n < 10, Nat.digitChar n = '0' → n = 0 := by
  decide

/-- Only zero is written with a zero in front. -/
theorem toDigits_eq_zero_cons {n : Nat} {ds : List Char} (h : Nat.toDigits 10 n = '0' :: ds) :
    n = 0 ∧ ds = [] := by
  induction n using Nat.strongRecOn generalizing ds with
  | ind n ih =>
      by_cases small : n < 10
      · rw [Nat.toDigits_of_lt_base small] at h
        obtain ⟨zero, nil⟩ := List.cons.inj h
        exact ⟨digitChar_eq_zero n small zero, nil.symm⟩
      · have large : 10 ≤ n := by omega
        rw [Nat.toDigits_of_base_le (by decide) large] at h
        -- The digits of the tenth part begin with a zero too.
        cases front : Nat.toDigits 10 (n / 10) with
        | nil => exact absurd front Nat.toDigits_ne_nil
        | cons c cs =>
            rw [front, List.cons_append] at h
            rw [(List.cons.inj h).1] at front
            have := (ih (n / 10) (by omega) front).1
            omega

/-- Further digits do not make a number smaller. -/
theorem le_ofDigitChars (ds : List Char) (n : Nat) : n ≤ Nat.ofDigitChars 10 ds n := by
  induction ds generalizing n with
  | nil => exact Nat.le_refl n
  | cons c ds ih =>
      rw [Nat.ofDigitChars_cons]
      have := ih (10 * n + (c.toNat - '0'.toNat))
      omega

namespace Integer

/-- The reader of a magnitude computes the value of the digits. -/
theorem magnitude_eq {ds : List Char} (digits : ∀ c ∈ ds, c.isDigit = true) (n : Nat)
    (small : Nat.ofDigitChars 10 ds n < 2 ^ 64) :
    magnitude n ds = .ok (some (Nat.ofDigitChars 10 ds n)) := by
  induction ds generalizing n with
  | nil => rfl
  | cons c ds ih =>
      obtain ⟨first, others⟩ := List.forall_mem_cons.mp digits
      rw [Nat.ofDigitChars_cons] at small ⊢
      have room : ¬ Nat.pow 2 64 ≤ 10 * n + (c.toNat - '0'.toNat) := by
        have := le_ofDigitChars ds (10 * n + (c.toNat - '0'.toNat))
        exact Nat.not_le.mpr (Nat.lt_of_le_of_lt this small)
      rw [magnitude, if_pos first]
      simp only [if_neg room]
      exact ih others _ small

theorem magnitude_toDigits {n : Nat} (h : n < 2 ^ 64) :
    magnitude 0 (Nat.toDigits 10 n) = .ok (some n) := by
  have value : Nat.ofDigitChars 10 (Nat.toDigits 10 n) 0 = n := Nat.ofDigitChars_ten_toDigits
  rw [magnitude_eq isDigit_of_mem_toDigits 0 (by rw [value]; exact h), value]

theorem signed_toDigits {n : Nat} (h : n < 2 ^ 63) :
    signed false (Nat.toDigits 10 n) = .ok (Int64.ofNat n) := by
  have digits : (Nat.toDigits 10 n).isEmpty = false := by simp
  rw [signed, digits, magnitude_toDigits (by omega)]
  exact if_pos h

theorem signed_neg_toDigits {n : Nat} (h : n ≤ 2 ^ 63) :
    signed true (Nat.toDigits 10 n) = .ok (Int64.ofInt (-n)) := by
  have digits : (Nat.toDigits 10 n).isEmpty = false := by simp
  rw [signed, digits, magnitude_toDigits (by omega)]
  exact if_pos h

/-- A text without a sign is read as a magnitude. -/
theorem read_of_isDigit {s : String} {c : Char} {cs : List Char} (h : s.toList = c :: cs)
    (digit : c.isDigit = true) : read s = signed false (c :: cs) := by
  unfold read
  rw [h]
  split
  · next same => cases same; simp at digit
  · next same => cases same; simp at digit
  · rfl

/-- **Integers read back.** -/
theorem read_render (x : Int64) : read (render x) = .ok x := by
  have least : -2 ^ 63 ≤ x.toInt := x.le_toInt
  have greatest : x.toInt < 2 ^ 63 := x.toInt_lt
  unfold render
  split
  · next negative =>
      have chars : ("-" ++ Nat.repr x.toInt.natAbs).toList =
          '-' :: Nat.toDigits 10 x.toInt.natAbs := by
        rw [String.toList_append, Nat.toList_repr]
        rfl
      have value : (-(x.toInt.natAbs : Int)) = x.toInt := by omega
      rw [read, chars]
      simp only
      rw [signed_neg_toDigits (by omega), value, Int64.ofInt_toInt]
  · next positive =>
      have value : ((x.toInt.natAbs : Nat) : Int) = x.toInt := by omega
      have chars : (Nat.repr x.toInt.natAbs).toList = Nat.toDigits 10 x.toInt.natAbs :=
        Nat.toList_repr
      cases digits : Nat.toDigits 10 x.toInt.natAbs with
      | nil => exact absurd digits Nat.toDigits_ne_nil
      | cons c cs =>
          have digit : c.isDigit = true := isDigit_of_mem_toDigits c (by rw [digits]; simp)
          rw [read_of_isDigit (chars.trans digits) digit, ← digits, signed_toDigits (by omega)]
          congr 1
          rw [← Int64.ofInt_eq_ofNat, value, Int64.ofInt_toInt]

/-! ### Numerals -/

/-- One or more decimal digits. -/
def Digits (ds : List Char) : Prop := ds ≠ [] ∧ ∀ c ∈ ds, c.isDigit = true

instance (ds : List Char) : Decidable (Digits ds) :=
  decidable_of_iff (ds.isEmpty = false ∧ ds.all Char.isDigit = true) (by simp [Digits])

/-- The value of decimal digits. -/
def valueOf (ds : List Char) : Nat := Nat.ofDigitChars 10 ds 0

/-- A numeral, digits with an optional sign, and its value. -/
inductive Numeral : List Char → Int → Prop where
  | unsigned {ds : List Char} (h : Digits ds) : Numeral ds (valueOf ds)
  | plus {ds : List Char} (h : Digits ds) : Numeral ('+' :: ds) (valueOf ds)
  | minus {ds : List Char} (h : Digits ds) : Numeral ('-' :: ds) (-valueOf ds)

theorem Digits.exists_cons {ds : List Char} (h : Digits ds) :
    ∃ c cs, ds = c :: cs ∧ c.isDigit = true := by
  cases ds with
  | nil => exact absurd rfl h.1
  | cons c cs => exact ⟨c, cs, rfl, h.2 c List.mem_cons_self⟩

theorem Numeral.sign_or_digit {cs : List Char} {v : Int} (h : Numeral cs v) :
    ∀ c ∈ cs, c = '+' ∨ c = '-' ∨ c.isDigit = true := by
  cases h with
  | unsigned h => exact fun c hc => .inr (.inr (h.2 c hc))
  | plus h => exact List.forall_mem_cons.mpr ⟨.inl rfl, fun c hc => .inr (.inr (h.2 c hc))⟩
  | minus h => exact List.forall_mem_cons.mpr ⟨.inr (.inl rfl), fun c hc => .inr (.inr (h.2 c hc))⟩

/-- A magnitude is the value of digits. -/
theorem digits_of_magnitude {ds : List Char} {n m : Nat} (h : magnitude n ds = .ok (some m)) :
    (∀ c ∈ ds, c.isDigit = true) ∧ m = Nat.ofDigitChars 10 ds n := by
  induction ds generalizing n with
  | nil =>
      obtain rfl : n = m := by simpa [magnitude] using h
      exact ⟨fun c hc => absurd hc List.not_mem_nil, Nat.ofDigitChars_nil.symm⟩
  | cons c ds ih =>
      rw [magnitude] at h
      by_cases digit : c.isDigit
      · simp only [digit, if_true] at h
        by_cases room : Nat.pow 2 64 ≤ 10 * n + (c.toNat - '0'.toNat)
        · rw [if_pos room] at h
          cases h
        · rw [if_neg room] at h
          obtain ⟨others, value⟩ := ih h
          exact ⟨List.forall_mem_cons.mpr ⟨digit, others⟩, by rw [Nat.ofDigitChars_cons, value]⟩
      · rw [if_neg digit] at h
        cases h

/-- The integer of a sign and a magnitude, `none` for one that is too large for any sign. -/
def ofMagnitude (negative : Bool) : Option Nat → Except IntegerError Int64
  | none => .error (.outOfRange (if negative then least else greatest))
  | some n =>
    if negative then
      if n ≤ 2 ^ 63 then .ok (Int64.ofInt (-n)) else .error (.outOfRange least)
    else
      if n < 2 ^ 63 then .ok (Int64.ofNat n) else .error (.outOfRange greatest)

theorem signed_eq {negative : Bool} {ds : List Char} (ne : ds ≠ []) :
    signed negative ds = (magnitude 0 ds).bind (ofMagnitude negative) := by
  have filled : ds.isEmpty = false := List.isEmpty_eq_false_iff.mpr ne
  rw [signed, filled]
  cases magnitude 0 ds with
  | error => rfl
  | ok value => cases value <;> rfl

theorem ofMagnitude_eq_ok_iff {negative : Bool} {m : Nat} {n : Int64} :
    ofMagnitude negative (some m) = .ok n ↔ n.toInt = if negative then -(m : Int) else m := by
  have low := n.le_toInt
  have high := n.toInt_lt
  cases negative with
  | true =>
      simp only [ofMagnitude, if_true]
      split
      · rw [Except.ok.injEq, ← Int64.toInt_inj, Int64.toInt_ofInt_of_le (by omega) (by omega),
          eq_comm]
      · simp only [reduceCtorEq, false_iff]
        omega
  | false =>
      simp only [ofMagnitude, Bool.false_eq_true, if_false]
      split
      · rename_i room
        rw [Except.ok.injEq, ← Int64.toInt_inj, Int64.toInt_ofNat_of_lt room, eq_comm]
      · simp only [reduceCtorEq, false_iff]
        omega

theorem signed_eq_ok_iff {negative : Bool} {ds : List Char} {n : Int64} :
    signed negative ds = .ok n ↔
      Digits ds ∧ n.toInt = if negative then -(valueOf ds : Int) else valueOf ds := by
  constructor
  · intro h
    have ne : ds ≠ [] := by
      rintro rfl
      cases h
    rw [signed_eq ne] at h
    cases read : magnitude 0 ds with
    | error e =>
        rw [read] at h
        cases h
    | ok value =>
        rw [read] at h
        cases value with
        | none => cases h
        | some m =>
            obtain ⟨digits, rfl⟩ := digits_of_magnitude read
            exact ⟨⟨ne, digits⟩, ofMagnitude_eq_ok_iff.mp h⟩
  · rintro ⟨⟨ne, digits⟩, value⟩
    have small : Nat.ofDigitChars 10 ds 0 < 2 ^ 64 := by
      have low := n.le_toInt
      have high := n.toInt_lt
      rw [valueOf] at value
      split at value <;> omega
    rw [signed_eq ne, magnitude_eq digits 0 small]
    exact ofMagnitude_eq_ok_iff.mpr value

/-- **The texts of integers** are the numerals with their values. -/
theorem read_eq_ok_iff {s : String} {n : Int64} : read s = .ok n ↔ Numeral s.toList n.toInt := by
  constructor
  · intro h
    unfold read at h
    split at h
    · next cs text =>
        obtain ⟨digits, value⟩ := signed_eq_ok_iff.mp h
        rw [text, value]
        exact .minus digits
    · next cs text =>
        obtain ⟨digits, value⟩ := signed_eq_ok_iff.mp h
        rw [text, value]
        exact .plus digits
    · obtain ⟨digits, value⟩ := signed_eq_ok_iff.mp h
      rw [value]
      exact .unsigned digits
  · intro h
    generalize text : s.toList = cs at h
    generalize value : n.toInt = v at h
    cases h with
    | unsigned digits =>
        obtain ⟨c, rest, rfl, digit⟩ := digits.exists_cons
        rw [read_of_isDigit text digit]
        exact signed_eq_ok_iff.mpr ⟨digits, value⟩
    | plus digits =>
        rw [read, text]
        exact signed_eq_ok_iff.mpr ⟨digits, value⟩
    | minus digits =>
        rw [read, text]
        exact signed_eq_ok_iff.mpr ⟨digits, value⟩

/-- A text is read if it is a numeral with a value of 64 bits. -/
theorem exists_read_iff {s : String} :
    (∃ n, read s = .ok n) ↔
      ∃ v, Numeral s.toList v ∧ Int64.minValue.toInt ≤ v ∧ v ≤ Int64.maxValue.toInt := by
  simp only [read_eq_ok_iff]
  constructor
  · rintro ⟨n, numeral⟩
    exact ⟨n.toInt, numeral, n.minValue_le_toInt, n.toInt_le⟩
  · rintro ⟨v, numeral, low, high⟩
    refine ⟨Int64.ofInt v, ?_⟩
    rwa [Int64.toInt_ofInt_of_le low (Int.lt_add_one_of_le high)]

theorem numeral_render (n : Int64) : Numeral (render n).toList n.toInt :=
  read_eq_ok_iff.mp (read_render n)

end Integer

end SolidityLint
