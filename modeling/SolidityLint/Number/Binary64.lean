/-!
# Number — binary floating point

Rule options may be numbers, which the program keeps in double precision.  A finite value is
`mantissa * 2 ^ exponent`; `Binary64.ofDecimal` rounds a decimal to the nearest such value, ties
to the even mantissa, in exact arithmetic.
-/

namespace SolidityLint

/-- A double. -/
inductive Binary64 where
  | nan
  | infinity (negative : Bool)
  /-- `± mantissa * 2 ^ exponent`, with a mantissa below `2 ^ 53`, one of at least `2 ^ 52` unless
  the exponent is the least one. -/
  | finite (negative : Bool) (mantissa : Nat) (exponent : Int)
deriving DecidableEq, Repr, Inhabited

namespace Binary64

/-- The exponent of the smallest values. -/
def leastExponent : Int := -1074

/-- The greatest exponent of a finite value. -/
def greatestExponent : Int := 971

/-- `num / den` rounded to an integer, ties to even. -/
def roundDiv (num den : Nat) : Nat :=
  let q := num / den
  let r := num % den
  if 2 * r < den then q
  else if den < 2 * r then q + 1
  else if q % 2 = 0 then q else q + 1

/-- The nearest double to the fraction `num / den`; `none` when it is too large for one. -/
def ofFraction? (negative : Bool) (num den : Nat) : Option Binary64 :=
  if num = 0 then some (.finite negative 0 leastExponent)
  else
    -- The quotient lies in `[2 ^ guess, 2 ^ (guess + 2))`.
    let guess : Int := (Nat.log2 num : Int) - (Nat.log2 den : Int) - 1
    let scaled (e : Int) : Nat :=
      if e < 0 then roundDiv (num * Nat.pow 2 e.natAbs) den else roundDiv num (den * Nat.pow 2 e.natAbs)
    let exact (e : Int) : Nat :=
      if e < 0 then num * Nat.pow 2 e.natAbs / den else num / (den * Nat.pow 2 e.natAbs)
    let e0 := guess - 52
    let e1 := if exact e0 < Nat.pow 2 53 then e0 else e0 + 1
    let e2 := max e1 leastExponent
    let m := scaled e2
    let (m, e) := if m = Nat.pow 2 53 then (Nat.pow 2 52, e2 + 1) else (m, e2)
    if greatestExponent < e then none else some (.finite negative m e)

/-- The nearest double to `digits * 10 ^ scale`; `none` when it is too large for one. -/
def ofDecimal? (negative : Bool) (digits : Nat) (scale : Int) : Option Binary64 :=
  let size : Int := (Nat.toDigits 10 digits).length
  if digits = 0 || size + scale < -400 then some (.finite negative 0 leastExponent)
  else if 400 < size + scale then none
  else if scale < 0 then ofFraction? negative digits (Nat.pow 10 scale.natAbs)
  else ofFraction? negative (digits * Nat.pow 10 scale.natAbs) 1

/-- The value of a run of digits. -/
def natOfDigits (ds : List Char) : Nat := ds.foldl (fun n c => 10 * n + (c.toNat - '0'.toNat)) 0

/-- Reads a numeral: digits with an optional sign, point and exponent.  `none` when the text is
none, or is too large. -/
def ofNumeral? (s : String) : Option Binary64 :=
  let cs := s.toList
  let (negative, cs) := match cs with
    | '-' :: cs => (true, cs)
    | '+' :: cs => (false, cs)
    | cs => (false, cs)
  let whole := cs.takeWhile Char.isDigit
  let rest := cs.dropWhile Char.isDigit
  let (fraction, rest) := match rest with
    | '.' :: rest => (rest.takeWhile Char.isDigit, rest.dropWhile Char.isDigit)
    | rest => ([], rest)
  let exponent? : Option Int := match rest with
    | [] => some 0
    | e :: rest =>
      if e == 'e' || e == 'E' then
        let (minus, ds) := match rest with
          | '-' :: ds => (true, ds)
          | '+' :: ds => (false, ds)
          | ds => (false, ds)
        if ds.isEmpty || !ds.all Char.isDigit then none
        else
          let n : Int := min (natOfDigits ds) 100000
          some (if minus then -n else n)
      else none
  match exponent? with
  | none => none
  | some e =>
    if whole.isEmpty && fraction.isEmpty then none
    else ofDecimal? negative (natOfDigits (whole ++ fraction)) (e - fraction.length)

/-- The double of an integer. -/
def ofInt (n : Int) : Binary64 :=
  (ofFraction? (n < 0) n.natAbs 1).getD (.infinity (n < 0))

end Binary64

end SolidityLint
