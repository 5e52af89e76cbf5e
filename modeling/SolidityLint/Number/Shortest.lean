import SolidityLint.Number.Binary64

/-!
# Number — the shortest decimal

A finite double is written with the fewest digits that read back as it, and with the nearest such
digits if there are several.  `shortest` finds them: a decimal reads back when it lies between the
midpoints to the neighbouring doubles, the midpoints included when the mantissa is even.  What is
positional and what has an exponent differs by format (`Notation`).
-/

namespace SolidityLint

namespace Binary64

/-- A value, its lower and its upper midpoint, all over the same denominator. -/
structure Interval where
  value : Nat
  low : Nat
  high : Nat
  den : Nat
  closed : Bool

/-- The interval of the reals that round to `m * 2 ^ e`. -/
def interval (m : Nat) (e : Int) : Interval :=
  -- Everything is in quarters of the last place.
  let lowGap := if m = Nat.pow 2 52 && leastExponent < e then 1 else 2
  let scale := if e < 0 then 1 else Nat.pow 2 e.natAbs
  { value := 4 * m * scale
    low := (4 * m - lowGap) * scale
    high := (4 * m + 2) * scale
    den := if e < 0 then 4 * Nat.pow 2 e.natAbs else 4
    closed := m % 2 = 0 }

/-- Does the fraction `num / den` of the interval's own denominator times `k` round to the value? -/
def Interval.holds (i : Interval) (num k : Nat) : Bool :=
  if i.closed then i.low * k ≤ num && num ≤ i.high * k else i.low * k < num && num < i.high * k

/-- The `n` digit decimals around the value, as digits and the power of ten of the last digit; the
nearer one that reads back, if one does. -/
def Interval.digits? (i : Interval) (point : Int) (n : Nat) : Option Nat :=
  let unit : Int := point - n
  -- The grid point `g` is `g * 10 ^ unit`; compare `g * a` with `value * b`.
  let a := if unit < 0 then i.den else i.den * Nat.pow 10 unit.natAbs
  let b := if unit < 0 then Nat.pow 10 unit.natAbs else 1
  let g := i.value * b / a
  let down := i.value * b - g * a
  let up := (g + 1) * a - i.value * b
  match i.holds (g * a) b, i.holds ((g + 1) * a) b with
  | true, true => some (if down < up || (down = up && g % 2 = 0) then g else g + 1)
  | true, false => some g
  | false, true => some (g + 1)
  | false, false => none

/-- The number of digits in front of the point of `value / den`, for a positive value: the least
`p` with `value / den < 10 ^ p`. -/
def Interval.point (i : Interval) : Int :=
  let guess : Int := (((Nat.log2 i.value : Int) - (Nat.log2 i.den : Int)) * 30103) / 100000 - 1
  let below (p : Int) : Bool :=
    if p < 0 then i.value * Nat.pow 10 p.natAbs < i.den else i.value < i.den * Nat.pow 10 p.natAbs
  (([0, 1, 2, 3, 4].map fun k => guess + k).find? below).getD guess

/-- Without the zeros at the end. -/
def dropTrailingZeros (ds : List Char) : List Char := (ds.reverse.dropWhile (· == '0')).reverse

/-- The shortest digits of a positive value `m * 2 ^ e`, and the place of the point: the value is
`0.digits * 10 ^ point`. -/
def shortest (m : Nat) (e : Int) : List Char × Int :=
  let i := interval m e
  let p := i.point
  match (List.range 17).findSome? fun k => (i.digits? p (k + 1)).map fun g => (g, k + 1) with
  | none => (['0'], 1)
  | some (g, n) =>
    let ds := Nat.toDigits 10 g
    (dropTrailingZeros ds, p + ((ds.length : Int) - n))

/-! ### Notations -/

/-- Where positional digits end, and how an exponent is written. -/
structure Notation where
  /-- The exponent is written when the power of ten of the first digit is below this. -/
  least : Int
  /-- The exponent is written when the power of ten of the first digit is at least this. -/
  limit : Int
  /-- The digits of an exponent that is written. -/
  exponentDigits : Nat

/-- JSON: positional from `1e-6` up to below `1e21`, and a short exponent. -/
def jsonNotation : Notation := ⟨-6, 21, 1⟩

/-- YAML: positional from `1e-4` up to below `1e6`, and two digits in an exponent. -/
def yamlNotation : Notation := ⟨-4, 6, 2⟩

/-- The digits with the point after the first `point` of them. -/
def positional (ds : List Char) (point : Int) : List Char :=
  if point ≤ 0 then '0' :: '.' :: (List.replicate point.natAbs '0' ++ ds)
  else
    let n := point.toNat
    if ds.length ≤ n then ds ++ List.replicate (n - ds.length) '0'
    else ds.take n ++ '.' :: ds.drop n

/-- The digits with the point after the first, and the power of ten. -/
def scientific (ds : List Char) (exponent : Int) (width : Nat) : List Char :=
  let front := match ds with
    | d :: r :: rest => d :: '.' :: r :: rest
    | ds => ds
  let digits := Nat.toDigits 10 exponent.natAbs
  front ++ 'e' :: (if exponent < 0 then '-' else '+')
    :: (List.replicate (width - digits.length) '0' ++ digits)

/-- The text of a finite value; `none` for the others. -/
def render? (n : Notation) : Binary64 → Option String
  | .finite negative m e =>
    let body :=
      if m = 0 then ['0']
      else
        let (ds, point) := shortest m e
        let exponent := point - 1
        if exponent < n.least || n.limit ≤ exponent then scientific ds exponent n.exponentDigits
        else positional ds point
    some (String.ofList (if negative then '-' :: body else body))
  | _ => none

end Binary64

end SolidityLint
