import SolidityLint.Text.Utf8

/-!
# Time — lengths of time

A length of time is a number of nanoseconds of 64 bits.  It is written with units, as in `1m30s`
or `1.5ms`, and read from a sum of decimal numbers with units.
-/

namespace SolidityLint

/-- A length of time. -/
structure Duration where
  nanoseconds : Int64
deriving DecidableEq, Repr, Inhabited

namespace Duration

def seconds (n : Nat) : Duration := ⟨.ofNat (n * 1000000000)⟩

/-! ### Writing -/

/-- A fraction with `places` decimal places, without the zeros at its end; nothing for zero. -/
def fraction (places n : Nat) : String :=
  let digits := (Nat.repr n).toList
  let padded := List.replicate (places - digits.length) '0' ++ digits
  let kept := (padded.reverse.dropWhile (· == '0')).reverse
  if kept.isEmpty then "" else String.ofList ('.' :: kept)

/-- The number of units of `10 ^ places` nanoseconds. -/
def inUnits (places n : Nat) (unit : String) : String :=
  Nat.repr (n / Nat.pow 10 places) ++ fraction places (n % Nat.pow 10 places) ++ unit

/-- The text of a number of nanoseconds: below a second in the largest unit that it reaches,
otherwise in hours, minutes and seconds. -/
def renderMagnitude (n : Nat) : String :=
  if n = 0 then "0s"
  else if n < Nat.pow 10 3 then inUnits 0 n "ns"
  else if n < Nat.pow 10 6 then inUnits 3 n "µs"
  else if n < Nat.pow 10 9 then inUnits 6 n "ms"
  else
    let s := n / Nat.pow 10 9
    let rest := Nat.repr (s % 60) ++ fraction 9 (n % Nat.pow 10 9) ++ "s"
    if s < 60 then rest
    else if s < 3600 then Nat.repr (s / 60) ++ "m" ++ rest
    else Nat.repr (s / 3600) ++ "h" ++ Nat.repr (s / 60 % 60) ++ "m" ++ rest

/-- The text of a length of time. -/
def render (d : Duration) : String :=
  let n := d.nanoseconds.toInt
  (if n < 0 then "-" else "") ++ renderMagnitude n.natAbs

/-! ### Reading -/

/-- What is wrong with the text of a length of time. -/
inductive Fault where
  | invalid
  | missingUnit
  | unknownUnit (unit : List Char)
deriving DecidableEq, Repr

/-- A byte in two hexadecimal digits behind a mark. -/
def hexByte (b : UInt8) : List Char :=
  let digit (n : Nat) : Char := (Nat.toDigits 16 n).headD '0'
  ['\\', 'x', digit (b.toNat / 16), digit (b.toNat % 16)]

/-- A text in quotes; characters that are not plain ASCII stand there byte by byte. -/
def quotedBytes (s : String) : String :=
  let show1 (c : Char) : List Char :=
    if c == '"' || c == '\\' then ['\\', c]
    else if 0x20 ≤ c.toNat && c.toNat < 0x80 then [c]
    else (Utf8.encode (String.singleton c)).toList.flatMap hexByte
  "\"" ++ String.ofList (s.toList.flatMap show1) ++ "\""

/-- The message about a text that is no length of time. -/
def Fault.message (text : String) : Fault → String
  | .invalid => "time: invalid duration " ++ quotedBytes text
  | .missingUnit => "time: missing unit in duration " ++ quotedBytes text
  | .unknownUnit u =>
    "time: unknown unit " ++ quotedBytes (String.ofList u) ++ " in duration " ++ quotedBytes text

/-- The nanoseconds of a unit. -/
def unit? : String → Option Nat
  | "ns" => some 1
  | "us" | "µs" | "μs" => some (Nat.pow 10 3)
  | "ms" => some (Nat.pow 10 6)
  | "s" => some (Nat.pow 10 9)
  | "m" => some (60 * Nat.pow 10 9)
  | "h" => some (3600 * Nat.pow 10 9)
  | _ => none

/-- The value of digits after the value `n`; `none` beyond `2 ^ 63`. -/
def whole? (n : Nat) : List Char → Option Nat
  | [] => some n
  | c :: cs =>
    let n' := n * 10 + (c.toNat - '0'.toNat)
    if Nat.pow 2 63 < n' then none else whole? n' cs

/-- The digits of a fraction as a number and their scale.  Digits that would take the number beyond
`2 ^ 63` do not count. -/
def fractionOf (n scale : Nat) : List Char → Nat × Nat
  | [] => (n, scale)
  | c :: cs =>
    let n' := n * 10 + (c.toNat - '0'.toNat)
    if (Nat.pow 2 63 - 1) / 10 < n || Nat.pow 2 63 < n' then (n, scale) else fractionOf n' (scale * 10) cs

/-- A fraction of a unit in whole nanoseconds, computed in binary floating point. -/
def fractionOfUnit (n scale unit : Nat) : Nat :=
  if n = 0 then 0
  else (Float.ofNat n * (Float.ofNat unit / Float.ofNat scale)).toUInt64.toNat

/-- Does the character belong to a number? -/
def isNumeral (c : Char) : Bool := c.isDigit || c == '.'

/-- One number with its unit: its nanoseconds and what follows. -/
def term (cs : List Char) : Except Fault (Nat × List Char) :=
  let digits := cs.takeWhile Char.isDigit
  let rest := cs.dropWhile Char.isDigit
  let (places, rest) := match rest with
    | '.' :: r => (r.takeWhile Char.isDigit, r.dropWhile Char.isDigit)
    | r => ([], r)
  match whole? 0 digits with
  | none => .error .invalid
  | some v =>
    if digits.isEmpty && places.isEmpty then .error .invalid
    else
      let name := rest.takeWhile (!isNumeral ·)
      if name.isEmpty then .error .missingUnit
      else match unit? (String.ofList name) with
        | none => .error (.unknownUnit name)
        | some unit =>
          let (f, scale) := fractionOf 0 1 places
          let total := v * unit + fractionOfUnit f scale unit
          if Nat.pow 2 63 / unit < v || Nat.pow 2 63 < total then .error .invalid
          else .ok (total, rest.dropWhile (!isNumeral ·))

/-- The sum of the numbers with units; `fuel` bounds how many there are. -/
def sum : Nat → Nat → List Char → Except Fault Nat
  | _, total, [] => .ok total
  | 0, _, _ :: _ => .error .invalid
  | fuel + 1, total, cs => do
    let (n, rest) ← term cs
    if Nat.pow 2 63 < total + n then throw .invalid
    sum fuel (total + n) rest

/-- The value behind the sign. -/
def signed (negative : Bool) (cs : List Char) : Except Fault Duration :=
  if cs == ['0'] then .ok ⟨0⟩
  else if cs.isEmpty then .error .invalid
  else match sum cs.length 0 cs with
    | .error e => .error e
    | .ok n =>
      if negative then .ok ⟨.ofInt (-n)⟩
      else if n < Nat.pow 2 63 then .ok ⟨.ofNat n⟩
      else .error .invalid

/-- Reads a length of time. -/
def parse (s : String) : Except Fault Duration :=
  match s.toList with
  | '-' :: cs => signed true cs
  | '+' :: cs => signed false cs
  | cs => signed false cs

end Duration

end SolidityLint
