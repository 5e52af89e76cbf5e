/-!
# Text — decimal integers

`Integer.read` reads an optionally signed decimal integer of 64 bits.  A text that is no such
numeral is `malformed`; a numeral whose value does not fit is `outOfRange`, and the value it is
clamped to stays available, since readers that do not care about the error take that value.
-/

namespace SolidityLint

/-- What is wrong with the text of an integer. -/
inductive IntegerError where
  | malformed
  /-- The numeral is well formed up to the digit at which it leaves the range. -/
  | outOfRange (clamped : Int64)
deriving DecidableEq, Repr

/-- What the error says about the numeral. -/
def IntegerError.reason : IntegerError → String
  | .malformed => "invalid syntax"
  | .outOfRange _ => "value out of range"

namespace Integer

/-- The value of a run of digits after the value `n`, or `none` within `ok` when it reaches
`2 ^ 64`: the reader stops at that digit, so nothing after it can be at fault. -/
def magnitude : Nat → List Char → Except IntegerError (Option Nat)
  | n, [] => .ok (some n)
  | n, c :: cs =>
    if c.isDigit then
      let n' := 10 * n + (c.toNat - '0'.toNat)
      if Nat.pow 2 64 ≤ n' then .ok none else magnitude n' cs
    else .error .malformed

/-- The least and the greatest integer of 64 bits. -/
def least : Int64 := Int64.minValue
@[inherit_doc least] def greatest : Int64 := Int64.maxValue

/-- The integer of a sign and digits. -/
def signed (negative : Bool) (digits : List Char) : Except IntegerError Int64 := do
  if digits.isEmpty then throw .malformed
  match ← magnitude 0 digits with
  | none => throw (.outOfRange (if negative then least else greatest))
  | some n =>
    if negative then
      if n ≤ Nat.pow 2 63 then return Int64.ofInt (-n) else throw (.outOfRange least)
    else
      if n < Nat.pow 2 63 then return Int64.ofNat n else throw (.outOfRange greatest)

/-- Reads a decimal integer with an optional sign. -/
def read (s : String) : Except IntegerError Int64 :=
  match s.toList with
  | '-' :: cs => signed true cs
  | '+' :: cs => signed false cs
  | cs => signed false cs

/-! ### Literals -/

/-- The value of a digit or a letter as a digit. -/
def digitValue? (c : Char) : Option Nat :=
  if c.isDigit then some (c.toNat - '0'.toNat)
  else if c.isAlpha then some (c.toLower.toNat - 'a'.toNat + 10)
  else none

/-- The value of digits in a base after the value `n`; underscores do not count.  `none` within
`ok` when it reaches `2 ^ 64`. -/
def magnitudeIn (base : Nat) : Nat → List Char → Except IntegerError (Option Nat)
  | n, [] => .ok (some n)
  | n, c :: cs =>
    if c == '_' then magnitudeIn base n cs
    else match digitValue? c with
      | none => .error .malformed
      | some d =>
        if base ≤ d then .error .malformed
        else if Nat.pow 2 64 ≤ base * n + d then .ok none
        else magnitudeIn base (base * n + d) cs

/-- Does every underscore follow a digit and come before one?  `after` says whether a digit stands
in front, and the last character must not be an underscore. -/
def underscoresFit (after : Bool) : List Char → Bool
  | [] => true
  | '_' :: cs => after && (cs.head?.any Char.isAlphanum) && underscoresFit false cs
  | _ :: cs => underscoresFit true cs

/-- The base of a literal without its sign, and its digits. -/
def literalBase : List Char → Nat × List Char
  | '0' :: m :: c :: cs =>
    match m.toLower with
    | 'x' => (16, c :: cs)
    | 'o' => (8, c :: cs)
    | 'b' => (2, c :: cs)
    | _ => (8, m :: c :: cs)
  | '0' :: cs => (8, cs)
  | cs => (10, cs)

/-- The value of a literal behind its sign. -/
def signedLiteral (negative : Bool) (cs : List Char) : Except IntegerError Int64 := do
  if cs.isEmpty then throw .malformed
  let (base, digits) := literalBase cs
  match ← magnitudeIn base 0 digits with
  | none => throw (.outOfRange (if negative then least else greatest))
  | some n =>
    if !underscoresFit (base != 10) digits then throw .malformed
    if negative then
      if n ≤ Nat.pow 2 63 then return Int64.ofInt (-n) else throw (.outOfRange least)
    else
      if n < Nat.pow 2 63 then return Int64.ofNat n else throw (.outOfRange greatest)

/-- Reads an integer literal: decimal, or in the base that its first characters tell. -/
def readLiteral (s : String) : Except IntegerError Int64 :=
  match s.toList with
  | '-' :: cs => signedLiteral true cs
  | '+' :: cs => signedLiteral false cs
  | cs => signedLiteral false cs

/-- The value of a numeral: clamped when it is out of range, zero when there is none. -/
def value (s : String) : Int64 :=
  match read s with
  | .ok n => n
  | .error (.outOfRange n) => n
  | .error .malformed => 0

/-- The decimal text of an integer. -/
def render (n : Int64) : String :=
  if n.toInt < 0 then "-" ++ Nat.repr n.toInt.natAbs else Nat.repr n.toInt.natAbs

end Integer

end SolidityLint
