import SolidityLint.Config.Data
import SolidityLint.Text.Space

/-!
# Yaml — what plain scalars mean

A scalar without quotes means what its text looks like: null, a truth value, an integer, a float, a
point in time, or else a string.  `Scalar.resolve` decides, and the printer asks it which strings
need quotes.
-/

namespace SolidityLint

namespace Yaml

namespace Scalar

/-- Texts with a meaning of their own. -/
def fixedMeaning? : String → Option Data
  | "true" | "True" | "TRUE" => some (.bool true)
  | "false" | "False" | "FALSE" => some (.bool false)
  | "" | "~" | "null" | "Null" | "NULL" => some .null
  | ".nan" | ".NaN" | ".NAN" => some (.float .nan)
  | ".inf" | ".Inf" | ".INF" | "+.inf" | "+.Inf" | "+.INF" => some (.float (.infinity false))
  | "-.inf" | "-.Inf" | "-.INF" => some (.float (.infinity true))
  | _ => none

/-! ### Integers -/

/-- The value of a digit up to base 16. -/
def digit? (c : Char) : Option Nat :=
  if c.isDigit then some (c.toNat - '0'.toNat)
  else if 'a' ≤ c ∧ c ≤ 'f' then some (c.toNat - 'a'.toNat + 10)
  else if 'A' ≤ c ∧ c ≤ 'F' then some (c.toNat - 'A'.toNat + 10)
  else none

/-- The number that digits of a base write. -/
def inBase? (base : Nat) (cs : List Char) : Option Nat :=
  if cs.isEmpty then none
  else cs.foldlM (fun n c => do
    let d ← digit? c
    if d < base then some (n * base + d) else none) 0

/-- A number whose front tells the base. -/
def magnitude? : List Char → Option Nat
  | '0' :: 'x' :: cs | '0' :: 'X' :: cs => inBase? 16 cs
  | '0' :: 'o' :: cs | '0' :: 'O' :: cs => inBase? 8 cs
  | '0' :: 'b' :: cs | '0' :: 'B' :: cs => inBase? 2 cs
  | '0' :: c :: cs => inBase? 8 (c :: cs)
  | cs => inBase? 10 cs

/-- An integer between the least of 64 bits with a sign and the largest without one. -/
def integer? (cs : List Char) : Option Int :=
  match cs with
  | '-' :: cs => (magnitude? cs).bind fun n => if n ≤ Nat.pow 2 63 then some (-(n : Int)) else none
  | '+' :: cs => (magnitude? cs).bind fun n => if n < Nat.pow 2 63 then some (n : Int) else none
  | cs => (magnitude? cs).bind fun n => if n < Nat.pow 2 64 then some (n : Int) else none

/-! ### Floats -/

/-- Drops a sign. -/
def unsigned : List Char → List Char
  | '-' :: cs | '+' :: cs => cs
  | cs => cs

/-- Does the text have the form of a decimal number, with a point or an exponent if need be? -/
def isDecimal (cs : List Char) : Bool :=
  let cs := unsigned cs
  let whole := cs.takeWhile Char.isDigit
  let rest := cs.drop whole.length
  let (point, fraction, rest) := match rest with
    | '.' :: rest => (true, rest.takeWhile Char.isDigit, rest.dropWhile Char.isDigit)
    | rest => (false, [], rest)
  let mantissa := if whole.isEmpty then point && !fraction.isEmpty else true
  let exponent := match rest with
    | [] => true
    | c :: rest => (c == 'e' || c == 'E') && !(unsigned rest).isEmpty
        && (unsigned rest).all Char.isDigit
  mantissa && exponent

/-- A finite double that a decimal number writes. -/
def decimal? (cs : List Char) : Option Data :=
  if isDecimal cs then
    let text := match cs with
      | '+' :: cs => cs
      | cs => cs
    (Binary64.ofNumeral? (String.ofList text)).map .float
  else none

/-! ### Points in time -/

/-- Leading digits, at least one and at most `width`, and the rest. -/
def digits? (least width : Nat) (cs : List Char) : Option (Nat × List Char) :=
  let ds := (cs.takeWhile Char.isDigit).take width
  if ds.length < least then none else (inBase? 10 ds).map (·, cs.drop ds.length)

/-- Drops an expected character. -/
def expect? (c : Char) : List Char → Option (List Char)
  | d :: cs => if c == d then some cs else none
  | [] => none

def isLeap (year : Nat) : Bool := year % 4 == 0 && (year % 100 != 0 || year % 400 == 0)

/-- The number of days of a month. -/
def daysOf (year month : Nat) : Nat :=
  if month == 2 then (if isLeap year then 29 else 28)
  else if [4, 6, 9, 11].contains month then 30 else 31

/-- A number with zeros in front. -/
def padded (width n : Nat) : String :=
  let ds := Nat.repr n
  String.ofList (List.replicate (width - ds.length) '0') ++ ds

/-- A zone behind a time: its text, and the rest must be empty. -/
def zone? : List Char → Option String
  | ['Z'] => some "Z"
  | sign :: cs =>
    if sign == '+' || sign == '-' then do
      let (h, cs) ← digits? 2 2 cs
      let cs ← expect? ':' cs
      let (m, cs) ← digits? 2 2 cs
      if cs.isEmpty && h ≤ 24 && m < 60 then
        some (if h = 0 && m = 0 then "Z"
          else String.ofList [sign] ++ padded 2 h ++ ":" ++ padded 2 m)
      else none
    else none
  | [] => none

/-- A time of day with an optional fraction: its text and the rest. -/
def clock? (cs : List Char) : Option (String × List Char) := do
  let (h, cs) ← digits? 1 2 cs
  let cs ← expect? ':' cs
  let (m, cs) ← digits? 1 2 cs
  let cs ← expect? ':' cs
  let (s, cs) ← digits? 1 2 cs
  if 24 ≤ h || 60 ≤ m || 60 ≤ s then none
  else
    let (fraction, cs) := match cs with
      | '.' :: rest =>
        let ds := rest.takeWhile Char.isDigit
        if ds.isEmpty then ([], cs)
        else (((ds.take 9).reverse.dropWhile (· == '0')).reverse, rest.drop ds.length)
      | cs => ([], cs)
    some (padded 2 h ++ ":" ++ padded 2 m ++ ":" ++ padded 2 s
      ++ (if fraction.isEmpty then "" else "." ++ String.ofList fraction), cs)

/-- A date, or a date and a time, in its full form. -/
def time? (cs : List Char) : Option String := do
  if (cs.takeWhile Char.isDigit).length != 4 then none
  let (year, cs) ← digits? 4 4 cs
  let cs ← expect? '-' cs
  let (month, cs) ← digits? 1 2 cs
  let cs ← expect? '-' cs
  let (day, cs) ← digits? 1 2 cs
  if month < 1 || 12 < month || day < 1 || daysOf year month < day then none
  let date := padded 4 year ++ "-" ++ padded 2 month ++ "-" ++ padded 2 day
  match cs with
  | [] => some (date ++ "T00:00:00Z")
  | 'T' :: cs | 't' :: cs =>
    let (clock, rest) ← clock? cs
    let zone ← zone? rest
    some (date ++ "T" ++ clock ++ zone)
  | ' ' :: cs =>
    let (clock, rest) ← clock? cs
    if rest.isEmpty then some (date ++ "T" ++ clock ++ "Z") else none
  | _ => none

/-! ### The meaning -/

/-- A number or a point in time. -/
def number? (cs : List Char) : Option Data :=
  match time? cs with
  | some t => some (.time t)
  | none =>
    let plain := cs.filter (· != '_')
    match integer? plain with
    | some n => some (.int n)
    | none => decimal? plain

/-- What a plain scalar means. -/
def resolve (text : String) : Data :=
  match fixedMeaning? text with
  | some d => d
  | none =>
    let cs := text.toList
    match cs with
    | '.' :: _ => (decimal? cs).getD (.str text)
    | c :: _ =>
      if c.isDigit || c == '+' || c == '-' then (number? cs).getD (.str text) else .str text
    | [] => .null

/-- Is a plain scalar a string? -/
def isString (text : String) : Bool :=
  match resolve text with
  | .str _ => true
  | _ => false

end Scalar

end Yaml

end SolidityLint
