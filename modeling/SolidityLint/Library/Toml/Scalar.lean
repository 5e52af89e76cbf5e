import SolidityLint.Json.Parser
import SolidityLint.Text.Space
import SolidityLint.Library.Toml.Value

/-!
# Toml — scalars

Strings with their escapes, and the words that are numbers, points in time and truth values.
-/

namespace SolidityLint.Toml

def isBlank (c : Char) : Bool := c == ' ' || c == '\t'

def isNewline (c : Char) : Bool := c == '\n' || c == '\r'

/-! ### Strings -/

/-- The character of so many hexadecimal digits. -/
def hexChar? (width : Nat) (cs : List Char) : Option Char :=
  if cs.length < width then none
  else do
    let n ← (cs.take width).foldlM (fun n c => (Json.hexDigit? c).map (16 * n + ·)) 0
    if n.isValidChar then some (Char.ofNat n) else none

/-- The character of an escape, given what follows the backslash, and how much of that it took. -/
def escape? : List Char → Option (Char × Nat)
  | 'b' :: _ => some ('\x08', 1)
  | 't' :: _ => some ('\t', 1)
  | 'n' :: _ => some ('\n', 1)
  | 'f' :: _ => some ('\x0c', 1)
  | 'r' :: _ => some ('\r', 1)
  | 'e' :: _ => some ('\x1b', 1)
  | '"' :: _ => some ('"', 1)
  | '\\' :: _ => some ('\\', 1)
  | 'x' :: cs => (hexChar? 2 cs).map (·, 3)
  | 'u' :: cs => (hexChar? 4 cs).map (·, 5)
  | 'U' :: cs => (hexChar? 8 cs).map (·, 9)
  | _ => none

/-- How a string is written: its quote, whether escapes count, and whether it may run over lines,
in which case three quotes close it. -/
structure StringStyle where
  quote : Char
  literal : Bool
  long : Bool

/-- The text of a string up to its closing quotes, and what follows them.  The next `skip`
characters belong to an escape; `joining` passes over white space behind a backslash at the end of
a line. -/
def stringBody (style : StringStyle) : Nat → Bool → List Char → Option (List Char × List Char)
  | _, _, [] => none
  | skip + 1, joining, _ :: cs => stringBody style skip joining cs
  | 0, joining, c :: cs =>
    if joining && (isBlank c || isNewline c) then stringBody style 0 true cs
    else if c == style.quote && !style.long then some ([], cs)
    else if c == style.quote && [style.quote, style.quote].isPrefixOf cs then
      match ((cs.drop 2).takeWhile (· == style.quote)).length with
      | 0 => some ([], cs.drop 2)
      | 1 | 2 => (stringBody style 0 false cs).map fun (s, rest) => (c :: s, rest)
      | _ => none
    else if c == '\\' && !style.literal then
      if style.long && ((cs.dropWhile isBlank).head?.any isNewline) then stringBody style 0 true cs
      else match escape? cs with
        | none => none
        | some (d, n) => (stringBody style n false cs).map fun (s, rest) => (d :: s, rest)
    else if isNewline c && !style.long then none
    else (stringBody style 0 false cs).map fun (s, rest) => (c :: s, rest)

/-- A string on one line behind its quote. -/
def shortString (q : Char) (cs : List Char) : Option (List Char × List Char) :=
  stringBody ⟨q, q == '\'', false⟩ 0 false cs

/-- A string over lines behind its three quotes; a line break right there does not count. -/
def longString (q : Char) (cs : List Char) : Option (List Char × List Char) :=
  let cs := match cs with
    | '\r' :: '\n' :: r => r
    | '\n' :: r => r
    | r => r
  stringBody ⟨q, q == '\'', true⟩ 0 false cs

/-! ### Numbers -/

/-- The digits without underscores, each of which has to stand between two digits. -/
def digits? (isDigit : Char → Bool) (cs : List Char) : Option (List Char) :=
  let parts := splitAtChar '_' cs
  if parts.all fun p => !p.isEmpty && p.all isDigit then some parts.flatten else none

/-- The value of digits in a base. -/
def valueIn (base : Nat) (ds : List Char) : Nat :=
  ds.foldl (fun n c => base * n + (Json.hexDigit? c).getD 0) 0

/-- Does an integer fit into 64 bits? -/
def fits (n : Int) : Bool := -(Nat.pow 2 63 : Nat) ≤ n && n < (Nat.pow 2 63 : Nat)

/-- Splits a sign off; true for a minus. -/
def sign : List Char → Bool × List Char
  | '-' :: cs => (true, cs)
  | '+' :: cs => (false, cs)
  | cs => (false, cs)

/-- Digits without leading zeros. -/
def wholeDigits? (cs : List Char) : Option (List Char) := do
  let ds ← digits? Char.isDigit cs
  if ds.length > 1 && ds.head? == some '0' then none else some ds

/-- A decimal integer. -/
def decimal? (cs : List Char) : Option Value := do
  let (negative, cs) := sign cs
  let n : Int := valueIn 10 (← wholeDigits? cs)
  let n := if negative then -n else n
  if fits n then some (.int n) else none

/-- An integer in another base. -/
def based? : List Char → Option Value
  | '0' :: 'x' :: cs => read 16 (fun c => (Json.hexDigit? c).isSome) cs
  | '0' :: 'o' :: cs => read 8 (fun c => '0' ≤ c && c ≤ '7') cs
  | '0' :: 'b' :: cs => read 2 (fun c => c == '0' || c == '1') cs
  | _ => none
where
  read (base : Nat) (isDigit : Char → Bool) (cs : List Char) : Option Value := do
    let n : Int := valueIn base (← digits? isDigit cs)
    if fits n then some (.int n) else none

/-- A number with a fraction or an exponent. -/
def float? (cs : List Char) : Option Value := do
  let cs := (sign cs).2
  if cs == "inf".toList || cs == "nan".toList then some .float
  else
    let isMark (c : Char) : Bool := c == 'e' || c == 'E'
    let (whole, places) := match splitAtChar '.' (cs.takeWhile (!isMark ·)) with
      | [w] => (w, none)
      | [w, f] => (w, some f)
      | _ => ([], none)
    let _ ← wholeDigits? whole
    let _ ← (match places with | some f => digits? Char.isDigit f | none => some [])
    match cs.dropWhile (!isMark ·) with
    | [] => if places.isSome then some .float else none
    | _ :: e => (digits? Char.isDigit (sign e).2).map fun _ => .float

/-! ### Points in time -/

/-- A number of just so many digits within bounds. -/
def field? (width low high : Nat) (cs : List Char) : Option Nat :=
  if cs.length = width && cs.all Char.isDigit && low ≤ valueIn 10 cs && valueIn 10 cs ≤ high then
    some (valueIn 10 cs)
  else none

/-- The number of days of a month. -/
def daysIn (year month : Nat) : Nat :=
  if month = 2 then (if year % 4 = 0 && (year % 100 != 0 || year % 400 = 0) then 29 else 28)
  else if [4, 6, 9, 11].contains month then 30 else 31

/-- Is it a day, as in `1979-05-27`? -/
def isDay (cs : List Char) : Bool :=
  match splitAtChar '-' cs with
  | [y, m, d] => ((do
      let month ← field? 2 1 12 m
      field? 2 1 (daysIn (← field? 4 0 9999 y) month) d) : Option Nat).isSome
  | _ => false

/-- Is it a time of day, with or without seconds? -/
def isClock (cs : List Char) : Bool :=
  match splitAtChar ':' cs with
  | [h, m] => (field? 2 0 23 h).isSome && (field? 2 0 59 m).isSome
  | [h, m, s] => (field? 2 0 23 h).isSome && (field? 2 0 59 m).isSome
      && match splitAtChar '.' s with
        | [s] => (field? 2 0 59 s).isSome
        | [s, f] => (field? 2 0 59 s).isSome && !f.isEmpty && f.all Char.isDigit
        | _ => false
  | _ => false

/-- Is it a time of day with the offset of its zone? -/
def isZonedClock (cs : List Char) : Bool :=
  let isOffsetMark (c : Char) : Bool := c == '+' || c == '-'
  match cs.reverse with
  | 'Z' :: r | 'z' :: r => isClock r.reverse
  | _ => match cs.dropWhile (!isOffsetMark ·) with
    | _ :: zone => isClock (cs.takeWhile (!isOffsetMark ·)) && zone.length = 5 && isClock zone
    | [] => false

/-- Is it a point in time? -/
def isTime (cs : List Char) : Bool :=
  isDay cs || isClock cs
    || (isDay (cs.take 10) && (cs[10]?).any (fun c => c == 'T' || c == 't' || c == ' ')
        && (isClock (cs.drop 11) || isZonedClock (cs.drop 11)))

/-! ### Words -/

/-- Does the character belong to a word? -/
def isWordPart (c : Char) : Bool := c.isAlphanum || "_+-.:".toList.contains c

/-- Splits off a word.  A blank between a day and a time of day belongs to it. -/
def word (cs : List Char) : List Char × List Char :=
  let w := cs.takeWhile isWordPart
  match cs.dropWhile isWordPart with
  | ' ' :: c :: rest =>
    if isDay w && c.isDigit then
      (w ++ ' ' :: (c :: rest).takeWhile isWordPart, (c :: rest).dropWhile isWordPart)
    else (w, ' ' :: c :: rest)
  | rest => (w, rest)

/-- The value of a word. -/
def wordValue? (w : List Char) : Option Value :=
  if w == "true".toList then some (.bool true)
  else if w == "false".toList then some (.bool false)
  else ((decimal? w).or (based? w)).or ((float? w).or (if isTime w then some .time else none))

end SolidityLint.Toml
