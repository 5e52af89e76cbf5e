import SolidityLint.Json.Basic

/-!
# Json — reading

A text is cut into tokens (`Json.lex`) and the tokens are read with a stack of open brackets
(`Json.readValue`), so that nesting costs no recursion.  Two readers are built on them:
`Json.parseFirst?` reads the first value of a text and leaves the rest alone, `Json.parse?`
accepts nothing but white space after it.

The grammar is strict: no leading zeros, no control characters in strings, and at most 10000
open brackets.  An escaped surrogate without its partner is the replacement character.
-/

namespace SolidityLint

namespace Json

/-- A lexical unit of a JSON text. -/
inductive Token where
  | openArr | closeArr | openObj | closeObj | colon | comma
  | null | bool (b : Bool) | num (text : String) | str (s : String)
  /-- The place from which on the text is not made of units. -/
  | bad
deriving DecidableEq, Repr

/-- White space between units. -/
def isBlank (c : Char) : Bool := c == ' ' || c == '\t' || c == '\n' || c == '\r'

/-! ### Strings -/

/-- Splits the text after an opening quote at the closing one.  A backslash takes the character
after it along. -/
def splitString : List Char → Option (List Char × List Char)
  | [] => none
  | '"' :: rest => some ([], rest)
  | '\\' :: c :: rest => (splitString rest).map fun (body, rest) => ('\\' :: c :: body, rest)
  | c :: rest => (splitString rest).map fun (body, rest) => (c :: body, rest)

theorem length_of_splitString {cs body rest : List Char} (h : splitString cs = some (body, rest)) :
    rest.length < cs.length := by
  fun_induction splitString cs generalizing body rest with
  | case1 => simp at h
  | case2 => simp at h; simp [h.2]
  | case3 c cs ih =>
    obtain ⟨p, hp, he⟩ := Option.map_eq_some_iff.1 h
    have := ih hp
    simp only [Prod.mk.injEq] at he
    simp only [← he.2, List.length_cons]
    omega
  | case4 c cs _ _ ih =>
    obtain ⟨p, hp, he⟩ := Option.map_eq_some_iff.1 h
    have := ih hp
    simp only [Prod.mk.injEq] at he
    simp only [← he.2, List.length_cons]
    omega

/-- The value of a hexadecimal digit. -/
def hexDigit? (c : Char) : Option Nat :=
  if c.isDigit then some (c.toNat - '0'.toNat)
  else if 'a' ≤ c && c ≤ 'f' then some (c.toNat - 'a'.toNat + 10)
  else if 'A' ≤ c && c ≤ 'F' then some (c.toNat - 'A'.toNat + 10)
  else none

/-- The value of four hexadecimal digits. -/
def hex4? (a b c d : Char) : Option Nat := do
  return ((← hexDigit? a) * 16 + (← hexDigit? b)) * 256 + (← hexDigit? c) * 16 + (← hexDigit? d)

/-- One written piece of a string body: a character, or a unit of sixteen bits from an escape. -/
inductive Piece where
  | char (c : Char)
  | unit (n : Nat)

/-- The pieces of a string body. -/
def pieces? : List Char → Option (List Piece)
  | [] => some []
  | '\\' :: 'u' :: a :: b :: c :: d :: rest => do
    let n ← hex4? a b c d
    return .unit n :: (← pieces? rest)
  | '\\' :: e :: rest => do
    let c ← match e with
      | '"' => some '"'
      | '\\' => some '\\'
      | '/' => some '/'
      | 'b' => some '\x08'
      | 'f' => some '\x0c'
      | 'n' => some '\n'
      | 'r' => some '\r'
      | 't' => some '\t'
      | _ => none
    return .char c :: (← pieces? rest)
  | c :: rest => if c.toNat < 0x20 || c == '\\' then none else (pieces? rest).map (.char c :: ·)

/-- A unit that is half of a pair. -/
def isSurrogate (n : Nat) : Bool := 0xD800 ≤ n && n < 0xE000

/-- The characters of a string: a high unit and the low unit after it make one character, any
other half is the replacement character. -/
def joinPieces : List Piece → List Char
  | [] => []
  | .char c :: rest => c :: joinPieces rest
  | .unit high :: .unit low :: rest =>
    if 0xD800 ≤ high ∧ high < 0xDC00 ∧ 0xDC00 ≤ low ∧ low < 0xE000 then
      Char.ofNat ((high - 0xD800) * 1024 + (low - 0xDC00) + 0x10000) :: joinPieces rest
    else if isSurrogate high then '\uFFFD' :: joinPieces (.unit low :: rest)
    else Char.ofNat high :: joinPieces (.unit low :: rest)
  | .unit n :: rest => (if isSurrogate n then '\uFFFD' else Char.ofNat n) :: joinPieces rest

/-- The text of a string body. -/
def unescape? (body : List Char) : Option String :=
  (pieces? body).map fun ps => String.ofList (joinPieces ps)

/-! ### Numbers -/

/-- A run of at least one digit and what follows it. -/
def digits1? (cs : List Char) : Option (List Char × List Char) :=
  match cs.takeWhile Char.isDigit with
  | [] => none
  | ds => some (ds, cs.dropWhile Char.isDigit)

/-- The integral part: a zero, or digits that do not begin with one. -/
def integral? : List Char → Option (List Char × List Char)
  | '0' :: rest => some (['0'], rest)
  | cs => digits1? cs

/-- The fraction, if a point follows. -/
def fraction? : List Char → Option (List Char × List Char)
  | '.' :: rest => (digits1? rest).map fun (ds, rest) => ('.' :: ds, rest)
  | cs => some ([], cs)

/-- The exponent, if its mark follows. -/
def exponent? : List Char → Option (List Char × List Char)
  | 'e' :: rest => (signed? rest).map fun (ds, rest) => ('e' :: ds, rest)
  | 'E' :: rest => (signed? rest).map fun (ds, rest) => ('E' :: ds, rest)
  | cs => some ([], cs)
where
  signed? : List Char → Option (List Char × List Char)
    | '+' :: rest => (digits1? rest).map fun (ds, rest) => ('+' :: ds, rest)
    | '-' :: rest => (digits1? rest).map fun (ds, rest) => ('-' :: ds, rest)
    | rest => digits1? rest

/-- The number at the front of a text without its sign, and what follows. -/
def unsigned? (cs : List Char) : Option (List Char × List Char) := do
  let (i, cs) ← integral? cs
  let (f, cs) ← fraction? cs
  let (e, cs) ← exponent? cs
  return (i ++ f ++ e, cs)

/-- The number at the front of a text and what follows. -/
def number? : List Char → Option (List Char × List Char)
  | '-' :: cs => (unsigned? cs).map fun (ds, rest) => ('-' :: ds, rest)
  | cs => unsigned? cs

/-! ### Tokens -/

/-- One unit from the front of a text that starts with `c`, and what follows it. -/
def unit (c : Char) (cs : List Char) : Token × List Char :=
  match c with
  | '[' => (.openArr, cs)
  | ']' => (.closeArr, cs)
  | '\x7b' => (.openObj, cs)
  | '\x7d' => (.closeObj, cs)
  | ':' => (.colon, cs)
  | ',' => (.comma, cs)
  | '"' =>
    match splitString cs with
    | none => (.bad, [])
    | some (body, rest) =>
      match unescape? body with
      | none => (.bad, [])
      | some s => (.str s, rest)
  | 'n' => match cs with
    | 'u' :: 'l' :: 'l' :: rest => (.null, rest)
    | _ => (.bad, [])
  | 't' => match cs with
    | 'r' :: 'u' :: 'e' :: rest => (.bool true, rest)
    | _ => (.bad, [])
  | 'f' => match cs with
    | 'a' :: 'l' :: 's' :: 'e' :: rest => (.bool false, rest)
    | _ => (.bad, [])
  | c =>
    match number? (c :: cs) with
    | none => (.bad, [])
    | some (text, rest) => if rest.length ≤ cs.length then (.num (String.ofList text), rest) else (.bad, [])

theorem length_unit (c : Char) (cs : List Char) : (unit c cs).2.length ≤ cs.length := by
  unfold unit
  split <;> (try split) <;> (try split) <;> simp_all <;>
    first
    | omega
    | exact Nat.le_of_lt (length_of_splitString (by assumption))

/-- The units of a text, up to the first place where there is none. -/
def lex (cs : List Char) : List Token :=
  match cs with
  | [] => []
  | c :: cs =>
    if isBlank c then lex cs
    else
      have := length_unit c cs
      (unit c cs).1 :: lex (unit c cs).2
termination_by cs.length

/-! ### Values -/

/-- A bracket that is still open, with what it holds so far, last first. -/
inductive Frame where
  | arr (items : List Json)
  | obj (members : List (String × Json)) (key : String)

/-- What the next unit may be. -/
inductive Expect where
  | value
  /-- A value, or the end of an array that has no item yet. -/
  | firstItem
  | key (members : List (String × Json))
  /-- A key, or the end of an object that has no member yet. -/
  | firstKey
  | colon (members : List (String × Json)) (key : String)
  /-- A comma or the closing bracket. -/
  | more

/-- The deepest nesting that is read. -/
def maxDepth : Nat := 10000

/-- Puts a finished value into the innermost open bracket. -/
def Frame.put (v : Json) : Frame → Frame
  | .arr items => .arr (v :: items)
  | .obj members key => .obj ((key, v) :: members) key

/-- Reads one value off the front of the units.  `stack` holds the open brackets and `depth`
their number. -/
def readValue : List Token → Expect → List Frame → Nat → Option (Json × List Token)
  | [], _, _, _ => none
  | t :: ts, expect, stack, depth =>
    let finish (v : Json) (stack : List Frame) (depth : Nat) : Option (Json × List Token) :=
      match stack with
      | [] => some (v, ts)
      | f :: stack => readValue ts .more (f.put v :: stack) depth
    let opened (expect : Expect) (f : Frame) : Option (Json × List Token) :=
      if depth < maxDepth then readValue ts expect (f :: stack) (depth + 1) else none
    let start : Option (Json × List Token) :=
      match t with
      | .null => finish .null stack depth
      | .bool b => finish (.bool b) stack depth
      | .num n => finish (.num n) stack depth
      | .str s => finish (.str s) stack depth
      | .openArr => opened .firstItem (.arr [])
      | .openObj => opened .firstKey (.obj [] "")
      | _ => none
    match expect with
    | .value => start
    | .firstItem =>
      match t, stack with
      | .closeArr, _ :: stack => finish (.arr []) stack (depth - 1)
      | _, _ => start
    | .firstKey =>
      match t, stack with
      | .closeObj, _ :: stack => finish (.obj []) stack (depth - 1)
      | .str k, _ => readValue ts (.colon [] k) stack depth
      | _, _ => none
    | .key members =>
      match t with
      | .str k => readValue ts (.colon members k) stack depth
      | _ => none
    | .colon members k =>
      match t, stack with
      | .colon, _ :: stack => readValue ts .value (.obj members k :: stack) depth
      | _, _ => none
    | .more =>
      match t, stack with
      | .comma, .arr items :: stack => readValue ts .value (.arr items :: stack) depth
      | .comma, .obj members k :: stack => readValue ts (.key members) (.obj members k :: stack) depth
      | .closeArr, .arr items :: stack => finish (.arr items.reverse) stack (depth - 1)
      | .closeObj, .obj members _ :: stack => finish (.obj members.reverse) stack (depth - 1)
      | _, _ => none

/-- Reads the first value of a text, whatever follows it. -/
def parseFirst? (s : String) : Option Json :=
  (readValue (lex s.toList) .value [] 0).map (·.1)

/-- Reads a text that is one value. -/
def parse? (s : String) : Option Json :=
  match readValue (lex s.toList) .value [] 0 with
  | some (v, []) => some v
  | _ => none

end Json

end SolidityLint
