/-!
# Text — white space

White space between words of a text, in the sense of the character database.
-/

namespace SolidityLint

/-- Is the character white space? -/
def isSpace (c : Char) : Bool :=
  let n := c.toNat
  (0x09 ≤ n && n ≤ 0x0D) || n == 0x20 || n == 0x85 || n == 0xA0 || n == 0x1680
    || (0x2000 ≤ n && n ≤ 0x200A) || n == 0x2028 || n == 0x2029 || n == 0x202F || n == 0x205F
    || n == 0x3000

/-- The maximal runs of characters that are not white space; `word` is the run being read, last
character first. -/
def wordsFrom : List Char → List Char → List (List Char)
  | [], word => if word.isEmpty then [] else [word.reverse]
  | c :: cs, word =>
    if isSpace c then
      if word.isEmpty then wordsFrom cs [] else word.reverse :: wordsFrom cs []
    else wordsFrom cs (c :: word)

/-- The words of a text between white space. -/
def words (cs : List Char) : List String := (wordsFrom cs []).map String.ofList

/-- Drops what the test accepts at both ends. -/
def trimBoth (p : Char → Bool) (cs : List Char) : List Char :=
  ((cs.dropWhile p).reverse.dropWhile p).reverse

/-- The text without white space at its ends. -/
def trimSpace (s : String) : String := String.ofList (trimBoth isSpace s.toList)

/-- Is the character a letter, a digit or an underscore of ASCII? -/
def isWordChar (c : Char) : Bool := c.isAlphanum || c == '_'

/-! ### Parts of texts -/

/-- Does `s` start with `front`? -/
def hasFront (front s : String) : Bool := front.toList.isPrefixOf s.toList

/-- Does `s` end with `back`? -/
def hasBack (back s : String) : Bool := back.toList.isSuffixOf s.toList

/-- Does `part` stand somewhere in `cs`? -/
def hasInfix (part : List Char) : List Char → Bool
  | [] => part.isEmpty
  | c :: cs => part.isPrefixOf (c :: cs) || hasInfix part cs

theorem hasInfix_iff {part cs : List Char} : hasInfix part cs ↔ part <:+: cs := by
  induction cs with
  | nil => simp [hasInfix]
  | cons c cs ih =>
      rw [hasInfix, Bool.or_eq_true, List.isPrefixOf_iff_prefix, ih, List.infix_cons_iff]

/-- Does `part` stand somewhere in `s`? -/
def hasPart (part s : String) : Bool := hasInfix part.toList s.toList

/-- Splits at each occurrence of a character. -/
def splitAtChar (sep : Char) (cs : List Char) : List (List Char) :=
  go cs []
where
  go : List Char → List Char → List (List Char)
    | [], cur => [cur.reverse]
    | c :: cs, cur => if c == sep then cur.reverse :: go cs [] else go cs (c :: cur)

/-- What stands in front of the first `mark`, or all. -/
def cutBefore (mark : List Char) : List Char → List Char
  | [] => []
  | c :: cs => if mark.isPrefixOf (c :: cs) then [] else c :: cutBefore mark cs

end SolidityLint
