import SolidityLint.Library.Text.Punctuation
import SolidityLint.Text.Space

/-!
# Markdown — addresses

Addresses of pages and of mail become links where they stand between angle brackets, and some also
without.  The functions here tell how many characters at the front of a text are an address.
-/

namespace SolidityLint

namespace Markdown

/-- An address that is a link. -/
structure Address where
  /-- Where it leads. -/
  href : List Char
  /-- How it is written. -/
  label : List Char
deriving DecidableEq, Repr

/-! ### Mail -/

/-- May the character stand in the name of a mailbox? -/
def isMailboxChar (c : Char) : Bool :=
  c.isAlphanum || ".!#$%&'*+/=?^_\x60\x7b|\x7d~-".toList.contains c

/-- The length of a label of a domain at the front: letters, digits and hyphens, with neither end a
hyphen. -/
def domainLabel (cs : List Char) : Nat :=
  let run := (cs.takeWhile fun c => c.isAlphanum || c == '-').take 63
  if (run.head?.map Char.isAlphanum).getD false then (run.reverse.dropWhile (· == '-')).length else 0

/-- The length of a domain at the front; `most` bounds the number of its labels. -/
def domainLength : Nat → List Char → Nat
  | 0, _ => 0
  | most + 1, cs =>
    let n := domainLabel cs
    if n = 0 then 0
    else match cs.drop n with
      | '.' :: rest =>
        let more := domainLength most rest
        if more = 0 then n else n + 1 + more
      | _ => n

/-- The length of an address of mail at the front. -/
def mailLength? (cs : List Char) : Option Nat :=
  let name := cs.takeWhile isMailboxChar
  match cs.drop name.length with
  | '@' :: rest =>
    let domain := domainLength rest.length rest
    if name.isEmpty || domain = 0 then none else some (name.length + 1 + domain)
  | _ => none

/-- The address of mail, with its scheme. -/
def mailAddress (label : List Char) : Address :=
  let scheme := "mailto:".toList
  ⟨if scheme.isPrefixOf (label.map Char.toLower) then label else scheme ++ label, label⟩

/-! ### Pages -/

/-- The length of an address with a scheme at the front. -/
def urlLength? (cs : List Char) : Option Nat :=
  let isSchemeChar (c : Char) : Bool := c.isAlphanum || c == '+' || c == '.' || c == '-'
  let scheme := cs.takeWhile isSchemeChar
  let rest := cs.drop scheme.length
  if (cs.head?.map Char.isAlpha).getD false && 1 < scheme.length && scheme.length ≤ 33
      && rest.head? == some ':' then
    some (scheme.length + (rest.takeWhile fun c =>
      0x20 < c.toNat && c.toNat != 0x7F && c != '<' && c != '>').length)
  else none

/-- The address between angle brackets, given what follows the first of them, and how many
characters it takes with the second. -/
def bracketedAddress? (cs : List Char) : Option (Address × Nat) :=
  let closed (n : Nat) : Bool := cs[n]? == some '>'
  match mailLength? cs with
  | some n => if closed n then some (mailAddress (cs.take n), n + 1) else none
  | none => match urlLength? cs with
    | some n => if closed n then some (⟨cs.take n, cs.take n⟩, n + 1) else none
    | none => none

/-- May the character stand in the name of a host? -/
def isHostChar (c : Char) : Bool := c.isAlphanum || "-@:%._+~#=".toList.contains c

/-- May the character stand behind the host? -/
def isPathChar (c : Char) : Bool :=
  c.isAlphanum || "-@:%_+.~#$!?&/=();,'\">^\x7b\x7d[]\x60".toList.contains c

/-- The length of a host at the front: at most 256 characters, a dot and lower-case letters, as long
as can be; `n` is how many characters are tried. -/
def hostLength? (cs : List Char) : Nat → Option Nat
  | 0 => none
  | n + 1 =>
    match cs.drop (n + 1) with
    | '.' :: c :: rest =>
      if c.isLower then some (n + 3 + (rest.takeWhile Char.isLower).length)
      else hostLength? cs n
    | _ => hostLength? cs n

/-- The length of a host with what follows it; `numbered` allows a number behind a
colon. -/
def pageLength? (numbered : Bool) (cs : List Char) : Option Nat := do
  let host ← hostLength? cs (min 256 (cs.takeWhile isHostChar).length)
  let rest := cs.drop host
  let digits := (rest.drop 1).takeWhile Char.isDigit
  let colon := if numbered && rest.head? == some ':' && !digits.isEmpty then digits.length + 1 else 0
  let path := (rest.drop colon).takeWhile fun c => isPathChar c && (numbered || c != '$')
  some (host + colon + match path.head? with
    | some c => if c == '/' || c == '?' || c == '#' then path.length else 0
    | none => 0)

/-- Without what closes a sentence rather than the address. -/
def trimAddress (cs : List Char) : List Char :=
  match cs.getLast? with
  | some '.' => cs.dropLast
  | some ')' =>
    let excess := cs.count ')' - cs.count '('
    cs.take (cs.length - excess)
  | some ';' =>
    let front := (cs.dropLast.reverse.dropWhile Char.isAlphanum).reverse
    if front.length + 1 < cs.length && front.getLast? == some '&' then front.dropLast else cs
  | _ => cs

/-- Without marks of punctuation at the end, except a single character. -/
def trimMarks (cs : List Char) : List Char :=
  let kept := (cs.reverse.dropWhile fun c => "?!.,:*_~".toList.contains c).reverse
  if kept.isEmpty then cs.take 1 else kept

/-- The address at the front of a text that stands without brackets, and its length. -/
def plainAddress? (cs : List Char) : Option Address :=
  let scheme := ["http://", "https://", "ftp://"].find? fun s => s.toList.isPrefixOf cs
  let page := scheme.bind fun s =>
    (pageLength? true (cs.drop s.length)).map fun n => (false, s.length + n)
  let page := page <|> (if "www.".toList.isPrefixOf cs then
    (pageLength? false (cs.drop 4)).map fun n => (true, 4 + n) else none)
  match page with
  | some (bare, n) =>
    let label := trimMarks (trimAddress (cs.take n))
    some ⟨if bare then "http://".toList ++ label else label, label⟩
  | none => do
    if (cs.head?.map isAsciiPunctuation).getD true then none
    let n ← mailLength? cs
    let whole := cs.take n
    let domain := (whole.dropWhile (· != '@')).dropLast
    if !domain.contains '.' then none
    let label := if whole.getLast? == some '.' then whole.dropLast else whole
    match cs[label.length]? with
    | some '-' | some '_' => none
    | _ => some (mailAddress (trimMarks label))

end Markdown

end SolidityLint
