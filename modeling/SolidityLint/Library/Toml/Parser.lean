import SolidityLint.Text.Space
import SolidityLint.Library.Toml.Scalar

/-!
# Toml — documents

A document is a list of lines: headers, which say what table the lines below belong to, and keys
with their values.  `Toml.parse?` gives the table of a document, or nothing when a line is at
fault.
-/

namespace SolidityLint.Toml

/-! ### Keys -/

/-- May the character stand in a key without quotes? -/
def isKeyChar (c : Char) : Bool := c.isAlphanum || c == '_' || c == '-'

/-- One part of a key. -/
def keyPart? (cs : List Char) : Option (String × List Char) :=
  match cs with
  | '"' :: r => (shortString '"' r).map fun (s, r) => (String.ofList s, r)
  | '\'' :: r => (shortString '\'' r).map fun (s, r) => (String.ofList s, r)
  | cs =>
    let name := cs.takeWhile isKeyChar
    if name.isEmpty then none else some (String.ofList name, cs.dropWhile isKeyChar)

/-- The parts of a key with dots between them; blanks around them do not count.  `fuel` bounds
their number. -/
def key? : Nat → List Char → Option (List String × List Char)
  | 0, _ => none
  | fuel + 1, cs => do
    let (part, rest) ← keyPart? (cs.dropWhile isBlank)
    match rest.dropWhile isBlank with
    | '.' :: r => (key? fuel r).map fun (parts, r) => (part :: parts, r)
    | r => some ([part], r)

/-! ### Values -/

/-- Passes over white space, line breaks and comments; `inComment` within one. -/
def skipLines : Bool → List Char → List Char
  | _, [] => []
  | true, c :: cs => skipLines (!isNewline c) cs
  | false, c :: cs =>
    if isBlank c || isNewline c then skipLines false cs
    else if c == '#' then skipLines true cs
    else c :: cs

mutual

/-- A value, and what follows it. -/
def value? : Nat → List Char → Option (Value × List Char)
  | 0, _ => none
  | fuel + 1, cs =>
    let text (r : Option (List Char × List Char)) : Option (Value × List Char) :=
      r.map fun (s, rest) => (.str (String.ofList s), rest)
    match cs with
    | '"' :: '"' :: '"' :: r => text (longString '"' r)
    | '\'' :: '\'' :: '\'' :: r => text (longString '\'' r)
    | '"' :: r => text (shortString '"' r)
    | '\'' :: r => text (shortString '\'' r)
    | '[' :: r => (items? fuel (skipLines false r)).map fun (vs, rest) => (.array vs, rest)
    | '\x7b' :: r => (pairs? fuel [] (skipLines false r)).map fun (es, rest) => (.table false es, rest)
    | cs =>
      let (w, rest) := word cs
      (wordValue? w).map (·, rest)

/-- The values of a list up to its closing bracket. -/
def items? : Nat → List Char → Option (List Value × List Char)
  | 0, _ => none
  | fuel + 1, cs =>
    match cs with
    | ']' :: r => some ([], r)
    | cs => do
      let (v, rest) ← value? fuel cs
      match skipLines false rest with
      | ',' :: r => (items? fuel (skipLines false r)).map fun (vs, rest) => (v :: vs, rest)
      | ']' :: r => some ([v], r)
      | _ => none

/-- The keys and values of an inline table up to its closing brace. -/
def pairs? : Nat → Entries → List Char → Option (Entries × List Char)
  | 0, _, _ => none
  | fuel + 1, es, cs =>
    match cs with
    | '\x7d' :: r => some (es, r)
    | cs => do
      let (path, rest) ← key? cs.length cs
      match rest with
      | '=' :: r =>
        let (v, rest) ← value? fuel (r.dropWhile isBlank)
        let es ← es.givePath path v
        match skipLines false rest with
        | ',' :: r => pairs? fuel es (skipLines false r)
        | '\x7d' :: r => some (es, r)
        | _ => none
      | _ => none

end

/-! ### Lines -/

/-- What follows the end of a line: nothing but blanks and a comment may stand before it. -/
def endOfLine? (cs : List Char) : Option (List Char) :=
  match cs.dropWhile isBlank with
  | [] => some []
  | c :: r =>
    if c == '#' then some (r.dropWhile (!isNewline ·))
    else if isNewline c then some r
    else none

/-- The document so far, and the table that lines belong to. -/
structure Draft where
  entries : Entries := []
  current : List String := []

/-- Reads a header behind its bracket. -/
def Draft.header? (d : Draft) (cs : List Char) : Option (Draft × List Char) :=
  match cs with
  | '[' :: r => do
    let (path, rest) ← key? r.length r
    match rest with
    | ']' :: ']' :: rest => some (⟨← d.entries.openItem path, path⟩, ← endOfLine? rest)
    | _ => none
  | cs => do
    let (path, rest) ← key? cs.length cs
    match rest with
    | ']' :: rest => some (⟨← d.entries.openTable path, path⟩, ← endOfLine? rest)
    | _ => none

/-- Reads a key with its value. -/
def Draft.pair? (d : Draft) (cs : List Char) : Option (Draft × List Char) := do
  let (path, rest) ← key? cs.length cs
  match rest with
  | '=' :: r =>
    let (v, rest) ← value? (r.length + 1) (r.dropWhile isBlank)
    let entries ← d.entries.below false (Entries.givePath path v) d.current
    some ({ d with entries }, ← endOfLine? rest)
  | _ => none

/-- Reads lines; `fuel` bounds their number. -/
def Draft.lines? : Nat → Draft → List Char → Option Entries
  | 0, _, _ => none
  | fuel + 1, d, cs =>
    match skipLines false cs with
    | [] => some d.entries
    | '[' :: r => do
      let (d, rest) ← d.header? r
      d.lines? fuel rest
    | cs => do
      let (d, rest) ← d.pair? cs
      d.lines? fuel rest

/-- Are there no control characters but tabs and line breaks? -/
def isPlain : List Char → Bool
  | [] => true
  | '\r' :: cs => cs.head? == some '\n' && isPlain cs
  | c :: cs => (c == '\t' || c == '\n' || (0x20 ≤ c.toNat && c.toNat != 0x7F)) && isPlain cs

/-- The table of a document. -/
def parse? (text : String) : Option Entries :=
  let cs := match text.toList with
    | '\uFEFF' :: cs => cs
    | cs => cs
  if isPlain cs then Draft.lines? (cs.length + 1) {} cs else none

end SolidityLint.Toml
