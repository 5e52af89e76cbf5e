import SolidityLint.Library.Markdown.Autolink
import SolidityLint.Library.Markdown.Link
import SolidityLint.Library.Markdown.Tag

/-!
# Markdown — reading text

The text of a block is read from left to right.  Marks of emphasis and opening brackets are kept as
pieces of their own until it is known what they mark: a closing bracket makes a link of what stands
behind the last opening one, and at the end marks that open are paired with marks that close.  What
is left of them is text.
-/

namespace SolidityLint

namespace Markdown

/-- A part of a text. -/
inductive Inline where
  /-- Text, with escapes and references still in it. -/
  | text (cs : List Char)
  | code (cs : List Char)
  | lineEnd (hard : Bool)
  | emphasis (parts : List Inline)
  | strong (parts : List Inline)
  | struck (parts : List Inline)
  | link (target : Target) (parts : List Inline)
  | image (target : Target) (parts : List Inline)
  | address (a : Address)
  | markup
  | checkbox (checked : Bool)
deriving Repr, Inhabited

mutual

/-- Is there a link in a part? -/
def Inline.hasLink : Inline → Bool
  | .link _ _ => true
  | .emphasis ps => anyLink ps
  | .strong ps => anyLink ps
  | .struck ps => anyLink ps
  | .image _ ps => anyLink ps
  | _ => false

/-- Is there a link in some part? -/
def anyLink : List Inline → Bool
  | [] => false
  | p :: ps => p.hasLink || anyLink ps

end

/-! ### Marks of emphasis -/

/-- A run of marks. -/
structure Marks where
  mark : Char
  /-- How many there were. -/
  given : Nat
  /-- How many are left. -/
  left : Nat
  opens : Bool
  closes : Bool

/-- The run of marks at a place: between which characters it stands decides what it can do. -/
def Marks.between (mark : Char) (n : Nat) (before after : Char) : Marks :=
  let leftFlanking := !isSpace after && (!isPunctuation after || isSpace before || isPunctuation before)
  let rightFlanking := !isSpace before && (!isPunctuation before || isSpace after || isPunctuation after)
  if mark == '_' then
    ⟨mark, n, n, leftFlanking && (!rightFlanking || isPunctuation before),
      rightFlanking && (!leftFlanking || isPunctuation after)⟩
  else ⟨mark, n, n, leftFlanking, rightFlanking⟩

/-- How many marks a pair takes on each side; none when the two do not fit. -/
def Marks.pair (opening closing : Marks) : Nat :=
  if (opening.closes || closing.opens) && (opening.given + closing.given) % 3 == 0
      && closing.given % 3 != 0 then 0
  else if 2 ≤ opening.left && 2 ≤ closing.left then 2
  else 1

/-- What a pair of marks makes of the parts between. -/
def Marks.wrap (m : Marks) (n : Nat) (parts : List Inline) : Inline :=
  if m.mark == '~' then .struck parts
  else if n = 1 then .emphasis parts
  else .strong parts

/-- A piece of a text: a finished part, marks, or an opening bracket with the text behind it. -/
inductive Piece where
  | part (p : Inline)
  | marks (m : Marks)
  | bracket (image : Bool) (behind : List Char)

/-- A piece that marks nothing. -/
def Piece.plain : Piece → Inline
  | .part p => p
  | .marks m => .text (List.replicate m.left m.mark)
  | .bracket image _ => .text (if image then ['!', '['] else ['['])

/-- Finds marks that a closing run fits among pieces, last first: the parts behind them, the marks,
how many are paired, and the pieces before. -/
def findOpening (closing : Marks) : List Piece → List Inline →
    Option (List Inline × Marks × Nat × List Piece)
  | [], _ => none
  | .marks m :: before, behind =>
    if m.opens && m.mark == closing.mark && 0 < m.pair closing then
      some (behind, m, m.pair closing, before)
    else findOpening closing before ((Piece.marks m).plain :: behind)
  | p :: before, behind => findOpening closing before (p.plain :: behind)

/-- Pairs a closing run with marks before it, as often as it can; `fuel` bounds how often. -/
def pairClosing : Nat → Marks → List Piece → List Piece
  | 0, closing, before => .marks closing :: before
  | fuel + 1, closing, before =>
    match findOpening closing before [] with
    | none => .marks closing :: before
    | some (parts, opening, n, before) =>
      let before := if opening.left ≤ n then before
        else .marks { opening with left := opening.left - n } :: before
      let before := .part (opening.wrap n parts) :: before
      if closing.left ≤ n then before
      else pairClosing fuel { closing with left := closing.left - n } before

/-- Pairs all marks of some pieces, given in order; `before` are the pieces already read, last
first. -/
def pairMarks : List Piece → List Piece → List Piece
  | [], before => before.reverse
  | .marks m :: rest, before =>
    pairMarks rest (if m.closes then pairClosing m.left m before else .marks m :: before)
  | p :: rest, before => pairMarks rest (p :: before)

/-- The parts that pieces make, given last first. -/
def partsOf (pieces : List Piece) : List Inline := (pairMarks pieces.reverse []).map Piece.plain

/-! ### Reading -/

/-- Where a text stands. -/
structure Place where
  targets : Targets := []
  /-- May it start with a box to check? -/
  boxed : Bool := false
  /-- Is it a cell of a table?  There a backslash before a bar is dropped even in code. -/
  cell : Bool := false

/-- A text that is being read. -/
structure Scan where
  /-- What has been read, last first. -/
  pieces : List Piece := []
  /-- Text that has been read since the last piece, last character first. -/
  text : List Char := []
  /-- The character before. -/
  before : Char := '\n'
  /-- Does a line or the text behind a piece start here? -/
  fresh : Bool := true
  /-- Does a backslash stand before? -/
  escaped : Bool := false

namespace Scan

/-- Makes a piece of the pending text. -/
def flush (s : Scan) : Scan :=
  if s.text.isEmpty then s
  else { s with pieces := .part (.text s.text.reverse) :: s.pieces, text := [] }

/-- Adds a piece whose last character is `last`. -/
def push (s : Scan) (p : Piece) (last : Char) : Scan :=
  let s := s.flush
  { s with pieces := p :: s.pieces, before := last, fresh := true, escaped := false }

/-- Adds a character of text. -/
def char (s : Scan) (c : Char) : Scan :=
  { s with text := c :: s.text, before := c, fresh := false, escaped := c == '\\' && !s.escaped }

/-- Is a bracket open? -/
def inBracket (s : Scan) : Bool :=
  s.pieces.any fun
    | .bracket .. => true
    | _ => false

/-- Without one blank, given last character first. -/
def dropBlank : List Char → List Char
  | c :: cs => if isBlankChar c then cs else c :: cs
  | [] => []

/-- Ends a line: after a backslash or two blanks the break is a hard one. -/
def endLine (s : Scan) : Scan :=
  let text := if s.text.head? == some '\r' then s.text.drop 1 else s.text
  let (hard, text) := match text with
    | '\\' :: rest => if rest.head? == some '\\' then (false, dropBlank s.text) else (true, rest)
    | ' ' :: ' ' :: rest => (true, dropBlank rest)
    | _ => (false, dropBlank s.text)
  { s with text }.push (.part (.lineEnd hard)) '\n'

/-- The code between runs of `n` marks, behind the first run, and how many characters it takes with
the second; `run` is the length of the run of marks being read. -/
def codeUpTo? (n : Nat) : List Char → Nat → List Char → Option (List Char × Nat)
  | [], run, code => if run = n then some ((code.drop n).reverse, code.length) else none
  | c :: cs, run, code =>
    if c == '\x60' then codeUpTo? n cs (run + 1) (c :: code)
    else if run = n then some ((code.drop n).reverse, code.length)
    else codeUpTo? n cs 0 (c :: code)

/-- The content of code: lines joined, and without a blank at each end when both have one. -/
def codeText (cs : List Char) : List Char :=
  let cs := cs.map fun c => if c == '\n' then ' ' else c
  if cs.all isBlankChar then cs
  else if cs.head? == some ' ' && cs.getLast? == some ' ' then (cs.drop 1).dropLast
  else cs

/-- Without the backslashes before bars. -/
def unescapeBars : List Char → List Char
  | '\\' :: '|' :: cs => '|' :: unescapeBars cs
  | c :: cs => c :: unescapeBars cs
  | [] => []

/-- Splits pieces, last first, at the last opening bracket. -/
def splitBracket : List Piece → List Piece → Option (List Piece × Bool × List Char × List Piece)
  | [], _ => none
  | .bracket image behind :: before, inner => some (inner.reverse, image, behind, before)
  | p :: before, inner => splitBracket before (p :: inner)

/-- The target of a link whose text ends here: given in parentheses, by a label in brackets, or by
the text itself; with how many characters it takes. -/
def linkTarget? (targets : Targets) (own cs : List Char) : Option (Target × Nat) :=
  let short : Option (Target × Nat) := (targets.find? own).map (·, 0)
  match cs with
  | '(' :: rest =>
    match target? rest with
    | some (t, left) => some (t, cs.length - left.length)
    | none => short
  | '[' :: rest =>
    match upToClosing? '[' ']' rest with
    | some (label, left) =>
      (targets.find? (if label.all isBlankChar then own else label)).map (·, cs.length - left.length)
    | none => short
  | _ => short

/-- Reads a closing bracket, given what is behind it: how many characters it takes there. -/
def closeBracket (s : Scan) (targets : Targets) (cs : List Char) : Scan × Nat :=
  match splitBracket s.flush.pieces [] with
  | none => (s.char ']', 0)
  | some (inner, image, behind, before) =>
    let own := behind.take (behind.length - cs.length - 1)
    let asText : Scan × Nat :=
      let opening := Piece.part (Piece.bracket image behind).plain
      ({ s with pieces := inner ++ opening :: before, text := [] }.char ']', 0)
    if !image && inner.any (fun | .part p => p.hasLink | _ => false) then asText
    else match linkTarget? targets own cs with
      | none => asText
      | some (target, n) =>
        let parts := partsOf inner
        let link := if image then Inline.image target parts else .link target parts
        ({ s with pieces := before, text := [] }.push (.part link) ']', n)

/-- Reads one character, given those behind it: how many of them it takes. -/
def step (place : Place) (s : Scan) (c : Char) (cs : List Char) : Scan × Nat :=
  let linked (from_ : List Char) (s : Scan) : Option (Scan × Nat) :=
    if s.inBracket then none
    else (plainAddress? (from_.takeWhile (· != '\n'))).map fun a =>
      (s.push (.part (.address a)) (a.label.getLast?.getD ' '), a.label.length)
  if c == '\n' then (s.endLine, 0)
  else if s.escaped then (s.char c, 0)
  else match c with
    | '\x60' =>
      let n := (cs.takeWhile (· == '\x60')).length + 1
      match codeUpTo? n (cs.drop (n - 1)) 0 [] with
      | some (code, taken) =>
        let code := codeText code
        (s.push (.part (.code (if place.cell then unescapeBars code else code))) '\x60', n - 1 + taken)
      | none => (s.push (.part (.text (List.replicate n '\x60'))) '\x60', n - 1)
    | '[' =>
      match cs with
      | mark :: ']' :: rest =>
        if place.boxed && s.pieces.isEmpty && s.text.isEmpty
            && (mark == 'x' || mark == 'X' || isBlankChar mark) then
          (s.push (.part (.checkbox (mark == 'x' || mark == 'X'))) ']',
            2 + (rest.takeWhile isBlankChar).length)
        else (s.push (.bracket false cs) '[', 0)
      | _ => (s.push (.bracket false cs) '[', 0)
    | '!' =>
      match cs with
      | '[' :: rest => (s.push (.bracket true rest) '[', 1)
      | _ => (s.char c, 0)
    | ']' => s.closeBracket place.targets cs
    | '<' =>
      match bracketedAddress? cs with
      | some (a, n) => (s.push (.part (.address a)) '>', n)
      | none =>
        match pastMarkup? cs with
        | some rest => (s.push (.part .markup) '>', cs.length - rest.length)
        | none => (s.char c, 0)
    | '~' =>
      let n := (cs.takeWhile (· == '~')).length + 1
      if n ≤ 2 && s.before != '~' then
        (s.push (.marks (.between c n s.before ((cs.drop (n - 1)).head?.getD ' '))) c, n - 1)
      else (linked cs (s.char c)).getD (s.char c, 0)
    | _ =>
      if c == '*' || c == '_' then
        let n := (cs.takeWhile (· == c)).length + 1
        (s.push (.marks (.between c n s.before ((cs.drop (n - 1)).head?.getD ' '))) c, n - 1)
      else if c == ' ' || c == '(' then (linked cs (s.char c)).getD (s.char c, 0)
      else if s.fresh && !isAsciiPunctuation c then
        ((linked (c :: cs) s).map fun (s, n) => (s, n - 1)).getD (s.char c, 0)
      else (s.char c, 0)

/-- Reads a text to its end. -/
def run (place : Place) (s : Scan) : List Char → Scan
  | [] => { s with text := dropBlank s.text }.flush
  | c :: cs =>
    let (s, taken) := s.step place c cs
    run place s (cs.drop taken)
termination_by cs => cs.length
decreasing_by simp only [List.length_drop, List.length_cons]; omega

end Scan

/-- The parts of a text. -/
def inlines (place : Place) (cs : List Char) : List Inline := partsOf (Scan.run place {} cs).pieces

end Markdown

end SolidityLint
