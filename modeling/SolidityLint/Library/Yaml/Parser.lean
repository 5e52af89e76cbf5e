import SolidityLint.Library.Yaml.Node

/-!
# Yaml — reading

`Yaml.parse` reads the first document of a text.  Block collections are told apart by the column
in which their entries start; everything else (quoted texts, flow collections, plain scalars) runs
over line breaks.  The readers take a measure of steps, which is computed from the length of the
text.
-/

namespace SolidityLint

namespace Yaml

/-- What is still to be read, and the column of its first character. -/
structure Input where
  col : Nat
  cs : List Char

/-- The nodes that names stand for. -/
abbrev Anchors := List (String × Node)

/-- Is the character a blank or a tab? -/
def isBlank (c : Char) : Bool := c == ' ' || c == '\t'

/-- Does a blank, a line break or the end come next? -/
def endsWord : List Char → Bool
  | [] => true
  | c :: _ => isBlank c || c == '\n'

namespace Input

/-- Drops characters of the same line. -/
def drop (n : Nat) (s : Input) : Input := ⟨s.col + n, s.cs.drop n⟩

/-- Goes over blanks, comments and line breaks.  Tabs are passed over only where `tabs` says so,
which on later lines of block collections it does not. -/
def skipFrom (tabs flow comment : Bool) (col : Nat) (crossed : Bool) : List Char → Input × Bool
  | [] => (⟨col, []⟩, crossed)
  | c :: cs =>
    if c == '\n' then skipFrom flow flow false 0 true cs
    else if comment then skipFrom tabs flow true (col + 1) crossed cs
    else if c == ' ' || (c == '\t' && tabs) then skipFrom tabs flow false (col + 1) crossed cs
    else if c == '#' then skipFrom tabs flow true (col + 1) crossed cs
    else (⟨col, c :: cs⟩, crossed)

/-- Goes to what comes next in a block collection; says whether a line was left. -/
def skip (tabs : Bool) (s : Input) : Input × Bool := skipFrom tabs false false s.col false s.cs

/-- Goes to what comes next in a flow collection. -/
def skipFlow (s : Input) : Input := (skipFrom true true false s.col false s.cs).1

/-- The input behind a scalar, if nothing but a comment stands on the line. -/
def lineEnd? (s : Input) : Option Input :=
  let n := (s.cs.takeWhile isBlank).length
  match s.cs.drop n with
  | [] | '\n' :: _ | '#' :: _ => some (s.drop n)
  | _ => none

/-- Does the input start with an indicator that a blank follows? -/
def atIndicator (c : Char) (s : Input) : Bool :=
  match s.cs with
  | d :: rest => d == c && endsWord rest
  | [] => false

end Input

/-! ### Scalars -/

/-- What line breaks in a scalar become: one is a blank, and of more all but one stay. -/
def foldedBreaks (breaks : Nat) : List Char :=
  if breaks = 1 then [' '] else List.replicate (breaks - 1) '\n'

/-- Passes over blanks and line breaks: the number of breaks, the column and the rest. -/
def passBreaks : Nat → Nat → List Char → Nat × Nat × List Char
  | breaks, _, '\n' :: cs => passBreaks (breaks + 1) 0 cs
  | breaks, col, ' ' :: cs | breaks, col, '\t' :: cs => passBreaks breaks (col + 1) cs
  | breaks, col, cs => (breaks, col, cs)

/-- The value of a hexadecimal number of the given width, and the rest. -/
def hex? (width : Nat) (cs : List Char) : Option (Char × List Char) := do
  let ds := cs.take width
  if ds.length < width then none
  let n ← Scalar.inBase? 16 ds
  if n.isValidChar then some (Char.ofNat n, cs.drop width) else none

/-- The character that an escape in double quotes stands for, and the rest. -/
def escape? : List Char → Option (Char × List Char)
  | '0' :: r => some ('\x00', r)
  | 'a' :: r => some ('\x07', r)
  | 'b' :: r => some ('\x08', r)
  | 't' :: r | '\t' :: r => some ('\t', r)
  | 'n' :: r => some ('\n', r)
  | 'v' :: r => some ('\x0b', r)
  | 'f' :: r => some ('\x0c', r)
  | 'r' :: r => some ('\r', r)
  | 'e' :: r => some ('\x1b', r)
  | ' ' :: r => some (' ', r)
  | '"' :: r => some ('"', r)
  | '/' :: r => some ('/', r)
  | '\'' :: r => some ('\'', r)
  | '\\' :: r => some ('\\', r)
  | 'N' :: r => some ('\u0085', r)
  | '_' :: r => some ('\u00A0', r)
  | 'L' :: r => some ('\u2028', r)
  | 'P' :: r => some ('\u2029', r)
  | 'x' :: r => hex? 2 r
  | 'u' :: r => hex? 4 r
  | 'U' :: r => hex? 8 r
  | _ => none

/-- Reads a quoted scalar behind its opening quote; `out` is the text so far, last first. -/
def quotedFrom (quote : Char) : Nat → Nat → List Char → List Char → Option (List Char × Input)
  | 0, _, _, _ => none
  | _ + 1, _, _, [] => none
  | fuel + 1, col, out, c :: cs =>
    if c == quote then
      if quote == '\'' && cs.head? == some '\'' then quotedFrom quote fuel (col + 2) ('\'' :: out) (cs.drop 1)
      else some (out.reverse, ⟨col + 1, cs⟩)
    else if c == '\\' && quote == '"' then
      match cs with
      | '\n' :: _ =>
        let (breaks, col, rest) := passBreaks 0 0 cs
        quotedFrom quote fuel col (List.replicate (breaks - 1) '\n' ++ out) rest
      | _ => match escape? cs with
        | none => none
        | some (d, rest) => quotedFrom quote fuel (col + 1 + cs.length - rest.length) (d :: out) rest
    else if isBlank c || c == '\n' then
      let (breaks, col', rest) := passBreaks 0 col (c :: cs)
      if breaks = 0 then quotedFrom quote fuel (col + 1) (c :: out) cs
      else quotedFrom quote fuel col' (foldedBreaks breaks ++ out) rest
    else quotedFrom quote fuel (col + 1) (c :: out) cs

/-- Characters that stand for structure in flow collections. -/
def isFlowIndicator (c : Char) : Bool :=
  c == ',' || c == '[' || c == ']' || c == '\x7b' || c == '\x7d'

/-- The part of a line that belongs to a plain scalar, white space at its end included. -/
def plainRun (flow : Bool) : Bool → List Char → List Char
  | _, [] => []
  | afterBlank, c :: cs =>
    if c == '\n' || (c == '#' && afterBlank) then []
    else if c == ':' && endsWord cs then []
    else if flow && (isFlowIndicator c || c == '?') then []
    else c :: plainRun flow (isBlank c) cs

/-- Drops blanks at the end. -/
def trimEnd (cs : List Char) : List Char := (cs.reverse.dropWhile isBlank).reverse

/-- Reads the lines of a plain scalar on which it goes on: those indented by more than `n`, or all in
a flow collection. -/
def plainRest (flow : Bool) (n : Int) : Nat → Input → List Char × Input
  | 0, s => ([], s)
  | fuel + 1, s =>
    let (breaks, col, rest) := passBreaks 0 s.col s.cs
    if breaks = 0 then ([], s)
    else if !flow && (col : Int) ≤ n then ([], s)
    else
      let run := if rest.head? == some '#' then [] else plainRun flow true rest
      if run.isEmpty then ([], s)
      else
        let (more, s) := plainRest flow n fuel ⟨col + run.length, rest.drop run.length⟩
        (foldedBreaks breaks ++ trimEnd run ++ more, s)

/-- May a plain scalar start here? -/
def startsPlain (flow : Bool) : List Char → Bool
  | [] => false
  | c :: cs =>
    if c == '-' || c == '?' || c == ':' then
      !endsWord cs && (!flow || c == '-' || !(cs.head?.any isFlowIndicator))
    else !(isBlank c || c == '\n' || isFlowIndicator c || c == '#' || c == '&' || c == '*' || c == '!'
      || c == '|' || c == '>' || c == '\'' || c == '"' || c == '%' || c == '@' || c == '\x60')

/-- Reads a plain scalar. -/
def plain? (flow : Bool) (n : Int) (s : Input) : Option (Node × Input) :=
  if !startsPlain flow s.cs then none
  else
    let run := plainRun flow false s.cs
    let run := if run.isEmpty then s.cs.take 1 else run
    let rest := s.drop run.length
    let (more, rest) :=
      if (rest.cs.head?.any (· == '\n')) || rest.cs.isEmpty then plainRest flow n (s.cs.length + 1) rest
      else ([], rest)
    some (.scalar "" true (String.ofList (trimEnd run ++ more)), rest)

/-! ### Block scalars -/

/-- How line breaks at the end of a block scalar are treated. -/
inductive Chomp where
  | strip | clip | keep
deriving DecidableEq

/-- The lines of a text, and whether the last of them has a line break. -/
def splitLines (cs : List Char) : List (List Char) := splitAtChar '\n' cs

/-- The header of a block scalar behind `|` or `>`: the treatment of the end, the indentation if it
is given, and what follows the line. -/
def blockHeader? (cs : List Char) : Option (Chomp × Option Nat × List Char) :=
  let marks := cs.takeWhile fun c => c == '+' || c == '-' || c.isDigit
  let chomp? : Option Chomp := match marks.filter (!·.isDigit) with
    | [] => some .clip
    | ['+'] => some .keep
    | ['-'] => some .strip
    | _ => none
  let indent? : Option (Option Nat) := match marks.filter Char.isDigit with
    | [] => some none
    | [d] => if d == '0' then none else some (some (d.toNat - '0'.toNat))
    | _ => none
  let rest := cs.drop marks.length
  match chomp?, indent?, endsWord rest || rest.head? == some '#' with
  | some chomp, some indent, true =>
    match rest.dropWhile isBlank with
    | [] => some (chomp, indent, [])
    | '\n' :: cs => some (chomp, indent, cs)
    | '#' :: cs => some (chomp, indent, (cs.dropWhile (· != '\n')).drop 1)
    | _ => none
  | _, _, _ => none

/-- The lines that belong to a block scalar of the given indentation, and the rest. -/
def blockLines (indent : Nat) : List (List Char) → List (List Char) × List (List Char)
  | [] => ([], [])
  | l :: ls =>
    let blanks := (l.takeWhile (· == ' ')).length
    if l.length ≤ blanks && blanks ≤ indent || indent ≤ blanks then
      let (mine, rest) := blockLines indent ls
      (l.drop indent :: mine, rest)
    else ([], l :: ls)

/-- Joins the lines of a block scalar: as they are, or folded where neither neighbour is indented
further. -/
def joinLines (folded : Bool) : List (List Char) → List Char
  | [] => []
  | [l] => l
  | l :: ls =>
    let blanks := (ls.takeWhile (·.isEmpty)).length
    match ls.drop blanks with
    | [] => l ++ ls.flatMap fun _ => ['\n']
    | next :: _ =>
      let further (l : List Char) : Bool := l.head?.any isBlank
      if folded && !l.isEmpty && !further l && !further next then
        l ++ (if blanks = 0 then [' '] else List.replicate blanks '\n') ++ joinLines folded (ls.drop blanks)
      else l ++ '\n' :: joinLines folded ls
termination_by ls => ls.length
decreasing_by all_goals (simp only [List.length_cons, List.length_drop]; omega)

/-- Reads a block scalar behind its first mark, in a collection at column `n`. -/
def blockScalar? (folded : Bool) (n : Int) (cs : List Char) : Option (Node × Input) := do
  let (chomp, given, cs) ← blockHeader? cs
  let ls := splitLines cs
  let least := (n + 1).toNat.max 1
  let leading := ls.takeWhile fun l => l.all (· == ' ')
  let detected := match ls.drop leading.length with
    | [] => (leading.map List.length).foldl max 0
    | l :: _ => (leading.map List.length).foldl max (l.takeWhile (· == ' ')).length
  let indent := match given with
    | some k => (if 0 ≤ n then n.toNat else 0) + k
    | none => max least detected
  let (mine, rest) := blockLines indent ls
  let body := (mine.reverse.dropWhile List.isEmpty).reverse
  let trailing := mine.length - body.length
  -- The last line has a line break unless the text ends there.
  let ended := !(rest.isEmpty && trailing = 0)
  let breaks := if rest.isEmpty then trailing - 1 else trailing
  let text := joinLines folded body
  let tail : List Char := match chomp with
    | .strip => []
    | .clip => if body.isEmpty || !ended then [] else ['\n']
    | .keep => (if body.isEmpty || !ended then [] else ['\n']) ++ List.replicate breaks '\n'
  let restText := (rest.intersperse ['\n']).flatten
  some (.scalar "" false (String.ofList (text ++ tail)), ⟨0, restText⟩)

/-! ### Names and tags -/

/-- The name of an anchor or alias, and the rest. -/
def name? (s : Input) : Option (String × Input) :=
  let name := s.cs.takeWhile fun c => c.isAlphanum || c == '_' || c == '-'
  let rest := s.drop name.length
  let ends := endsWord rest.cs || rest.cs.head?.any fun c =>
    c == '?' || c == ':' || c == ',' || c == ']' || c == '\x7d' || c == '%' || c == '@' || c == '\x60'
  if name.isEmpty || !ends then none else some (String.ofList name, rest)

/-- The front that tags of the standard have in their long form. -/
def longFront : String := "tag:yaml.org,2002:"

/-- The short form of a tag. -/
def shortTag (tag : String) : String :=
  if hasFront longFront tag then "!!" ++ String.ofList (tag.toList.drop longFront.length) else tag

/-- A tag from its exclamation mark on, and the rest. -/
def tag? (s : Input) : Option (String × Input) :=
  match s.cs with
  | '!' :: '<' :: cs =>
    let uri := cs.takeWhile fun c => c != '>' && c != '\n'
    match cs.drop uri.length with
    | '>' :: rest =>
      if endsWord rest then some (shortTag (String.ofList uri), s.drop (uri.length + 3)) else none
    | _ => none
  | cs =>
    let tag := cs.takeWhile fun c => !isBlank c && c != '\n' && !isFlowIndicator c
    let rest := s.drop tag.length
    if endsWord rest.cs || rest.cs.head?.any isFlowIndicator then
      some (if tag == ['!'] then "" else String.ofList tag, rest)
    else none

/-- What stands in front of a node. -/
structure Properties where
  anchor : Option String := none
  tag : String := ""

/-- Reads the properties in front of a node, with blanks behind them. -/
def properties? : Nat → Properties → Input → Option (Properties × Input)
  | 0, p, s => some (p, s)
  | fuel + 1, p, s =>
    let past (s : Input) : Input := s.drop (s.cs.takeWhile isBlank).length
    match s.cs with
    | '&' :: _ =>
      if p.anchor.isSome then none
      else match name? (s.drop 1) with
        | none => none
        | some (name, s) => properties? fuel { p with anchor := some name } (past s)
    | '!' :: _ =>
      if p.tag != "" then none
      else match tag? s with
        | none => none
        | some (tag, s) => properties? fuel { p with tag } (past s)
    | _ => some (p, s)

/-- Puts the tag of the properties on a node and the node under their anchor. -/
def Properties.apply (p : Properties) (n : Node) (anchors : Anchors) : Node × Anchors :=
  let n := match n with
    | .scalar "" plain text => .scalar p.tag plain text
    | n => n
  (n, match p.anchor with
    | some name => (name, n) :: anchors
    | none => anchors)

/-! ### Flow collections -/

/-- What a reader has got to. -/
structure State where
  input : Input
  anchors : Anchors := []

mutual

/-- A node of a flow collection. -/
def flowNode : Nat → State → Option (Node × State)
  | 0, _ => none
  | fuel + 1, ⟨s, anchors⟩ =>
    let s := s.skipFlow
    match s.cs with
    | '&' :: _ | '!' :: _ =>
      match properties? 2 {} s with
      | none => none
      | some (p, s) =>
        match flowNode fuel ⟨s, anchors⟩ with
        | none => none
        | some (n, st) =>
          let (n, anchors) := p.apply n st.anchors
          some (n, ⟨st.input, anchors⟩)
    | '*' :: _ => do
      let (name, s) ← name? (s.drop 1)
      some (← anchors.lookup name, ⟨s, anchors⟩)
    | '[' :: _ => flowSeq fuel [] ⟨s.drop 1, anchors⟩
    | '\x7b' :: _ => flowMap fuel [] ⟨s.drop 1, anchors⟩
    | '"' :: cs | '\'' :: cs =>
      (quotedFrom (s.cs.headD ' ') (cs.length + 1) (s.col + 1) [] cs).map fun (text, s) =>
        (.scalar "" false (String.ofList text), ⟨s, anchors⟩)
    | ',' :: _ | ']' :: _ | '\x7d' :: _ | ':' :: _ =>
      match plain? true 0 s with
      | some (n, s) => some (n, ⟨s, anchors⟩)
      | none => some (.empty, ⟨s, anchors⟩)
    | _ => (plain? true 0 s).map fun (n, s) => (n, ⟨s, anchors⟩)

/-- The value behind a key of a flow collection; without a colon there is none. -/
def flowValue : Nat → State → Option (Node × State)
  | 0, _ => none
  | fuel + 1, ⟨s, anchors⟩ =>
    let s := s.skipFlow
    match s.cs with
    | ':' :: _ => flowNode fuel ⟨s.drop 1, anchors⟩
    | _ => some (.empty, ⟨s, anchors⟩)

/-- The items of a flow list, last first, behind its bracket or an item. -/
def flowSeq : Nat → List Node → State → Option (Node × State)
  | 0, _, _ => none
  | fuel + 1, out, ⟨s, anchors⟩ =>
    let s := s.skipFlow
    match s.cs with
    | [] => none
    | ']' :: _ => some (.seq out.reverse, ⟨s.drop 1, anchors⟩)
    | ',' :: _ => none
    | c :: rest =>
      let explicit := c == '?' && endsWord rest
      match flowNode fuel ⟨if explicit then s.drop 1 else s, anchors⟩ with
      | none => none
      | some (n, st) =>
        let pair := explicit || st.input.skipFlow.cs.head? == some ':'
        match (if pair then flowValue fuel st else some (.empty, st)) with
        | none => none
        | some (v, st) =>
          let item := if pair then .map [(n, v)] else n
          let s := st.input.skipFlow
          match s.cs with
          | ',' :: _ => flowSeq fuel (item :: out) ⟨s.drop 1, st.anchors⟩
          | ']' :: _ => some (.seq (item :: out).reverse, ⟨s.drop 1, st.anchors⟩)
          | _ => none

/-- The entries of a flow map, last first, behind its brace or an entry. -/
def flowMap : Nat → List (Node × Node) → State → Option (Node × State)
  | 0, _, _ => none
  | fuel + 1, out, ⟨s, anchors⟩ =>
    let s := s.skipFlow
    match s.cs with
    | [] => none
    | '\x7d' :: _ => some (.map out.reverse, ⟨s.drop 1, anchors⟩)
    | ',' :: _ => none
    | c :: rest =>
      let explicit := c == '?' && endsWord rest
      match flowNode fuel ⟨if explicit then s.drop 1 else s, anchors⟩ with
      | none => none
      | some (k, st) =>
        match flowValue fuel st with
        | none => none
        | some (v, st) =>
          let s := st.input.skipFlow
          match s.cs with
          | ',' :: _ => flowMap fuel ((k, v) :: out) ⟨s.drop 1, st.anchors⟩
          | '\x7d' :: _ => some (.map ((k, v) :: out).reverse, ⟨s.drop 1, st.anchors⟩)
          | _ => none

end

/-! ### Block collections -/

/-- The node in front of the colon of a key, on the rest of its line. -/
def keyNode? (anchors : Anchors) (l : Input) : Option (Node × Input) :=
  match l.cs with
  | '*' :: _ => do
    let (name, l) ← name? (l.drop 1)
    some (← anchors.lookup name, l)
  | '[' :: _ | '\x7b' :: _ | '"' :: _ | '\'' :: _ =>
    (flowNode (l.cs.length + 1) ⟨l, anchors⟩).map fun (n, st) => (n, st.input)
  | _ => if l.atIndicator ':' then some (.empty, l) else plain? false 0 l

/-- A key that stands on one line in front of a colon, and what follows the colon. -/
def implicitKey? (st : State) : Option (Node × State) := do
  let s := st.input
  let line := s.cs.takeWhile (· != '\n')
  let (p, l) ← properties? 2 {} ⟨s.col, line⟩
  let (n, l) ← keyNode? st.anchors l
  let l := l.drop (l.cs.takeWhile isBlank).length
  if l.atIndicator ':' then
    let (n, anchors) := p.apply n st.anchors
    some (n, ⟨s.drop (line.length - l.cs.length + 1), anchors⟩)
  else none

mutual

/-- A node in a collection at column `n`: it has to be indented further.  `compact` says whether a
block collection may start on the same line, and `flat` whether a list may start at column `n`. -/
def block : Nat → Int → Bool → Bool → State → Option (Node × State)
  | 0, _, _, _, _ => none
  | fuel + 1, n, compact, flat, ⟨s, anchors⟩ =>
    let (s, crossed) := s.skip (!compact)
    let st : State := ⟨s, anchors⟩
    if s.cs.isEmpty then some (.empty, st)
    else if crossed && (s.col : Int) ≤ n then
      if flat && (s.col : Int) == n && s.atIndicator '-' then blockSeq fuel s.col [] st
      else some (.empty, st)
    else
      let free := crossed || compact
      if s.atIndicator '-' then if free then blockSeq fuel s.col [] st else none
      else if free && (s.atIndicator '?' || (implicitKey? st).isSome) then blockMap fuel s.col [] st
      else
        let done (r : Option (Node × Input)) : Option (Node × State) := do
          let (node, s) ← r
          some (node, ⟨← s.lineEnd?, anchors⟩)
        match s.cs with
        | '&' :: _ | '!' :: _ =>
          match properties? 2 {} s with
          | none => none
          | some (p, s) =>
            match block fuel n false flat ⟨s, anchors⟩ with
            | none => none
            | some (node, st) =>
              let (node, anchors) := p.apply node st.anchors
              some (node, ⟨st.input, anchors⟩)
        | '*' :: _ => done (do
            let (name, s) ← name? (s.drop 1)
            some (← anchors.lookup name, s))
        | '|' :: cs => (blockScalar? false n cs).map fun (node, s) => (node, ⟨s, anchors⟩)
        | '>' :: cs => (blockScalar? true n cs).map fun (node, s) => (node, ⟨s, anchors⟩)
        | '[' :: _ | '\x7b' :: _ | '"' :: _ | '\'' :: _ =>
          match flowNode (2 * s.cs.length + 2) st with
          | none => none
          | some (node, st) => st.input.lineEnd?.map fun s => (node, ⟨s, st.anchors⟩)
        | _ => done (plain? false n s)

/-- The items of a block list at column `i`, last first. -/
def blockSeq : Nat → Nat → List Node → State → Option (Node × State)
  | 0, _, _, _ => none
  | fuel + 1, i, out, ⟨s, anchors⟩ =>
    match block fuel i true false ⟨s.drop 1, anchors⟩ with
    | none => none
    | some (item, st) =>
      let (s, _) := st.input.skip false
      let out := item :: out
      let ends : Node × State := (.seq out.reverse, ⟨s, st.anchors⟩)
      if s.cs.isEmpty || s.col < i then some ends
      else if s.col == i then
        if s.atIndicator '-' then blockSeq fuel i out ⟨s, st.anchors⟩ else some ends
      else none

/-- The entries of a block map at column `i`, last first. -/
def blockMap : Nat → Nat → List (Node × Node) → State → Option (Node × State)
  | 0, _, _, _ => none
  | fuel + 1, i, out, ⟨s, anchors⟩ =>
    let entry : Option (Node × Node × State) :=
      if s.atIndicator '?' then
        match block fuel i true false ⟨s.drop 1, anchors⟩ with
        | none => none
        | some (k, st) =>
          let (s, _) := st.input.skip false
          if s.col == i && s.atIndicator ':' then
            (block fuel i true false ⟨s.drop 1, st.anchors⟩).map fun (v, st) => (k, v, st)
          else some (k, .empty, ⟨s, st.anchors⟩)
      else match implicitKey? ⟨s, anchors⟩ with
        | none => none
        | some (k, st) => (block fuel i false true st).map fun (v, st) => (k, v, st)
    match entry with
    | none => none
    | some (k, v, st) =>
      let (s, _) := st.input.skip false
      let out := (k, v) :: out
      if s.cs.isEmpty || s.col < i then some (.map out.reverse, ⟨s, st.anchors⟩)
      else if s.col == i then blockMap fuel i out ⟨s, st.anchors⟩
      else none

end

/-! ### Documents -/

/-- May the character stand in a text? -/
def isAllowed (c : Char) : Bool :=
  let n := c.toNat
  n == 0x09 || n == 0x0A || n == 0x0D || (0x20 ≤ n && n ≤ 0x7E) || n == 0x85
    || (0xA0 ≤ n && n ≤ 0xD7FF) || (0xE000 ≤ n && n ≤ 0xFFFD && n != 0xFEFF) || 0x10000 ≤ n

/-- All line breaks in one form. -/
def plainBreaks : List Char → List Char
  | '\r' :: '\n' :: cs => '\n' :: plainBreaks cs
  | '\r' :: cs | '\u0085' :: cs => '\n' :: plainBreaks cs
  | c :: cs => c :: plainBreaks cs
  | [] => []

/-- What follows three marks that divide documents. -/
def afterMarks? (mark : Char) : List Char → Option (List Char)
  | a :: b :: c :: rest =>
    if a == mark && b == mark && c == mark && endsWord rest then some rest else none
  | _ => none

/-- Does the line divide documents? -/
def isDivider (l : List Char) : Bool := (afterMarks? '-' l).isSome || (afterMarks? '.' l).isSome

/-- Is there nothing on the line but a comment? -/
def isIdle (l : List Char) : Bool :=
  match l.dropWhile isBlank with
  | [] | '#' :: _ => true
  | _ => false

/-- What a text begins with. -/
inductive Start where
  /-- There is no document. -/
  | nothing
  | malformed
  /-- The lines of the first document, and whether the first of them follows the marks of its
  start. -/
  | document (marked : Bool) (lines : List (List Char))

/-- Finds the first document. -/
def findStart (directives : Bool) : List (List Char) → Start
  | [] => if directives then .malformed else .nothing
  | l :: ls =>
    match afterMarks? '-' l with
    | some rest => .document true ((' ' :: ' ' :: ' ' :: rest) :: ls.takeWhile (!isDivider ·))
    | none =>
      if isIdle l || (afterMarks? '.' l).isSome then findStart directives ls
      else if l.head? == some '%' then findStart true ls
      else if directives then .malformed
      else .document false ((l :: ls).takeWhile (!isDivider ·))

/-- What reading a text comes to. -/
inductive Outcome where
  | nothing
  | malformed
  | document (root : Node)

/-- Reads the first document of a text. -/
def parse (text : String) : Outcome :=
  let cs := match text.toList with
    | '\uFEFF' :: cs => cs
    | cs => cs
  if !cs.all isAllowed then .malformed
  else match findStart false (splitLines (plainBreaks cs)) with
    | .nothing => .nothing
    | .malformed => .malformed
    | .document marked lines =>
      let cs := (lines.intersperse ['\n']).flatten
      match block (2 * cs.length + 4) (-1) (!marked) false ⟨⟨0, cs⟩, []⟩ with
      | none => .malformed
      | some (root, st) => if (st.input.skip false).1.cs.isEmpty then .document root else .malformed

end Yaml

end SolidityLint
