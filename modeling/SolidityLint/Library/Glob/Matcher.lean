import SolidityLint.Library.Glob.Pattern
import SolidityLint.Number.Sum
import SolidityLint.Text.Utf8

/-!
# Glob — matching

A pattern becomes a matcher, which is asked two things of a byte string: does it accept the whole
string, and where does a piece that it accepts start and how long can that piece be.  A sequence of
matchers is a search tree around its longest piece of fixed length: the piece is looked for from
left to right, and the matchers in front and behind judge what stands before and after it.

Lengths of pieces are counted in characters where a row of matchers is laid out, and used as
numbers of bytes where the search skips ahead, so a wildcard for one character of several bytes
only fits where nothing of fixed length follows it in the same row.
-/

namespace SolidityLint

namespace Glob

abbrev Bytes := List UInt8

/-- The separator of path segments. -/
def slash : UInt8 := 0x2F

/-- What a part of a pattern, or several of them together, accepts. -/
inductive Matcher where
  /-- The empty string. -/
  | nothing
  | text (bytes : Bytes)
  /-- A string without a slash. -/
  | run
  | anything
  /-- A character that is no slash. -/
  | single
  | oneOf (negated : Bool) (chars : List Char)
  | between (negated : Bool) (low high : Char)
  /-- At least so many characters. -/
  | atLeast (count : Nat)
  /-- At most so many characters. -/
  | atMost (count : Nat)
  /-- A string with the bytes somewhere in it, or without. -/
  | holds (negated : Bool) (bytes : Bytes)
  /-- A string that starts with the bytes. -/
  | front (bytes : Bytes)
  /-- A string that ends with the bytes. -/
  | back (bytes : Bytes)
  /-- A string that starts with the first and ends with the second bytes, which may overlap. -/
  | ends (front back : Bytes)
  /-- The bytes and then a string without a slash. -/
  | frontRun (bytes : Bytes)
  /-- A string without a slash and then the bytes. -/
  | backRun (bytes : Bytes)
  /-- What all of them accept. -/
  | every (ms : List Matcher)
  /-- What one of them accepts. -/
  | anyOf (ms : List Matcher)
  /-- One after the other, each of a fixed number of characters. -/
  | row (ms : List Matcher)
  /-- A piece with something before and something after it. -/
  | tree (value left right : Matcher)
deriving Inhabited

/-! ### Byte strings -/

/-- Where the characters of a byte string start, and what they are. -/
def charStarts (s : Bytes) : List (Nat × Char) :=
  go 0 (Utf8.decodeSized s)
where
  go (at_ : Nat) : List (Char × Nat) → List (Nat × Char)
    | [] => []
    | (c, n) :: rest => (at_, c) :: go (at_ + n) rest

/-- The number of characters. -/
def charCount (s : Bytes) : Nat := (Utf8.decodeSized s).length

/-- The first place where `part` stands in `s`. -/
def indexOf (part : Bytes) : Bytes → Option Nat
  | [] => if part.isEmpty then some 0 else none
  | b :: bs => if part.isPrefixOf (b :: bs) then some 0 else (indexOf part bs).map (· + 1)

/-- The last place where `part` stands in `s`. -/
def lastIndexOf (part s : Bytes) : Option Nat :=
  (indexOf part.reverse s.reverse).map fun i => s.length - i - part.length

/-- The ends of the places where `part` stands, taken from the right without overlap. -/
def endsFromRight (part : Bytes) : Nat → Bytes → List Nat
  | 0, _ => []
  | fuel + 1, s =>
    match lastIndexOf part s with
    | none => []
    | some i => (i + part.length) :: endsFromRight part fuel (s.take i)

/-- Where the pieces of `s` that start at its front can end: before each character and at the
end. -/
def cuts (s : Bytes) : List Nat := (charStarts s).map (·.1) ++ [s.length]

/-- Where pieces that start in front of `s`, `n` bytes earlier, can end. -/
def cutsAfter (n : Nat) (s : Bytes) : List Nat :=
  n :: (charStarts s).map fun (i, c) => n + i + c.utf8Size

/-- The one character that a byte string consists of; for the empty string, and only for it, the
character that stands for bytes that are no text. -/
def soleChar? (s : Bytes) : Option Char :=
  match Utf8.decodeSized s with
  | [] => some Utf8.replacement
  | [(c, _)] => some c
  | _ => none

/-- The place and length of the first character that the test accepts. -/
def findChar (p : Char → Bool) (s : Bytes) : Option (Nat × List Nat) :=
  ((charStarts s).find? fun (_, c) => p c).map fun (i, c) => (i, [c.utf8Size])

/-- The bytes that the next `n` characters of a row are taken to cover: up to the first byte of
the last of them. -/
def rowPiece? (n : Nat) (s : Bytes) : Option Nat :=
  let starts := charStarts s
  let last? := if n = 0 then starts.getLast? else starts[n - 1]?
  last?.map (·.1 + 1)

/-! ### The two questions -/

/-- Looks for a piece from left to right, asking `left` and `right` about what stands around it.
The search ends at `limit`. -/
def search (find : Bytes → Option (Nat × List Nat)) (left right : Bytes → Bool) (s : Bytes)
    (limit : Nat) : Nat → Nat → Bool
  | 0, _ => false
  | fuel + 1, offset =>
    if offset < limit then
      match find ((s.take limit).drop offset) with
      | none => false
      | some (index, lengths) =>
        let start := offset + index
        let step := match Utf8.decodeSized (s.drop start) with
          | (_, n) :: _ => n
          | [] => 0
        (left (s.take start) && lengths.any fun n => right (s.drop (start + n)))
          || search find left right s limit fuel (start + step)
    else false

/-- Of two pieces found, the earlier one; at the same place, all their lengths. -/
def earlier : Option (Nat × List Nat) → Option (Nat × List Nat) → Option (Nat × List Nat)
  | none, b => b
  | a, none => a
  | some (i, ls), some (j, ms) =>
    if j < i then some (j, ms) else if i < j then some (i, ls) else some (i, ls ++ ms)

namespace Matcher

mutual

/-- The number of characters of every string that the matcher accepts, if it is fixed. -/
def fixed? : Matcher → Option Nat
  | .nothing => some 0
  | .text bytes => some (charCount bytes)
  | .single | .oneOf .. | .between .. => some 1
  | .anyOf ms => commonLength? ms
  | .row ms => totalLength? ms
  | .tree v l r => do return (← l.fixed?) + (← v.fixed?) + (← r.fixed?)
  | _ => none

/-- The length that all have in common; those at the front without a fixed length are passed
over. -/
def commonLength? : List Matcher → Option Nat
  | [] => none
  | m :: ms => match m.fixed? with
    | none => commonLength? ms
    | some n => if allOfLength n ms then some n else none

/-- Do all have the given length? -/
def allOfLength (n : Nat) : List Matcher → Bool
  | [] => true
  | m :: ms => m.fixed? == some n && allOfLength n ms

/-- The sum of the lengths. -/
def totalLength? : List Matcher → Option Nat
  | [] => some 0
  | m :: ms => do return (← m.fixed?) + (← totalLength? ms)

end

mutual

/-- Does the matcher accept the whole string? -/
def accepts : Matcher → Bytes → Bool
  | .nothing, s => s.isEmpty
  | .text bytes, s => bytes == s
  | .run, s => !s.contains slash
  | .anything, _ => true
  | .single, s => (soleChar? s).any (· != '/')
  | .oneOf negated chars, s => (soleChar? s).any fun c => chars.contains c != negated
  | .between negated low high, s => (soleChar? s).any fun c => (low ≤ c && c ≤ high) != negated
  | .atLeast n, s => n ≤ charCount s
  | .atMost n, s => charCount s ≤ n
  | .holds negated bytes, s => (indexOf bytes s).isSome != negated
  | .front bytes, s => bytes.isPrefixOf s
  | .back bytes, s => bytes.isSuffixOf s
  | .ends a b, s => a.isPrefixOf s && b.isSuffixOf s
  | .frontRun bytes, s => bytes.isPrefixOf s && !(s.drop bytes.length).contains slash
  | .backRun bytes, s =>
    bytes.isSuffixOf s && !(s.take (s.length - bytes.length)).contains slash
  | .every ms, s => allAccept ms s
  | .anyOf ms, s => someAccepts ms s
  | .row ms, s => totalLength? ms == some (charCount s) && rowAccepts ms s
  | .tree v l r, s =>
    let enough := match (tree v l r).fixed? with
      | some n => n ≤ s.length
      | none => true
    let offset := l.fixed?.getD 0
    let limit := s.length - r.fixed?.getD 0
    enough && search (find v) (accepts l) (accepts r) s limit (s.length + 1) offset

def allAccept : List Matcher → Bytes → Bool
  | [], _ => true
  | m :: ms, s => accepts m s && allAccept ms s

def someAccepts : List Matcher → Bytes → Bool
  | [], _ => false
  | m :: ms, s => accepts m s || someAccepts ms s

/-- Do the matchers of a row accept the pieces at the front of the string, one after the other? -/
def rowAccepts : List Matcher → Bytes → Bool
  | [], _ => true
  | m :: ms, s =>
    match m.fixed?.bind (rowPiece? · s) with
    | none => false
    | some n => accepts m (s.take n) && rowAccepts ms (s.drop n)

/-- The first piece of the string that the matcher accepts: where it starts, and what its length
can be.  Search trees are never asked. -/
def find : Matcher → Bytes → Option (Nat × List Nat)
  | .nothing, _ => some (0, [0])
  | .text bytes, s => (indexOf bytes s).map (·, [bytes.length])
  | .run, s => some (0, cuts (s.takeWhile (· != slash)))
  | .anything, s => some (0, cuts s)
  | .single, s => findChar (· != '/') s
  | .oneOf negated chars, s => findChar (fun c => chars.contains c != negated) s
  | .between negated low high, s => findChar (fun c => (low ≤ c && c ≤ high) != negated) s
  | .atLeast n, s =>
    match ((charStarts s).drop (n - 1)).map fun (i, c) => i + c.utf8Size with
    | [] => none
    | lengths => some (0, lengths)
  | .atMost n, s => some (0, 0 :: ((charStarts s).take n).map fun (i, c) => i + c.utf8Size)
  | .holds false bytes, s =>
    (indexOf bytes s).map fun i =>
      let n := i + bytes.length
      (0, (cuts (s.drop n)).map (n + ·))
  | .holds true bytes, s => some (0, cuts (s.take ((indexOf bytes s).getD s.length)))
  | .front bytes, s =>
    (indexOf bytes s).map fun i => (i, cutsAfter bytes.length (s.drop (i + bytes.length)))
  | .back bytes, s => (indexOf bytes s).map fun i => (0, [i + bytes.length])
  | .ends a b, s =>
    match indexOf a s with
    | none => none
    | some i =>
      match endsFromRight b s.length (s.drop i) with
      | [] => none
      | lengths => some (i, lengths)
  | .frontRun bytes, s =>
    (indexOf bytes s).map fun i =>
      (i, cutsAfter bytes.length ((s.drop (i + bytes.length)).takeWhile (· != slash)))
  | .backRun bytes, s =>
    (indexOf bytes s).map fun i =>
      let n := ((s.take i).reverse.takeWhile (· != slash)).length
      (i - n, [n + bytes.length])
  | .every ms, s => findEvery ms s
  | .anyOf ms, s => findAny ms s
  | .row ms, s =>
    let n := (totalLength? ms).getD 0
    ((charStarts s).find? fun (i, _) => n ≤ s.length - i && rowAccepts ms (s.drop i)).map
      fun (i, _) => (i, [n])
  | .tree .., _ => none

/-- The earliest piece that one of them finds. -/
def findAny : List Matcher → Bytes → Option (Nat × List Nat)
  | [], _ => none
  | m :: ms, s => earlier (find m s) (findAny ms s)

/-- The lengths that all of them find at the front. -/
def findEvery : List Matcher → Bytes → Option (Nat × List Nat)
  | [], s => some (0, cuts s)
  | m :: ms, s =>
    match find m s, findEvery ms s with
    | some (_, a), some (_, b) =>
      match a.filter b.contains with
      | [] => none
      | both => some (0, both)
    | _, _ => none

end

/-! ### From patterns to matchers -/

/-- The characters that a wildcard of a run must not hold, with the number of characters that it
needs and whether it can be longer; `none` for other matchers. -/
def asRun? : Matcher → Option (Bytes × Nat × Bool)
  | .anything => some ([], 0, true)
  | .run => some ([slash], 0, true)
  | .single => some ([slash], 1, false)
  | .oneOf true chars => some ((Utf8.encode (String.ofList chars)).toList, 1, false)
  | _ => none

/-- One matcher for several wildcards in a row that must not hold the same characters. -/
def joinRuns? (ms : List Matcher) : Option Matcher :=
  match ms.mapM asRun? with
  | some ((without, n, long) :: rest) =>
    if rest.any (·.1 != without) then none
    else
      let count := n + sumOf (rest.map (·.2.1))
      let open_ := long || rest.any (·.2.2)
      if count = 0 then some (if without.isEmpty then .anything else .run)
      else if open_ && without.isEmpty then some (.atLeast count)
      else some (.every (.atLeast count :: (if open_ then [] else [.atMost count])
        ++ (if without.isEmpty then [] else [.holds true without])))
  | _ => none

/-- One matcher for several in a row: wildcards are joined, and matchers of fixed length are laid
out in a row. -/
def glue? (ms : List Matcher) : Option Matcher :=
  if ms.length ≤ 1 then none
  else match joinRuns? ms with
    | some m => some m
    | none => if (totalLength? ms).isSome then some (.row ms) else none

/-- A part of a list that can be glued. -/
structure Glued where
  matcher : Matcher
  start : Nat
  stop : Nat

/-- Is the second one to be glued rather than the first? -/
def Glued.yields (best next : Glued) : Bool :=
  (match best.matcher.fixed?, next.matcher.fixed? with
    | some a, some b => a < b
    | _, _ => false)
    || best.stop - best.start < next.stop - next.start

/-- The part of the list to be glued, if there is one. -/
def bestGlued? (ms : List Matcher) : Option Glued :=
  let n := ms.length
  let candidates := (List.range n).flatMap fun l =>
    (List.range (n - l)).filterMap fun k =>
      (glue? ((ms.take (n - k)).drop l)).map fun m => (⟨m, l, n - k⟩ : Glued)
  candidates.foldl (fun best next => match best with
    | none => some next
    | some b => if b.yields next then some next else some b) none

/-- Glues as long as something can be glued. -/
def condense : Nat → List Matcher → List Matcher
  | 0, ms => ms
  | fuel + 1, ms =>
    match bestGlued? ms with
    | none => ms
    | some g =>
      let next := ms.take g.start ++ g.matcher :: ms.drop g.stop
      if next.length = ms.length then next else condense fuel next

/-- The last of the matchers whose fixed length is the largest, by its place. -/
def pivot? (ms : List Matcher) : Option Nat :=
  let lengths := ms.zipIdx.filterMap fun (m, i) => m.fixed?.map (·, i)
  (lengths.foldl (fun best next => match best with
    | none => some next
    | some b => if b.1 ≤ next.1 then some next else some b) none).map (·.2)

/-- The search tree of a list of matchers, one after the other. -/
def assemble : Nat → List Matcher → Matcher
  | 0, _ => .nothing
  | _ + 1, [] => .nothing
  | _ + 1, [m] => m
  | fuel + 1, m :: ms =>
    match glue? (m :: ms) with
    | some glued => glued
    | none =>
      match pivot? (m :: ms) with
      | none => .tree m .nothing (assemble fuel ms)
      | some i =>
        .tree ((m :: ms).getD i .nothing) (assemble fuel ((m :: ms).take i))
          (assemble fuel ((m :: ms).drop (i + 1)))

/-- Replaces a search tree around a text by a plainer matcher where there is one. -/
def simplify : Matcher → Matcher
  | .anyOf [m] => m
  | .oneOf false [c] => .text (Utf8.encode (String.singleton c)).toList
  | .tree v l r =>
    let l := simplify l
    let r := simplify r
    match v, l, r with
    | .text t, .anything, .anything => .holds false t
    | .text t, .anything, .nothing => .back t
    | .text t, .nothing, .anything => .front t
    | .text t, .nothing, .back b => .ends t b
    | .text t, .front f, .nothing => .ends f t
    | .text t, .run, .nothing => .backRun t
    | .text t, .nothing, .run => .frontRun t
    | v, l, r => .tree v l r
  | m => m

end Matcher

/-! ### Common parts of alternatives -/

/-- The parts that all options start with and those that all end with, as far as the shortest
option reaches. -/
def commonParts (shortest : List Part) (others : List (List Part)) : List Part × List Part :=
  go shortest.length 0 false false [] []
where
  /-- Looks at the place `i` from both ends, `fuel` times at most. -/
  go : Nat → Nat → Bool → Bool → List Part → List Part → List Part × List Part
    | 0, _, _, _, front, back => (front, back)
    | fuel + 1, i, doneFront, doneBack, front, back =>
      let n := shortest.length
      let j := n - 1 - i
      if (doneFront && doneBack) || n ≤ front.length + back.length then (front, back)
      else
        let (doneFront, doneBack) := others.foldl (fun (f, b) o =>
          if f && b then (f, b)
          else
            let f := f || shortest[i]? != o[i]?
            (f, b || (!f && j ≤ i) || shortest[j]? != o[j + o.length - n]?)) (doneFront, doneBack)
        let front := if doneFront then front else front ++ shortest[i]?.toList
        let back := if doneBack then back else shortest[j]?.toList ++ back
        go fuel (i + 1) doneFront doneBack front back

/-- The place of the first shortest list. -/
def shortestAt (options : List (List Part)) : Nat :=
  let least := (options.map List.length).foldl min ((options.head?.map List.length).getD 0)
  options.findIdx (·.length == least)

/-- What the options start with, what is left of them, and what they end with; `none` when they
have nothing in common. -/
def factor? (options : List (List Part)) : Option (List Part × List (List Part) × List Part) :=
  if options.length ≤ 1 then none
  else
    let k := shortestAt options
    let (front, back) := commonParts (options.getD k []) (options.eraseIdx k)
    if front.isEmpty && back.isEmpty then none
    else
      let rests := options.map fun o => (o.take (o.length - back.length)).drop front.length
      some (front, rests.foldl (fun acc o => if acc.contains o then acc else acc ++ [o]) [], back)

/-- The matcher of a list of parts; `depth` bounds the nesting of alternatives. -/
def compile : Nat → List Part → Matcher
  | 0, _ => .nothing
  | depth + 1, parts =>
    let part (p : Part) : Matcher := match p with
      | .text cs => .text (Utf8.encode (String.ofList cs)).toList
      | .run => .run
      | .anything => .anything
      | .single => .single
      | .oneOf negated cs => Matcher.simplify (.oneOf negated cs)
      | .between negated low high => .between negated low high
      | .alternatives options =>
        match factor? options with
        | none => .anyOf (options.map (compile depth))
        | some (front, rests, back) =>
          let middle : List Matcher := match rests with
            | [] | [[]] => []
            | [rest] => [compile depth rest]
            | rests => [compile depth [.alternatives rests]]
          sequence ((if front.isEmpty then [] else [compile depth front]) ++ middle
            ++ (if back.isEmpty then [] else [compile depth back]))
    sequence (parts.map part)
where
  /-- The matcher of matchers one after the other. -/
  sequence (ms : List Matcher) : Matcher :=
    let ms := Matcher.condense ms.length ms
    (Matcher.assemble ms.length ms).simplify

end Glob

/-- A compiled glob pattern. -/
structure Glob where
  matcher : Glob.Matcher

namespace Glob

/-- Compiles a pattern; `none` when it is malformed. -/
def ofPattern? (pattern : String) : Option Glob :=
  (parse? pattern).map fun parts => ⟨compile (2 * pattern.length + 2) parts⟩

/-- Does the pattern match the whole path? -/
def accepts (g : Glob) (path : String) : Bool := g.matcher.accepts (Utf8.encode path).toList

end Glob

end SolidityLint
