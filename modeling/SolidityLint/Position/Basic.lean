import SolidityLint.Number.Sum
import SolidityLint.Position.Span

/-!
# Position — lines and characters

A position is a line and a character, both counted from one; a character is a byte of the source.
`indexOfPosition` and `positionOfIndex` convert by scanning the source from its start.  They are
the plain definitions; `LineIndex` answers the same questions without a scan.

Positions arrive from outside, so their fields are 64-bit words that need not fit any source.
-/

namespace SolidityLint

/-- A line and a character, counted from one. -/
structure Position where
  line : Int64
  character : Int64
deriving DecidableEq, Repr, Inhabited

/-- A region of source; `stop` is just past its last character. -/
structure Range where
  start : Position
  stop : Position
deriving DecidableEq, Repr, Inhabited

namespace Position

/-- The position that nothing set. -/
def zero : Position := ⟨0, 0⟩

/-- `line:character`. -/
def render (p : Position) : String := Integer.render p.line ++ ":" ++ Integer.render p.character

/-- Strictly before, by line and then by character. -/
def before (p q : Position) : Bool :=
  if p.line != q.line then p.line < q.line else p.character < q.character

/-- The position at the given line and character of a source that fits in memory. -/
def ofNat (line character : Nat) : Position := ⟨Int64.ofNat line, Int64.ofNat character⟩

end Position

/-- The byte that ends a line. -/
def newline : UInt8 := 0x0A

/-- The byte that is dropped in front of the end of a line. -/
def carriageReturn : UInt8 := 0x0D

/-- The lines of a source, without their ends. -/
def splitLines (source : List UInt8) : List (List UInt8) :=
  (go source []).map fun line =>
    match line with
    | b :: rest => if b == carriageReturn then rest.reverse else line.reverse
    | [] => []
where
  /-- Each line reversed; `line` is the one being read. -/
  go : List UInt8 → List UInt8 → List (List UInt8)
    | [], line => [line]
    | b :: bs, line => if b == newline then line :: go bs [] else go bs (b :: line)

namespace Range

/-- The range that nothing set. -/
def zero : Range := ⟨.zero, .zero⟩

/-- `start-end`. -/
def render (r : Range) : String := r.start.render ++ "-" ++ r.stop.render

/-- Is the position in the range, its end included? -/
def contains (r : Range) (p : Position) : Bool := !p.before r.start && !r.stop.before p

/-- The sum of the lines from the start of the range up to its end, with one character for each end
of line crossed.  Lines that do not exist count as empty. -/
def acrossLines (r : Range) (source : List UInt8) : Int64 :=
  let first := r.start.line.toInt
  let last := r.stop.line.toInt
  let crossed := (splitLines source).zipIdx 1
    |>.filter (fun (_, n) => first ≤ (n : Int) && (n : Int) < last)
  let full : Int := sumOf (crossed.map (·.1.length)) + max (last - first) 0
  Int64.ofInt full - r.start.character + r.stop.character

/-- The number of characters that the range covers in the source: on one line the difference of
the characters, over several lines the sum of the lines, and at least zero. -/
def length (r : Range) (source : List UInt8) : Int64 :=
  if r.start.line == r.stop.line then r.stop.character - r.start.character
  else
    let total := r.acrossLines source
    if total < 0 then 0 else total

end Range

/-- The offset of the character at a position: the first place that a scan numbers so, or the
length of the source when it numbers none so. -/
def indexOfPosition (pos : Position) (source : List UInt8) : Nat :=
  go source 0 1 1
where
  go : List UInt8 → Nat → Nat → Nat → Nat
    | [], i, _, _ => i
    | b :: bs, i, line, character =>
      if (line : Int) = pos.line.toInt ∧ (character : Int) = pos.character.toInt then i
      else if b == newline then go bs (i + 1) (line + 1) 1
      else go bs (i + 1) line (character + 1)

/-- An offset moved into `[0, size]`. -/
def clampOffset (offset : Int64) (size : Nat) : Nat := min offset.toInt.toNat size

/-- The position of the character at an offset; offsets outside the source are moved to its
nearer end. -/
def positionOfIndex (index : Int64) (source : List UInt8) : Position :=
  go (source.take (clampOffset index source.length)) 1 1
where
  go : List UInt8 → Nat → Nat → Position
    | [], line, character => .ofNat line character
    | b :: bs, line, character =>
      if b == newline then go bs (line + 1) 1 else go bs line (character + 1)

/-- Does the position fall within the span, the place just past it included? -/
def Span.covers (s : Span) (pos : Position) (source : List UInt8) : Bool :=
  let i := Int64.ofNat (indexOfPosition pos source)
  s.offset ≤ i && i ≤ s.stop

end SolidityLint
