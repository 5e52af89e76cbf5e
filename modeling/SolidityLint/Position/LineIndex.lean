import SolidityLint.Position.Basic
import SolidityLint.Text.Utf8

/-!
# Position — the line index

A `LineIndex` keeps the offset of every line start of one source, so that conversions between
offsets and positions need no scan: the line of an offset is found by bisection.  That the starts
are those of the source is part of the type.
-/

namespace SolidityLint

/-- The offsets just past the line ends of a source whose first byte has offset `i`. -/
def lineStartsAfter : Nat → List UInt8 → List Nat
  | _, [] => []
  | i, b :: bs => if b == newline then (i + 1) :: lineStartsAfter (i + 1) bs else lineStartsAfter (i + 1) bs

/-- The offsets of the line starts of a source. -/
def lineStarts (source : List UInt8) : List Nat := 0 :: lineStartsAfter 0 source

/-- A source and the offsets of its line starts. -/
structure LineIndex where
  content : ByteArray
  starts : Array Nat
  starts_eq : starts.toList = lineStarts content.data.toList

namespace LineIndex

/-- The index of a source. -/
def ofBytes (content : ByteArray) : LineIndex where
  content
  starts := (lineStarts content.data.toList).toArray
  starts_eq := by simp

instance : Inhabited LineIndex := ⟨ofBytes ByteArray.empty⟩

/-- The number of lines; an empty source has one. -/
def lineCount (l : LineIndex) : Nat := l.starts.size

/-- The length of the source. -/
def size (l : LineIndex) : Nat := l.content.size

/-- The number of starts in `[lo, hi)`, counted from zero, up to the first that is past `offset`:
bisection on the increasing starts. -/
def startsUpTo (starts : Array Nat) (offset lo hi : Nat) : Nat :=
  if _h : lo < hi then
    let mid := (lo + hi) / 2
    if offset < starts.getD mid 0 then startsUpTo starts offset lo mid
    else startsUpTo starts offset (mid + 1) hi
  else lo
termination_by hi - lo

/-- The position of an offset; offsets outside the source are moved to its nearer end. -/
def position (l : LineIndex) (offset : Int64) : Position :=
  let offset := clampOffset offset l.size
  let line := startsUpTo l.starts offset 0 l.starts.size
  .ofNat line (offset - l.starts.getD (line - 1) 0 + 1)

/-- The start of a line, counted from one, and the offset of its end. -/
def bounds? (l : LineIndex) (line : Int64) : Option (Nat × Nat) :=
  if line < 1 ∨ (l.starts.size : Int) < line.toInt then none
  else
    let n := line.toInt.toNat
    let stop := if n < l.starts.size then l.starts.getD n 0 - 1 else l.size
    some (l.starts.getD (n - 1) 0, stop)

/-- The offset of a position.  A position outside the source, also one past the end of its line,
has the offset of the end of the source; the sum of line start and character is one of words. -/
def offset (l : LineIndex) (pos : Position) : Int64 :=
  let size := Int64.ofNat l.size
  match l.bounds? pos.line with
  | none => size
  | some (start, stop) =>
    if pos.character < 1 then size
    else
      let offset := Int64.ofNat start + pos.character - 1
      if offset > Int64.ofNat stop || offset ≥ size then size else offset

/-- The range of a span. -/
def range (l : LineIndex) (s : Span) : Range := ⟨l.position s.offset, l.position s.stop⟩

/-- The bytes from `start` up to `stop`. -/
def slice (l : LineIndex) (start stop : Nat) : ByteArray := l.content.extract start stop

/-- A line without its end; empty when there is no such line. -/
def lineBytes (l : LineIndex) (line : Int64) : ByteArray :=
  match l.bounds? line with
  | none => ByteArray.empty
  | some (start, stop) =>
    if start < stop ∧ l.content.get! (stop - 1) = carriageReturn then l.slice start (stop - 1)
    else l.slice start stop

/-- The text of a line. -/
def lineText (l : LineIndex) (line : Int64) : String := textOfBytes (l.lineBytes line)

end LineIndex

end SolidityLint
