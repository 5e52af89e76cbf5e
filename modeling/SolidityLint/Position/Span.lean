import SolidityLint.Text.Integer
import SolidityLint.Text.Quoted

/-!
# Position — spans

The compiler locates a node by a byte offset, a length and, often, the number of the source it
stands in.  `Span.parse` reads its notation `offset:length` or `offset:length:file` and
`Span.render` writes it.  The fields are 64-bit words: offsets are not checked against any
source, and the end of a span wraps like every sum of words.
-/

namespace SolidityLint

/-- A stretch of source text in bytes. -/
structure Span where
  offset : Int64
  length : Int64
  /-- The compiler's number of the source, `-1` when it gave none. -/
  file : Int64 := -1
deriving DecidableEq, Repr, Inhabited

/-- Why a text is no span. -/
inductive SpanError where
  /-- The text does not have two or three fields. -/
  | shape (text : String)
  /-- A field is no integer of 64 bits. -/
  | field (text numeral : String) (error : IntegerError)
deriving DecidableEq, Repr

/-- The message of a refused span. -/
def SpanError.message : SpanError → String
  | .shape text => "malformed span: " ++ quoted text ++ ": want offset:length"
  | .field text numeral error =>
    "malformed span: " ++ quoted text ++ ": strconv.Atoi: parsing " ++ quoted numeral ++ ": "
      ++ error.reason

namespace Span

/-- The span of nothing: what is reported when there is no node or no header. -/
def none : Span := ⟨-1, -1, -1⟩

/-- The offset just past the span. -/
def stop (s : Span) : Int64 := s.offset + s.length

/-- Does the span point into source text?  The compiler gives nodes it made up an offset of
`-1`. -/
def isValid (s : Span) : Bool := 0 ≤ s.offset && 0 ≤ s.length

/-- Is the offset inside the span, its end excluded? -/
def contains (s : Span) (offset : Int64) : Bool := s.offset ≤ offset && offset < s.stop

/-- The fields of a text between colons. -/
def fields (s : String) : List String :=
  (go s.toList []).map String.ofList
where
  go : List Char → List Char → List (List Char)
    | [], cur => [cur.reverse]
    | ':' :: cs, cur => cur.reverse :: go cs []
    | c :: cs, cur => go cs (c :: cur)

/-- Reads the fields in order; the first that is no integer is the one reported. -/
def readFields (text : String) : List String → Except SpanError (List Int64)
  | [] => .ok []
  | f :: fs =>
    match Integer.read f with
    | .error e => .error (.field text f e)
    | .ok n => (readFields text fs).map (n :: ·)

/-- Reads `offset:length` or `offset:length:file`. -/
def parse (s : String) : Except SpanError Span :=
  let fs := fields s
  if fs.length = 2 ∨ fs.length = 3 then
    match readFields s fs with
    | .error e => .error e
    | .ok [offset, length] => .ok { offset, length }
    | .ok [offset, length, file] => .ok { offset, length, file }
    | .ok _ => .error (.shape s)
  else .error (.shape s)

/-- Writes a span the way the compiler does, without the file when it is `-1`. -/
def render (s : Span) : String :=
  let front := Integer.render s.offset ++ ":" ++ Integer.render s.length
  if s.file == -1 then front else front ++ ":" ++ Integer.render s.file

end Span

end SolidityLint
