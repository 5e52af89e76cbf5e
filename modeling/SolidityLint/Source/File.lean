import SolidityLint.Ast.Walk
import SolidityLint.Position.LineIndex

/-!
# Source — files

A source file is a path, its bytes with their line index, and the tree that the compiler made of
them, if it made one.
-/

namespace SolidityLint

/-- A snapshot of a source file and its tree. -/
structure SourceFile where
  path : String
  lines : LineIndex
  /-- Absent for a file that was not parsed. -/
  root : Option Node
deriving Inhabited

namespace SourceFile

/-- The snapshot of a file with the given bytes. -/
def ofBytes (path : String) (content : ByteArray) (root : Option Node) : SourceFile :=
  { path, lines := .ofBytes content, root }

/-- The bytes of the file. -/
def content (f : SourceFile) : ByteArray := f.lines.content

/-- The text of the file. -/
def text (f : SourceFile) : String := textOfBytes f.content

/-- All nodes of the file, in document order. -/
def nodes (f : SourceFile) : List Cursor := allNodes f.root

/-- The nodes of the given kinds. -/
def ofKinds (f : SourceFile) (kinds : List NodeKind) : List Cursor := nodesOfKinds f.root kinds

/-- The range of a span in the file. -/
def range (f : SourceFile) (s : Span) : Range := f.lines.range s

/-- The range of a node. -/
def nodeRange (f : SourceFile) (n : Node) : Range := f.range n.src

/-- The range of a node's name, or of the node when it has none. -/
def nameRange (f : SourceFile) (n : Node) : Range := f.range n.nameSpan

/-- The bytes under a span, as far as they lie in the file. -/
def slice (f : SourceFile) (s : Span) : ByteArray :=
  let start := clampOffset s.offset f.lines.size
  let stop := max start (clampOffset s.stop f.lines.size)
  f.lines.slice start stop

/-- The text under a span. -/
def sliceText (f : SourceFile) (s : Span) : String := textOfBytes (f.slice s)

/-- Does the node stand in the source and reach over the offset, its end included? -/
def reaches (n : Node) (offset : Int64) : Bool :=
  n.src.isValid && n.src.offset ≤ offset && offset ≤ n.src.stop

/-- The nodes that reach over a position, outermost first.  A node that stands elsewhere in the
source is left out with all below it; one that stands nowhere is passed through. -/
def nodesAt (f : SourceFile) (pos : Position) : List Cursor :=
  let offset := f.lines.offset pos
  match f.root with
  | none => []
  | some root =>
    (Cursor.visit (fun out c =>
      (if reaches c.node offset then c :: out else out,
        !c.node.src.isValid || reaches c.node offset)) [] [.root root]).reverse

end SourceFile

end SolidityLint
