import SolidityLint.Number.Sum
import SolidityLint.Library.Text.Columns
import SolidityLint.Library.Text.Grapheme
import SolidityLint.Text.Utf8

/-!
# Text — display width

The width of a text is the sum of the widths of its user-perceived characters; such a character is
as wide as its first part that has a width.  Padding and shortening work on that width.
-/

namespace SolidityLint

/-- The columns of a user-perceived character. -/
def clusterWidth (cluster : List Char) : Nat := ((cluster.map columnsOf).find? (0 < ·)).getD 0

/-- The columns of a text given by its characters. -/
def widthOf (cs : List Char) : Nat := sumOf ((Grapheme.clusters cs).map clusterWidth)

/-- The columns of a text. -/
def displayWidth (s : String) : Nat := widthOf s.toList

/-- `n` blanks. -/
def blanks (n : Nat) : String := String.ofList (List.replicate n ' ')

/-- Blanks behind a text up to a width. -/
def padRight (width : Nat) (s : String) : String := s ++ blanks (width - displayWidth s)

/-- Blanks in front of a text up to a width. -/
def padLeft (width : Nat) (s : String) : String := blanks (width - displayWidth s) ++ s

/-- The user-perceived characters from the left that fit into a width. -/
def fitting : Nat → List (List Char) → List (List Char)
  | _, [] => []
  | room, c :: cs =>
    if clusterWidth c ≤ room then c :: fitting (room - clusterWidth c) cs else []

/-- A text that is too wide is cut on the right, and `tail` stands for what is missing. -/
def truncate (width : Nat) (tail s : String) : String :=
  if displayWidth s ≤ width then s
  else
    String.ofList (fitting (width - displayWidth tail) (Grapheme.clusters s.toList)).flatten ++ tail

/-! ### Pieces of bytes -/

/-- The number of bytes that the first byte of a character announces. -/
def announcedLength (b : UInt8) : Nat :=
  if 0xC2 ≤ b && b < 0xE0 then 2
  else if 0xE0 ≤ b && b < 0xF0 then 3
  else if 0xF0 ≤ b && b < 0xF5 then 4
  else 1

/-- The bytes up to a last character that is cut off; `skip` counts the bytes at the front that
the last character already took. -/
def completePart : List UInt8 → Nat → List UInt8
  | [], _ => []
  | b :: rest, skip + 1 => b :: completePart rest skip
  | b :: rest, 0 =>
    if rest.length + 1 < announcedLength b then []
    else b :: completePart rest ((Utf8.next b rest).2 - 1)

/-- The columns of a piece of a text.  A character that the end of the piece cuts off stays with
what is before it, and has one column when there is nothing. -/
def bytesWidth (bytes : List UInt8) : Nat :=
  let whole := completePart bytes 0
  if whole.isEmpty && !bytes.isEmpty then 1 else widthOf (Utf8.decode whole)

end SolidityLint
