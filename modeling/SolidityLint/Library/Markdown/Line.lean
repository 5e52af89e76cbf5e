import SolidityLint.Text.Space

/-!
# Markdown — lines

Blocks are told apart by the indentation of lines.  A tab stands for the blanks up to the next
column that four divides; part of them may belong to one block and the others to the next.
-/

namespace SolidityLint

namespace Markdown

/-- A line, or what is left of it. -/
structure Line where
  /-- The column at which the rest starts. -/
  column : Nat := 0
  /-- The blanks that are left of a tab, in front of the characters. -/
  pad : Nat := 0
  chars : List Char

/-- White space of ASCII. -/
def isBlankChar (c : Char) : Bool := c == ' ' || (0x09 ≤ c.toNat && c.toNat ≤ 0x0D)

/-- The width of a tab at a column. -/
def tabWidth (column : Nat) : Nat := 4 - column % 4

/-- The width of the indentation of characters that start at a column. -/
def indentFrom (column : Nat) : List Char → Nat
  | ' ' :: cs => 1 + indentFrom (column + 1) cs
  | '\t' :: cs => tabWidth column + indentFrom (column + tabWidth column) cs
  | _ => 0

/-- Characters that start at a column, without `n` columns of indentation. -/
def dropFrom (n column : Nat) : List Char → Line
  | [] => ⟨column, 0, []⟩
  | c :: cs =>
    if n = 0 then ⟨column, 0, c :: cs⟩
    else if c == ' ' then dropFrom (n - 1) (column + 1) cs
    else if c == '\t' then
      if n < tabWidth column then ⟨column + n, tabWidth column - n, cs⟩
      else dropFrom (n - tabWidth column) (column + tabWidth column) cs
    else ⟨column, 0, c :: cs⟩

/-- Without the blanks at the end. -/
def trimRight (cs : List Char) : List Char := (cs.reverse.dropWhile isBlankChar).reverse

/-- Without the blanks at both ends. -/
def trim (cs : List Char) : List Char := trimBoth isBlankChar cs

namespace Line

def isBlank (l : Line) : Bool := l.chars.all isBlankChar

/-- The width of the indentation. -/
def indent (l : Line) : Nat := l.pad + indentFrom (l.column + l.pad) l.chars

/-- Without `n` columns of indentation, or all that there is. -/
def dropIndent (l : Line) (n : Nat) : Line :=
  if n ≤ l.pad then { l with column := l.column + n, pad := l.pad - n }
  else dropFrom (n - l.pad) (l.column + l.pad) l.chars

/-- All characters. -/
def text (l : Line) : List Char := List.replicate l.pad ' ' ++ l.chars

/-- The characters behind the indentation. -/
def body (l : Line) : List Char := l.chars.dropWhile fun c => c == ' ' || c == '\t'

/-- What is left behind the indentation and `n` characters more. -/
def skip (l : Line) (n : Nat) : Line :=
  ⟨l.column + l.indent + n, 0, l.body.drop n⟩

end Line

/-- The lines of a text, without their ends. -/
def linesOf (cs : List Char) : List (List Char) :=
  let lines := splitAtChar '\n' cs
  if lines.getLast? == some [] then lines.dropLast else lines

end Markdown

end SolidityLint
