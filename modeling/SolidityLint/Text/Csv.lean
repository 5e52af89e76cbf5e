import SolidityLint.Text.Space

/-!
# Text — comma-separated values

The first record of a text: fields between commas, in quotes where they hold commas, line breaks or
quotes, which are then written twice.
-/

namespace SolidityLint

namespace Csv

/-- What is wrong with a record. -/
inductive Fault where
  /-- There is no record. -/
  | empty
  /-- A quote in a field that does not start with one, at a line and a column. -/
  | bareQuote (line column : Nat)
  /-- A quoted field that does not end well; `first` is the line on which the record starts. -/
  | badQuote (first line column : Nat)
deriving DecidableEq, Repr

def Fault.message : Fault → String
  | .empty => "EOF"
  | .bareQuote line column =>
    "parse error on line " ++ Nat.repr line ++ ", column " ++ Nat.repr column
      ++ ": bare \" in non-quoted field"
  | .badQuote first line column =>
    (if first = line then "parse error on line "
      else "record on line " ++ Nat.repr first ++ "; parse error on line ")
      ++ Nat.repr line ++ ", column " ++ Nat.repr column
      ++ ": extraneous or missing \" in quoted-field"

/-- Where the reader stands. -/
inductive Mode where
  /-- At the start of a field. -/
  | start
  /-- In a field without quotes. -/
  | plain
  /-- In a quoted field. -/
  | quotes
  /-- Behind a quote in a quoted field, which closes it or stands for a quote. -/
  | closing
deriving DecidableEq, Repr

/-- The bytes of a character. -/
def width (c : Char) : Nat := (String.singleton c).utf8ByteSize

/-- The fields of a record; `first` is its first line, `line` and `column` are where the next
character stands, and `field` holds the field so far, last character first. -/
def fields (first : Nat) : Nat → Nat → Mode → List Char → List Char → Except Fault (List String)
  | line, column, mode, field, [] =>
    match mode with
    | .quotes => .error (.badQuote first line column)
    | _ => .ok [String.ofList field.reverse]
  | line, column, mode, field, c :: cs =>
    let done : String := String.ofList field.reverse
    match mode with
    | .start | .plain =>
      if c == ',' then (fields first line (column + 1) .start [] cs).map (done :: ·)
      else if c == '\n' then .ok [done]
      else if c == '"' then
        if mode = .start then fields first line (column + 1) .quotes [] cs
        else .error (.bareQuote line column)
      else fields first line (column + width c) .plain (c :: field) cs
    | .quotes =>
      if c == '"' then fields first line (column + 1) .closing field cs
      else if c == '\n' then fields first (if cs.isEmpty then line else line + 1)
        (if cs.isEmpty then column + 1 else 1) .quotes (c :: field) cs
      else fields first line (column + width c) .quotes (c :: field) cs
    | .closing =>
      if c == '"' then fields first line (column + 1) .quotes ('"' :: field) cs
      else if c == ',' then (fields first line (column + 1) .start [] cs).map (done :: ·)
      else if c == '\n' then .ok [done]
      else .error (.badQuote first line (column - 1))

/-- The text from its first line on that is not empty, and the number of that line. -/
def skipEmpty : Nat → List Char → Nat × List Char
  | line, '\n' :: cs => skipEmpty (line + 1) cs
  | line, cs => (line, cs)

/-- The first record of a text; an empty text is a record without fields. -/
def record (text : String) : Except Fault (List String) :=
  if text == "" then .ok []
  else match skipEmpty 1 text.toList with
    | (_, []) => .error .empty
    | (line, cs) => fields line line 1 .start [] cs

end Csv

end SolidityLint
