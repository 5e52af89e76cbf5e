import SolidityLint.Text.Case
import SolidityLint.Text.Quoted
import SolidityLint.Text.Space

/-!
# Log — lines

A line of the log has a level, a message and fields.  The value of a field is quoted unless all of
its characters are plain, and one with several lines stands on lines of its own.
-/

namespace SolidityLint

/-- How much a line of the log matters. -/
inductive LogLevel where
  | debug | info | warn | error
deriving DecidableEq, Repr

namespace LogLevel

def name : LogLevel → String
  | debug => "debug"
  | info => "info"
  | warn => "warn"
  | error => "error"

/-- The name as it stands in a line. -/
def tag : LogLevel → String
  | debug => "DEBU"
  | info => "INFO"
  | warn => "WARN"
  | error => "ERRO"

/-- Reads the name of a level; anything else is `info`. -/
def parse (s : String) : LogLevel :=
  match lowerCase (trimSpace s) with
  | "debug" => debug
  | "warn" | "warning" => warn
  | "error" => error
  | _ => info

end LogLevel

namespace Log

/-- May the character stand in a value without quotes? -/
def isPlain (c : Char) : Bool := '-' ≤ c && c ≤ '~'

/-- How one character stands in a value; quotes are escaped only between quotes. -/
def escape (quotes : Bool) (c : Char) : List Char :=
  if c == '"' then (if quotes then ['\\', '"'] else ['"'])
  else if isPrintable c then [c]
  else if c.toNat == 0x7F then "\\u007f".toList
  else Quoted.escape c

/-- A text with four blanks for each tab, as messages are written. -/
def expandTabs (s : String) : String :=
  String.ofList (s.toList.flatMap fun c => if c == '\t' then [' ', ' ', ' ', ' '] else [c])

/-- The lines of a value under its key; a line break at the very end opens no line. -/
def indented (value : String) : String :=
  let lines := splitAtChar '\n' value.toList
  let shown := if lines.getLast? == some [] then lines.dropLast.map (some ·) ++ [none]
    else lines.map (some ·)
  String.intercalate "\n" (shown.map fun
    | some l => "  │ " ++ String.ofList (l.flatMap (escape false))
    | none => "")

/-- A field behind what stands before it on the line. -/
def field (key value : String) : String :=
  if value.toList.contains '\n' then "\n  " ++ key ++ "=\n" ++ indented value
  else if value == "" then " " ++ key ++ "=\"\""
  else if value.toList.all isPlain then " " ++ key ++ "=" ++ value
  else " " ++ key ++ "=\"" ++ String.ofList (value.toList.flatMap (escape true)) ++ "\""

/-- The fields of a line; a value of several lines before another field ends with a line break. -/
def fields : List (String × String) → String
  | [] => ""
  | [(key, value)] => field key value
  | (key, value) :: rest =>
    field key value ++ (if value.toList.contains '\n' && !hasBack "\n" value then "\n" else "")
      ++ fields rest

/-- A line of the log. -/
def line (level : LogLevel) (message : String) (fs : List (String × String) := []) : String :=
  level.tag ++ " " ++ expandTabs message ++ fields fs ++ "\n"

end Log

end SolidityLint
