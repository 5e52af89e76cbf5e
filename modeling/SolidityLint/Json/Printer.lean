import SolidityLint.Json.Basic
import SolidityLint.Text.Quoted

/-!
# Json — writing

`Json.render` writes a value on one line, `Json.renderIndented` with two spaces for each level.
The characters `<`, `>` and `&` are escaped by default, so that the text can stand inside a page;
a `Style` can turn that off.
-/

namespace SolidityLint

namespace Json

/-- How one character of a string is written. -/
def escapeChar (safe : Bool) (c : Char) : List Char :=
  match c with
  | '"' => ['\\', '"']
  | '\\' => ['\\', '\\']
  | '\x08' => ['\\', 'b']
  | '\x0c' => ['\\', 'f']
  | '\n' => ['\\', 'n']
  | '\r' => ['\\', 'r']
  | '\t' => ['\\', 't']
  | c =>
    if c.toNat < 0x20 || c.toNat == 0x2028 || c.toNat == 0x2029
        || (safe && (c == '<' || c == '>' || c == '&')) then
      '\\' :: 'u' :: Quoted.hex 4 c.toNat
    else [c]

/-- A string in quotes.  With `safe`, the characters special in a page are escaped. -/
def renderString (s : String) (safe : Bool := true) : String :=
  String.ofList ('"' :: s.toList.flatMap (escapeChar safe) ++ ['"'])

mutual

/-- The value on one line, without spaces. -/
def render (safe : Bool) : Json → String
  | .null => "null"
  | .bool true => "true"
  | .bool false => "false"
  | .num text => text
  | .str s => renderString s safe
  | .arr items => "[" ++ String.intercalate "," (renderItems safe items) ++ "]"
  | .obj members => "\x7b" ++ String.intercalate "," (renderMembers safe members) ++ "\x7d"

/-- The items of an array. -/
def renderItems (safe : Bool) : List Json → List String
  | [] => []
  | v :: vs => render safe v :: renderItems safe vs

/-- The members of an object. -/
def renderMembers (safe : Bool) : List (String × Json) → List String
  | [] => []
  | (k, v) :: ms => (renderString k safe ++ ":" ++ render safe v) :: renderMembers safe ms

end

/-- The value on one line, special characters of a page escaped. -/
def compact (v : Json) : String := v.render true

/-- `n` levels of indentation. -/
def indentation (n : Nat) : String := String.ofList (List.replicate (2 * n) ' ')

/-- Items between brackets, each on a line of its own. -/
def block (level : Nat) (left right : String) (items : List String) : String :=
  if items.isEmpty then left ++ right
  else
    left ++ "\n" ++ String.intercalate ",\n" (items.map (indentation (level + 1) ++ ·)) ++ "\n"
      ++ indentation level ++ right

mutual

/-- The value over several lines, starting at an indentation of `level`. -/
def renderIndented (safe : Bool) (level : Nat) : Json → String
  | .arr items => block level "[" "]" (indentedItems safe (level + 1) items)
  | .obj members => block level "\x7b" "\x7d" (indentedMembers safe (level + 1) members)
  | .null => "null"
  | .bool true => "true"
  | .bool false => "false"
  | .num text => text
  | .str s => renderString s safe

/-- The items of an array. -/
def indentedItems (safe : Bool) (level : Nat) : List Json → List String
  | [] => []
  | v :: vs => renderIndented safe level v :: indentedItems safe level vs

/-- The members of an object. -/
def indentedMembers (safe : Bool) (level : Nat) : List (String × Json) → List String
  | [] => []
  | (k, v) :: ms =>
    (renderString k safe ++ ": " ++ renderIndented safe level v) :: indentedMembers safe level ms

end

/-- The value over several lines with two spaces for each level. -/
def pretty (v : Json) (safe : Bool := true) : String := v.renderIndented safe 0

mutual

/-- The value with the members of every object by key, each key once. -/
def canonical : Json → Json
  | .arr items => .arr (canonicalItems items)
  | .obj members => .obj (sorted (canonicalMembers members))
  | v => v

/-- Item by item. -/
def canonicalItems : List Json → List Json
  | [] => []
  | v :: vs => canonical v :: canonicalItems vs

/-- Member by member. -/
def canonicalMembers : List (String × Json) → List (String × Json)
  | [] => []
  | (k, v) :: ms => (k, canonical v) :: canonicalMembers ms

end

end Json

end SolidityLint
