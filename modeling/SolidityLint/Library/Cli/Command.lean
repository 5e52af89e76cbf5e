import SolidityLint.Library.Cli.Flag
import SolidityLint.Text.Case

/-!
# Cli — commands

Commands form a tree.  The arguments name a way down from the root; a name that is none fails, with
the names that look like it.
-/

namespace SolidityLint

/-- A command: how it is called, what it says about itself, and the commands below it. -/
inductive Command where
  | mk (use short long : String) (flags : List Flag) (runs : Bool) (ownUsage : Bool)
      (children : List Command)
deriving Inhabited

namespace Command

/-- How the command is called: its name, and what it takes. -/
def use : Command → String
  | mk use .. => use

/-- A line about the command. -/
def short : Command → String
  | mk _ short .. => short

/-- All about the command. -/
def long : Command → String
  | mk _ _ long .. => long

/-- The flags of the command itself. -/
def flags : Command → List Flag
  | mk _ _ _ flags .. => flags

/-- Does the command do anything by itself? -/
def runs : Command → Bool
  | mk _ _ _ _ runs .. => runs

/-- Does the usage say all, so that flags are not mentioned? -/
def ownUsage : Command → Bool
  | mk _ _ _ _ _ ownUsage _ => ownUsage

def children : Command → List Command
  | mk _ _ _ _ _ _ children => children

/-- The name of the command. -/
def name (c : Command) : String := String.ofList (c.use.toList.takeWhile (· != ' '))

/-- Is the command listed for what it does?  The one that gives help is not. -/
def isListed (c : Command) : Bool := c.name != "help" && (c.runs || !c.children.isEmpty)

/-! ### Finding a command -/

/-- Does the argument take the next one as its value?  A flag that is not known does. -/
def takesNext (flags : List Flag) (s : String) : Bool :=
  if s.toList.contains '=' then false
  else match s.toList with
    | '-' :: '-' :: name =>
      !(Flags.byName? flags (String.ofList name)).any (·.kind = .switch)
    | ['-', c] => c.toNat < 0x80 && !(Flags.byLetter? flags c).any (·.kind = .switch)
    | _ => false

/-- The arguments that are neither flags nor their values.  The value of a flag ends the search if
it is the last argument. -/
def plainArguments (flags : List Flag) : List String → List String
  | [] => []
  | s :: rest =>
    if s == "--" then []
    else if takesNext flags s then
      match rest with
      | _ :: next :: more => plainArguments flags (next :: more)
      | _ => []
    else if s != "" && !hasFront "-" s then s :: plainArguments flags rest
    else plainArguments flags rest

/-- The arguments without the first plain one that equals a name. -/
def without (flags : List Flag) (name : String) : List String → List String
  | [] => []
  | s :: rest =>
    if s == "--" then s :: rest
    else if takesNext flags s then
      match rest with
      | value :: more => s :: value :: without flags name more
      | [] => [s]
    else if s == name && !hasFront "-" s then rest
    else s :: without flags name rest

/-- Goes down from a command, whose names so far are `path`, as far as the arguments name commands:
the command, its names and the arguments left.  `fuel` bounds the steps. -/
def descend (shared : List Flag) : Nat → List String → Command → List String →
    List String × Command × List String
  | 0, path, c, arguments => (path, c, arguments)
  | fuel + 1, path, c, arguments =>
    let flags := c.flags ++ shared
    match plainArguments flags arguments with
    | [] => (path, c, arguments)
    | next :: _ =>
      match c.children.find? (·.name == next) with
      | some child => descend shared fuel (path ++ [child.name]) child (without flags next arguments)
      | none => (path, c, arguments)

/-! ### Suggestions -/

/-- The next row of the table of edit distances: the row above, the entry left of it, and the
characters of the other text. -/
def nextRow {α : Type} [BEq α] (c : α) : List Nat → Nat → List α → List Nat
  | above :: rest, left, d :: ds =>
    let cost := min (min (left + 1) ((rest.headD 0) + 1)) (above + if c == d then 0 else 1)
    cost :: nextRow c rest cost ds
  | _, _, _ => []

/-- The number of single changes that lead from one text to the other. -/
def editDistance {α : Type} [BEq α] (s t : List α) : Nat :=
  let rows := s.foldl (fun row c =>
    let first := row.headD 0 + 1
    first :: nextRow c row first t) (List.range (t.length + 1))
  rows.getLast?.getD 0

/-- The commands below whose names look like a text. -/
def suggestions (c : Command) (text : String) : List String :=
  let typed := lowerCase text
  (c.children.filter fun d =>
    let bytes (s : String) : List UInt8 := (Utf8.encode s).toList
    d.isListed && (editDistance (bytes typed) (bytes d.name) ≤ 2 || hasFront typed d.name)).map name

/-- The message about a name that is no command. -/
def unknownMessage (c : Command) (path : List String) (text : String) : String :=
  "unknown command " ++ quoted text ++ " for " ++ quoted (String.intercalate " " path)
    ++ match c.suggestions text with
      | [] => ""
      | names => "\n\nDid you mean this?\n" ++ String.join (names.map fun n => "\t" ++ n ++ "\n")

/-- A command that was found. -/
structure Found where
  /-- The names from the root on. -/
  path : List String
  command : Command
  arguments : List String

/-- Finds the command that arguments name below the root.  Arguments that the root is left with
name none. -/
def find (root : Command) (shared : List Flag) (arguments : List String) : Except String Found :=
  let (path, c, rest) := descend shared arguments.length [root.name] root arguments
  match path, plainArguments (c.flags ++ shared) rest with
  | [_], text :: _ => .error (root.unknownMessage path text)
  | _, _ => .ok ⟨path, c, rest⟩

end Command

end SolidityLint
