import SolidityLint.Text.Csv
import SolidityLint.Text.Integer
import SolidityLint.Text.Quoted
import SolidityLint.Text.Utf8
import SolidityLint.Library.Text.Width
import SolidityLint.Time.Duration

/-!
# Cli — flags

Flags have a long name behind two dashes and may have a letter behind one.  A flag that is on or off
needs no value; all others take the one behind an equals sign, or the next argument.  Flags and
other arguments may stand in any order, and two dashes alone end the flags.
-/

namespace SolidityLint

/-- What a flag takes. -/
inductive FlagKind where
  /-- On or off. -/
  | switch
  | text
  | int
  | duration
  /-- Texts with commas between them; further ones are added. -/
  | texts
deriving DecidableEq, Repr

/-- A flag that a command knows. -/
structure Flag where
  name : String
  letter : Option Char := none
  kind : FlagKind
  /-- The value without the flag as it is shown; empty for none. -/
  standard : String := ""
  usage : String
deriving DecidableEq, Repr

/-- The value that a flag was given. -/
inductive FlagValue where
  | switch (on : Bool)
  | text (s : String)
  | int (n : Int64)
  | duration (d : Duration)
  | texts (items : List String)
deriving DecidableEq, Repr

/-- What is wrong with the arguments. -/
inductive FlagFault where
  | badSyntax (argument : String)
  | unknown (name : String)
  | unknownLetter (letter : Char) (group : String)
  | missingValue (name : String)
  | missingLetterValue (letter : Char) (group : String)
  | badValue (flag : Flag) (value cause : String)
deriving DecidableEq, Repr

namespace FlagFault

/-- A letter between single quotes. -/
def quotedLetter (c : Char) : String :=
  if c == '\'' then "'\\''" else if c == '"' then "'\"'"
  else "'" ++ String.ofList (Quoted.escape c) ++ "'"

def message : FlagFault → String
  | badSyntax argument => "bad flag syntax: " ++ argument
  | unknown name => "unknown flag: --" ++ name
  | unknownLetter letter group =>
    "unknown shorthand flag: " ++ quotedLetter letter ++ " in -" ++ group
  | missingValue name => "flag needs an argument: --" ++ name
  | missingLetterValue letter group =>
    "flag needs an argument: " ++ quotedLetter letter ++ " in -" ++ group
  | badValue flag value cause =>
    let name := match flag.letter with
      | some c => "-" ++ String.singleton c ++ ", --" ++ flag.name
      | none => "--" ++ flag.name
    "invalid argument " ++ quoted value ++ " for " ++ quoted name ++ " flag: " ++ cause

end FlagFault

/-- The flags that were given, the last one first, with their values. -/
abbrev GivenFlags := List (String × FlagValue)

namespace GivenFlags

/-- Was the flag given? -/
def has (g : GivenFlags) (name : String) : Bool := (g.lookup name).isSome

def text (g : GivenFlags) (name standard : String) : String :=
  match g.lookup name with
  | some (.text s) => s
  | _ => standard

def isOn (g : GivenFlags) (name : String) : Bool :=
  match g.lookup name with
  | some (.switch b) => b
  | _ => false

def int (g : GivenFlags) (name : String) : Int64 :=
  match g.lookup name with
  | some (.int n) => n
  | _ => 0

def duration (g : GivenFlags) (name : String) : Duration :=
  match g.lookup name with
  | some (.duration d) => d
  | _ => ⟨0⟩

/-- The texts of a flag; absent when it was not given. -/
def texts? (g : GivenFlags) (name : String) : Option (List String) :=
  match g.lookup name with
  | some (.texts items) => some items
  | _ => none

end GivenFlags

namespace Flag

/-- Reads a truth value. -/
def switch? : String → Option Bool
  | "1" | "t" | "T" | "TRUE" | "true" | "True" => some true
  | "0" | "f" | "F" | "FALSE" | "false" | "False" => some false
  | _ => none

/-- The value that a text gives to a flag, or the reason why it gives none. -/
def read (f : Flag) (given : GivenFlags) (s : String) : Except String FlagValue :=
  match f.kind with
  | .text => .ok (.text s)
  | .switch => match switch? s with
    | some b => .ok (.switch b)
    | none => .error ("strconv.ParseBool: parsing " ++ quoted s ++ ": invalid syntax")
  | .int => match Integer.readLiteral s with
    | .ok n => .ok (.int n)
    | .error e => .error ("strconv.ParseInt: parsing " ++ quoted s ++ ": " ++ e.reason)
  | .duration => match Duration.parse s with
    | .ok d => .ok (.duration d)
    | .error e => .error (e.message s)
  | .texts => match Csv.record s with
    | .ok items => .ok (.texts ((given.texts? f.name).getD [] ++ items))
    | .error e => .error e.message

/-- Gives a flag its value. -/
def give (f : Flag) (given : GivenFlags) (s : String) : Except FlagFault GivenFlags :=
  match f.read given s with
  | .ok v => .ok ((f.name, v) :: given)
  | .error cause => .error (.badValue f s cause)

end Flag

/-! ### Reading arguments -/

namespace Flags

def byName? (flags : List Flag) (name : String) : Option Flag := flags.find? (·.name == name)

def byLetter? (flags : List Flag) (c : Char) : Option Flag := flags.find? (·.letter == some c)

/-- Flags and other arguments read so far; the others last first. -/
structure Parsed where
  given : GivenFlags := []
  others : List String := []

/-- A long flag, without its dashes, and the arguments behind it: the flags given then, and whether
the next argument was taken. -/
def long (flags : List Flag) (given : GivenFlags) (argument : String) (body : List Char)
    (next : Option String) : Except FlagFault (GivenFlags × Bool) :=
  match body.head? with
  | none | some '-' | some '=' => .error (.badSyntax argument)
  | some _ =>
    let name := String.ofList (body.takeWhile (· != '='))
    match byName? flags name with
    | none => .error (.unknown name)
    | some f =>
      match body.dropWhile (· != '=') with
      | _ :: value => (f.give given (String.ofList value)).map (·, false)
      | [] =>
        if f.kind = .switch then (f.give given "true").map (·, false)
        else match next with
          | some value => (f.give given value).map (·, true)
          | none => .error (.missingValue name)

/-- The character of the first byte of a group of letters. -/
def firstByte (group : List Char) : Char :=
  match (Utf8.encode (String.ofList group)).toList.head? with
  | some b => Char.ofNat b.toNat
  | none => '-'

/-- A group of letters behind a dash: the flags given then, and whether the next argument was
taken.  A switch lets the next letter follow; any other flag takes the rest of the group. -/
def letters (flags : List Flag) (next : Option String) :
    GivenFlags → List Char → Except FlagFault (GivenFlags × Bool)
  | given, [] => .ok (given, false)
  | given, c :: cs =>
    let group := String.ofList (c :: cs)
    if hasFront "test." group then .ok (given, false)
    else match byLetter? flags c with
      | none => .error (.unknownLetter (firstByte (c :: cs)) group)
      | some f =>
        match cs with
        | '=' :: v :: value => (f.give given (String.ofList (v :: value))).map (·, false)
        | cs =>
          if f.kind = .switch then do letters flags next (← f.give given "true") cs
          else if !cs.isEmpty then (f.give given (String.ofList cs)).map (·, false)
          else match next with
            | some value => (f.give given value).map (·, true)
            | none => .error (.missingLetterValue c group)

/-- Reads arguments; with `skip`, the first was taken by the flag before it. -/
def parseFrom (flags : List Flag) : Bool → Parsed → List String → Except FlagFault Parsed
  | _, p, [] => .ok p
  | true, p, _ :: rest => parseFrom flags false p rest
  | false, p, s :: rest =>
    match s.toList with
    | ['-', '-'] => .ok { p with others := rest.reverse ++ p.others }
    | '-' :: '-' :: body => do
      let (given, taken) ← long flags p.given s body rest.head?
      parseFrom flags taken { p with given } rest
    | '-' :: c :: cs => do
      let (given, taken) ← letters flags rest.head? p.given (c :: cs)
      parseFrom flags taken { p with given } rest
    | _ => parseFrom flags false { p with others := s :: p.others } rest

/-- Reads the flags and the other arguments of a command. -/
def parse (flags : List Flag) (arguments : List String) :
    Except FlagFault (GivenFlags × List String) :=
  (parseFrom flags false {} arguments).map fun p => (p.given, p.others.reverse)

/-! ### Usage -/

/-- What a flag takes, in its usage. -/
def valueName : FlagKind → String
  | .switch => ""
  | .text => "string"
  | .int => "int"
  | .duration => "duration"
  | .texts => "strings"

/-- The names of a flag and what it takes. -/
def spec (f : Flag) : String :=
  (match f.letter with
    | some c => "  -" ++ String.singleton c ++ ", --" ++ f.name
    | none => "      --" ++ f.name)
    ++ (if f.kind = .switch then "" else " " ++ valueName f.kind)

/-- The usage of a flag with its value when it is not given. -/
def usage (f : Flag) : String :=
  f.usage ++ if f.standard == "" then ""
    else if f.kind = .text then " (default " ++ quoted f.standard ++ ")"
    else " (default " ++ f.standard ++ ")"

/-- The lines of the usage of flags, by name. -/
def usageLines (flags : List Flag) : List String :=
  let sorted := flags.mergeSort fun a b => decide (a.name ≤ b.name)
  let widest := (sorted.map fun f => (spec f).length).foldl max 0
  sorted.map fun f => spec f ++ blanks (widest - (spec f).length + 3) ++ usage f

end Flags

end SolidityLint
