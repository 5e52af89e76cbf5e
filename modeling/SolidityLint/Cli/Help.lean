import SolidityLint.Library.Cli.Command
import SolidityLint.Report.Style

/-!
# Cli — help

The help of a command: what it is for, how it is called, the commands below it and its flags.
-/

namespace SolidityLint

namespace Help

/-- How help is shown. -/
structure HelpStyles where
  profile : Profile
  colored : Bool

/-- What is shown in a style of its own. -/
inductive Part where
  | command | heading | subcommand | flag | dim
deriving DecidableEq, Repr

/-- The style of a part when there is colour. -/
def colorStyle : Part → Style
  | .command => { bold := true, color := some 14 }
  | .heading => { bold := true, color := some 11 }
  | .subcommand => { color := some 10 }
  | .flag => { color := some 12 }
  | .dim => { color := some 8 }

/-- A text shown as a part. -/
def HelpStyles.render (s : HelpStyles) (part : Part) (text : String) : String :=
  (if s.colored then colorStyle part else {}).render s.profile text

/-- Without blanks at the ends of lines. -/
def trimLines (s : String) : String :=
  String.intercalate "\n" ((splitAtChar '\n' s.toList).map fun l =>
    String.ofList (l.reverse.dropWhile fun c => c == ' ' || c == '\t').reverse)

/-- A flag or what it takes; a comma behind it is not part of it. -/
def word (s : HelpStyles) (token : String) : String :=
  let (body, comma) := if hasBack "," token then (String.ofList token.toList.dropLast, ",")
    else (token, "")
  s.render (if hasFront "-" body then .flag else .dim) body ++ comma

/-- A line of the usage of flags with its names in style. -/
def flagLine (s : HelpStyles) (line : String) : String :=
  let indent := line.toList.takeWhile (· == ' ')
  let body := line.toList.dropWhile (· == ' ')
  let spec := cutBefore "   ".toList body
  let tokens := words spec
  if spec.length = body.length || tokens.isEmpty then line
  else String.ofList indent ++ String.intercalate " " (tokens.map (word s))
    ++ String.ofList (body.drop spec.length)

/-- A section of flags. -/
def flagSection (s : HelpStyles) (title : String) (flags : List Flag) : String :=
  if flags.isEmpty then ""
  else "\n\n" ++ s.render .heading title ++ "\n"
    ++ String.intercalate "\n" ((Flags.usageLines flags).map (flagLine s))

/-- The way that a command is called. -/
def useLine (path : List String) (c : Command) (flags : List Flag) : String :=
  String.intercalate " " (path.dropLast ++ [c.use])
    ++ if c.ownUsage || flags.isEmpty then "" else " [flags]"

/-- The list of the commands below. -/
def commandList (s : HelpStyles) (c : Command) : String :=
  let names := (c.children.map fun d => d.name.length).foldl max 11
  let shown := (c.children.filter fun d => d.isListed || d.name == "help").mergeSort
    fun a b => decide (a.name ≤ b.name)
  "\n\n" ++ s.render .heading "Commands:" ++ String.join (shown.map fun d =>
    "\n  " ++ s.render .subcommand (d.name ++ blanks (names - d.name.length)) ++ " " ++ d.short)

/-- The help of a command with its own flags and those that it shares with the commands above. -/
def render (s : HelpStyles) (path : List String) (c : Command) (own shared : List Flag) : String :=
  let full := String.intercalate " " path
  let about := if c.long == "" then c.short else c.long
  (if about == "" then "" else trimLines about ++ "\n\n")
    ++ s.render .heading "Usage:"
    ++ (if c.runs then "\n  " ++ s.render .command (useLine path c (own ++ shared)) else "")
    ++ (if c.children.isEmpty then "" else "\n  " ++ s.render .command full ++ " [command]")
    ++ (if c.children.isEmpty then "" else commandList s c)
    ++ flagSection s "Flags:" own
    ++ flagSection s "Global Flags:" shared
    ++ (if c.children.isEmpty then "" else "\n\nUse \"" ++ s.render .command (full ++ " [command] --help")
        ++ "\" for more information about a command.")
    ++ "\n"

end Help

end SolidityLint
