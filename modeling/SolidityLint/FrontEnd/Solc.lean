import SolidityLint.Lint.Diagnostic
import SolidityLint.Lint.Session
import SolidityLint.Time.Duration

/-!
# FrontEnd — the solc compiler

Trees come from the compiler: it reads a source on its standard input and prints the tree of it as
JSON.  What it says when it refuses a source tells whether the source could not be scanned or not be
parsed.
-/

namespace SolidityLint

/-- What came of starting a compiler. -/
inductive CompilerOutcome where
  | exited (code : Int) (stdout stderr : String)
  /-- No program of this name is on the search path. -/
  | notFound
  /-- The program at this path cannot be started. -/
  | refused (trouble : FileTrouble)
  | timedOut
deriving Repr

/-- Runs a compiler: its name or path, the time it may take, its arguments and its input. -/
abbrev Compiler := String → Duration → List String → ByteArray → CompilerOutcome

/-- The compiler to run, and the time it may take for a source. -/
structure SolcFrontEnd where
  executable : String := "solc"
  timeout : Duration := .seconds 30

namespace SolcFrontEnd

/-- A front end; an empty name and a time that is not positive stand for the defaults. -/
def ofOptions (executable : String) (timeout : Duration) : SolcFrontEnd :=
  let standard : SolcFrontEnd := {}
  { executable := if executable == "" then standard.executable else executable
    timeout := if timeout.nanoseconds ≤ 0 then standard.timeout else timeout }

/-! ### Messages of the compiler -/

/-- A source that cannot be scanned. -/
def tokenizeFailure (message : String) : Failure :=
  .marked .tokenize (.plain ("tokenize error: " ++ message))

/-- A source that cannot be parsed. -/
def parseFailure (message : String) : Failure :=
  .marked .parse (.plain ("parse error: " ++ message))

/-- The letter of a character in any case. -/
def anyCase (c : Char) : Char := if c == 'ſ' then 's' else if c == '\u212A' then 'k' else c.toLower

/-- What the compiler says of sources that it cannot scan, in any case. -/
def scannerMessages : List String :=
  ["scannererror", "invalid character", "invalid token", "unterminated",
    "octal numbers not allowed", "invalid escape sequence", "identifier-start is not allowed"]

/-- The line of a message that speaks of an error: the first that does, or else the first. -/
def errorLine (stderr : String) : String :=
  let lines := (splitAtChar '\n' (trimSpace stderr).toList).map String.ofList
  match lines.find? (hasPart "Error") with
  | some line => trimSpace line
  | none =>
    match lines.head? with
    | some "" | none => "solc failed without a message"
    | some line => trimSpace line

/-- The failure that a message of the compiler means. -/
def classify (stderr : String) : Failure :=
  let line := errorLine stderr
  let plain := String.ofList (line.toList.map anyCase)
  if scannerMessages.any (hasPart · plain) then tokenizeFailure line else parseFailure line

/-- Runs the compiler and gives what it printed. -/
def run (c : SolcFrontEnd) (compiler : Compiler) (cancelled : Bool) (arguments : List String)
    (input : ByteArray) : Except Failure String :=
  if cancelled then .error (.within "solc cancelled" .cancelled)
  else match compiler c.executable c.timeout arguments input with
    | .timedOut =>
      .error (.marked .timeout (.plain ("solc timed out after " ++ c.timeout.render)))
    | .notFound => .error (.plain ("running " ++ c.executable ++ ": exec: " ++ quoted c.executable
        ++ ": executable file not found in $PATH"))
    | .refused trouble =>
      .error (.within ("running " ++ c.executable) (.file "fork/exec" c.executable trouble))
    | .exited 0 stdout _ => .ok stdout
    | .exited _ _ stderr => .error (classify stderr)

/-! ### Trees -/

/-- The value of a member under either spelling of its key: `AST` in any case, or just `ast`. -/
structure TreeMembers where
  upper : Option Json := none
  lower : Option Json := none

/-- The trees of the sources that the compiler printed, by name; none if the output has another
shape. -/
def treesOf? : Json → Option (List (String × TreeMembers))
  | .null => some []
  | .obj members => do
    let sources := members.filter fun m => Json.sameKey "sources" m.1
    sources.foldlM (fun found m => match m.2 with
      | .null => some []
      | .obj entries => do
        let more ← entries.mapM fun (name, v) => match v with
          | .null => some (name, {})
          | .obj ms => some (name, ms.foldl (fun (t : TreeMembers) (k, v) =>
              if k == "ast" then { t with lower := some v }
              else if Json.sameKey "ast" k then { t with upper := some v } else t) {})
          | _ => none
        some (found ++ more)
      | _ => none) []
  | _ => none

/-- The tree of the source that was read from the standard input. -/
def treeOf (stdout : String) : Except Failure Json :=
  match (Json.parse? stdout).bind treesOf? with
  | none => .error (.marked .astDeserialization .unreadable)
  | some trees =>
    match (trees.reverse.lookup "<stdin>").or (trees.head?.map (·.2)) with
    | none => .error (parseFailure "solc printed no source unit")
    | some t =>
      match t.upper.or t.lower with
      | none | some .null => .error (parseFailure "solc printed no AST")
      | some v => .ok v

/-- Parses a source with the compiler. -/
def parse (c : SolcFrontEnd) (compiler : Compiler) (cancelled : Bool) (path : String)
    (content : ByteArray) : Except Failure SourceFile :=
  if cancelled then .error (.within "parse cancelled" .cancelled)
  else
    let tree : Except Failure Node := do
      let out ← c.run compiler false ["--combined-json", "ast", "--stop-after", "parsing", "-"] content
      match Node.ofJson (← treeOf out) with
      | .ok root => .ok root
      | .error e => .error (.decode e)
    match tree with
    | .ok root => .ok (.ofBytes path content (some root))
    | .error e => .error (.within path e)

/-- The version that the compiler names, or all that it says. -/
def version (c : SolcFrontEnd) (compiler : Compiler) (cancelled : Bool) : Except Failure String := do
  let out ← c.run compiler cancelled ["--version"] .empty
  let lines := (splitAtChar '\n' out.toList).map fun l => trimSpace (String.ofList l)
  match lines.find? (hasFront "Version:") with
  | some line => .ok (trimSpace (String.ofList (line.toList.drop 8)))
  | none => .ok (trimSpace out)

end SolcFrontEnd

end SolidityLint
