import SolidityLint.Lint.Diagnostic
import SolidityLint.Text.Space
import SolidityLint.Text.Utf8

/-!
# Lint — suppression comments

A comment can silence findings: on its own line, on the next one, or from its line on until a
comment turns them on again.  Rule ids after the keyword limit it to those rules.  A line has at
most one such comment, the first.
-/

namespace SolidityLint

/-- What a suppression comment does. -/
inductive DirectiveKind where
  | disableNextLine
  | disableLine
  | disable
  | enable
deriving DecidableEq, Repr

namespace DirectiveKind

/-- The keyword. -/
def keyword : DirectiveKind → String
  | disableNextLine => "solidhunter-disable-next-line"
  | disableLine => "solidhunter-disable-line"
  | disable => "solidhunter-disable"
  | enable => "solidhunter-enable"

/-- All kinds, in the order in which their keywords are tried. -/
def all : List DirectiveKind := [disableNextLine, disableLine, disable, enable]

end DirectiveKind

/-- A suppression comment. -/
structure Directive where
  kind : DirectiveKind
  /-- Its line, counted from one. -/
  line : Nat
  /-- The rules it names; none stands for all. -/
  ruleIds : List String
deriving DecidableEq, Repr

namespace Directive

/-- Blanks between the start of a comment and the keyword. -/
def isGap (c : Char) : Bool := c == ' ' || c == '\t' || c == '\n' || c == '\x0c' || c == '\r'

/-- The kind whose keyword stands at the front and ends there as a word, and what follows. -/
def keywordAt? (cs : List Char) : Option (DirectiveKind × List Char) :=
  DirectiveKind.all.findSome? fun kind =>
    let word := kind.keyword.toList
    if word.isPrefixOf cs then
      let rest := cs.drop word.length
      if rest.head?.any isWordChar then none else some (kind, rest)
    else none

/-- The first comment of a line that is a suppression comment: its kind and what follows. -/
def find? : List Char → Option (DirectiveKind × List Char)
  | [] => none
  | '/' :: c :: cs =>
    let here := if c == '/' || c == '*' then keywordAt? (cs.dropWhile isGap) else none
    here.or (find? (c :: cs))
  | _ :: cs => find? cs

/-- The rule ids after a keyword, up to the end of the comment. -/
def idsOf (rest : List Char) : List String := words (cutBefore ['*', '/'] rest)

/-- The suppression comments of lines that are numbered from `n`. -/
def ofLines : Nat → List (List Char) → List Directive
  | _, [] => []
  | n, line :: lines =>
    match find? line with
    | some (kind, rest) => { kind, line := n, ruleIds := idsOf rest } :: ofLines (n + 1) lines
    | none => ofLines (n + 1) lines

/-- Does the comment speak of the rule? -/
def appliesTo (d : Directive) (ruleId : String) : Bool :=
  d.ruleIds.isEmpty || d.ruleIds.contains ruleId

end Directive

/-- The suppression comments of a text, by line. -/
def directivesOf (text : String) : List Directive :=
  Directive.ofLines 1 (splitAtChar '\n' text.toList)

/-- Are findings of the rule on the line silenced?  Comments for one line decide at once; of the
others up to the line, the last that speaks of the rule counts. -/
def suppressed (ds : List Directive) (ruleId : String) (line : Int) : Bool :=
  go ds false
where
  go : List Directive → Bool → Bool
    | [], off => off
    | d :: ds, off =>
      if !d.appliesTo ruleId then go ds off
      else match d.kind with
        | .disableLine => if (d.line : Int) = line then true else go ds off
        | .disableNextLine => if (d.line : Int) + 1 = line then true else go ds off
        | .disable => go ds (if (d.line : Int) ≤ line then true else off)
        | .enable => go ds (if (d.line : Int) ≤ line then false else off)

/-- The findings that are not silenced. -/
def unsuppressed (ds : List Directive) (found : List Diagnostic) : List Diagnostic :=
  found.filter fun d => !suppressed ds d.ruleId d.range.start.line.toInt

end SolidityLint
