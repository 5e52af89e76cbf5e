import SolidityLint.Lint.Rule
import SolidityLint.Text.Utf8

/-!
# Docs — pages in Markdown

A page describes one rule; the index lists the rules by category, each with the first sentence of
its description.
-/

namespace SolidityLint

namespace Docs

/-- Each occurrence of a character replaced by a text. -/
def replaceChar (c : Char) (by_ : String) (s : String) : String :=
  String.ofList (s.toList.flatMap fun d => if d == c then by_.toList else [d])

/-- A text that fits into a cell of a table. -/
def cell (s : String) : String := replaceChar '\n' " " (replaceChar '|' "\\|" s)

/-- Without line breaks at the end. -/
def dropLineBreaks (s : String) : String :=
  String.ofList (s.toList.reverse.dropWhile (· == '\n')).reverse

/-- The mark that fences are made of. -/
def fenceMark : Char := '\x60'

/-- A fence that does not stand in a code: it gets one more mark as long as it does. -/
def outgrow (code fence : List Char) : List Char :=
  if _stands : hasInfix fence code then outgrow code (fence ++ [fenceMark]) else fence
termination_by code.length + 1 - fence.length
decreasing_by
  have := (hasInfix_iff.mp _stands).length_le
  rw [List.length_append, List.length_singleton]
  omega

/-- Code in a fence of three marks, or of more if so many stand in the code. -/
def fenced (language code : String) : String :=
  let fence := String.ofList (outgrow code.toList (List.replicate 3 fenceMark))
  fence ++ language ++ "\n" ++ dropLineBreaks code ++ "\n" ++ fence ++ "\n\n"

/-- A section of examples. -/
def examples (title : String) (es : List ExampleDoc) : String :=
  if es.isEmpty then ""
  else "## " ++ title ++ "\n\n" ++ String.join (es.map fun e =>
    (if e.description == "" then "" else e.description ++ "\n\n") ++ fenced "solidity" e.code)

/-- The section of options. -/
def options (os : List OptionDoc) : String :=
  if os.isEmpty then ""
  else "## Options\n\n| Description | Default |\n| --- | --- |\n" ++ String.join (os.map fun o =>
    "| " ++ cell o.description ++ " | \x60" ++ cell o.default ++ "\x60 |\n") ++ "\n"

/-- The section of links. -/
def references (d : Documentation) : String :=
  let links := [("Source", d.sourceLink), ("Tests", d.testLink)].filter (·.2 != "")
  if links.isEmpty then ""
  else "## References\n\n" ++ String.join (links.map fun (name, target) =>
    "- [" ++ name ++ "](" ++ target ++ ")\n") ++ "\n"

/-- The page of a rule. -/
def page (d : Documentation) : String :=
  dropLineBreaks ("# " ++ d.id ++ "\n\n| Category | Default severity |\n| --- | --- |\n| "
    ++ cell d.category ++ " | " ++ d.severity.name ++ " |\n\n"
    ++ (if d.description == "" then "" else d.description ++ "\n\n")
    ++ options d.options
    ++ (if d.exampleConfig == "" then "" else "## Configuration\n\n" ++ fenced "json" d.exampleConfig)
    ++ examples "Good" d.good ++ examples "Bad" d.bad ++ references d) ++ "\n"

/-- The first sentence of a text, or its first line. -/
def firstSentence (s : String) : String :=
  let cs := (trimSpace s).toList
  let sentence := cutBefore ". ".toList cs
  if sentence.length < cs.length then String.ofList (sentence ++ ['.'])
  else String.ofList (cs.takeWhile (· != '\n'))

/-- The title of a category: its words, the first letter a capital.  A first letter that takes
several bytes is not known as one and stands for an unknown character and the bytes after its
first. -/
def categoryTitle (category : String) : ByteArray :=
  match (replaceChar '-' " " category).toList with
  | [] => Utf8.encode "Other"
  | c :: cs =>
    let rest := Utf8.encode (String.ofList cs)
    if c.toNat < 0x80 then Utf8.encode (String.singleton c.toUpper) ++ rest
    else
      let bytes := Utf8.encode (String.singleton c)
      Utf8.encode "\uFFFD" ++ bytes.extract 1 bytes.size ++ rest

/-- The rules of a category in the index. -/
def indexSection (link : Documentation → String) (category : String) (ds : List Documentation) :
    ByteArray :=
  let row (d : Documentation) : String :=
    "| [" ++ d.id ++ "](" ++ link d ++ ") | " ++ d.severity.name ++ " | "
      ++ cell (firstSentence d.description) ++ " |"
  Utf8.encode "\n## " ++ categoryTitle category
    ++ Utf8.encode ("\n\n| Rule | Severity | Description |\n| --- | --- | --- |\n"
      ++ String.intercalate "\n" (ds.map row) ++ "\n")

/-- The categories of rules, in order. -/
def categoriesOf (ds : List Documentation) : List String :=
  (lastOfRun (sortByKey (ds.map fun d => (d.category, ())))).map (·.1)

/-- The list of the rules by category; `link` is the page of a rule. -/
def index (ds : List Documentation) (link : Documentation → String) : ByteArray :=
  (categoriesOf ds).foldl (fun out category =>
    let own := ds.filter (·.category == category)
    out ++ indexSection link category ((sortByKey (own.map fun d => (d.id, d))).map (·.2)))
    (Utf8.encode "# Rules\n")

end Docs

end SolidityLint
