import SolidityLint.Library.Markdown.Line

/-!
# Markdown — tags

Tags, comments and other markup between angle brackets, as it may stand in a text.  Each function
gives what is left behind the markup.
-/

namespace SolidityLint

namespace Markdown

/-- The name of a tag and what is left behind it. -/
def tagName? : List Char → Option (List Char × List Char)
  | [] => none
  | c :: cs =>
    if c.isAlpha then
      some (c :: cs.takeWhile (fun d => d.isAlphanum || d == '-'),
        cs.dropWhile fun d => d.isAlphanum || d == '-')
    else none

/-- White space between the parts of a tag. -/
def isTagSpace (c : Char) : Bool := c == ' ' || c == '\t' || c == '\n' || c == '\r'

/-- What is behind a text between quotes, behind the first of them. -/
def pastQuote? (quote : Char) (cs : List Char) : Option (List Char) :=
  match cs.dropWhile (· != quote) with
  | [] => none
  | _ :: rest => some rest

/-- What is behind the value of a setting. -/
def pastValue? : List Char → Option (List Char)
  | '"' :: cs => pastQuote? '"' cs
  | '\'' :: cs => pastQuote? '\'' cs
  | cs =>
    let plain (c : Char) : Bool :=
      0x20 < c.toNat && !(['"', '\'', '=', '<', '>', '\x60'].contains c)
    if (cs.head?.map plain).getD false then some (cs.dropWhile plain) else none

/-- What is behind a setting in a tag, with the blanks before it. -/
def pastSetting? (cs : List Char) : Option (List Char) :=
  match cs.takeWhile isTagSpace, cs.dropWhile isTagSpace with
  | _ :: _, c :: rest =>
    if c.isAlpha || c == '_' || c == ':' then
      let rest := rest.dropWhile fun d => d.isAlphanum || [':', '.', '_', '-'].contains d
      match rest.dropWhile isTagSpace with
      | '=' :: value => some ((pastValue? (value.dropWhile isTagSpace)).getD rest)
      | _ => some rest
    else none
  | _, _ => none

/-- What is behind all settings of a tag; `most` bounds their number. -/
def pastSettings : Nat → List Char → List Char
  | 0, cs => cs
  | most + 1, cs =>
    match pastSetting? cs with
    | some rest => pastSettings most rest
    | none => cs

/-- What is behind the end of a tag. -/
def pastTagEnd? : List Char → Option (List Char)
  | '/' :: '>' :: cs => some cs
  | '>' :: cs => some cs
  | _ => none

/-- What is behind the first `mark`. -/
def past? (mark : String) : List Char → Option (List Char)
  | [] => none
  | c :: cs =>
    if mark.toList.isPrefixOf (c :: cs) then some ((c :: cs).drop mark.length) else past? mark cs

/-- What is behind markup, given what follows its opening bracket. -/
def pastMarkup? (cs : List Char) : Option (List Char) :=
  match cs with
  | '/' :: cs => do
    let (_, rest) ← tagName? cs
    match rest.dropWhile isTagSpace with
    | '>' :: rest => some rest
    | _ => none
  | '?' :: cs => past? "?>" cs
  | '!' :: '-' :: '-' :: '>' :: cs => some cs
  | '!' :: '-' :: '-' :: '-' :: '>' :: cs => some cs
  | '!' :: '-' :: '-' :: cs => past? "-->" cs
  | '!' :: '[' :: cs => if "CDATA[".toList.isPrefixOf cs then past? "]]>" cs else none
  | '!' :: c :: cs => if c.isUpper then past? ">" cs else none
  | cs => do
    let (_, rest) ← tagName? cs
    pastTagEnd? ((pastSettings rest.length rest).dropWhile isTagSpace)

/-! ### Blocks of markup -/

/-- Where a block of markup ends: at a line with one of some marks, or before a blank line. -/
structure MarkupEnd where
  marks : List String

/-- Is the line the last one of the block? -/
def MarkupEnd.isIn (e : MarkupEnd) (cs : List Char) : Bool :=
  let lower := cs.map Char.toLower
  e.marks.any fun mark => hasInfix mark.toList lower

/-- The tags that start a block wherever they stand. -/
def blockTags : List String :=
  words "address article aside base basefont blockquote body caption center col colgroup dd details
    dialog dir div dl dt fieldset figcaption figure footer form frame frameset h1 h2 h3 h4 h5 h6 head
    header hr html iframe legend li link main menu menuitem meta nav noframes ol optgroup option p
    param search section source summary table tbody td tfoot th thead title tr track ul".toList

/-- The tags whose content is not a text. -/
def rawTags : List String := ["script", "pre", "style", "textarea"]

/-- Does the rest of a tag follow? -/
def followsTagName (space : Char → Bool) (cs : List Char) : Bool :=
  match cs with
  | [] => true
  | c :: rest => space c || c == '>' || (c == '/' && rest.head? == some '>')

/-- The block of markup that starts at an opening bracket, if any, given what follows the bracket on
its line. -/
def markupBlock? (interrupting : Bool) (cs : List Char) : Option MarkupEnd :=
  let named := tagName? cs
  let isRaw (name : List Char) : Bool := rawTags.contains (String.ofList (name.map Char.toLower))
  if (named.map fun (name, rest) => isRaw name && followsTagName isBlankChar rest).getD false then
    some ⟨rawTags.map fun t => "</" ++ t ++ ">"⟩
  else if "!--".toList.isPrefixOf cs then some ⟨["-->"]⟩
  else if cs.head? == some '?' then some ⟨["?>"]⟩
  else if "![CDATA[".toList.isPrefixOf cs then some ⟨["]]>"]⟩
  else if cs.head? == some '!' && (cs[1]?.map Char.isUpper).getD false then some ⟨[">"]⟩
  else
    let closing := cs.head? == some '/'
    match tagName? (if closing then (cs.drop 1).dropWhile (· == ' ') else cs) with
    | none => none
    | some (name, rest) =>
      let tag := String.ofList (name.map Char.toLower)
      let settled := pastSettings rest.length rest
      let complete := ((pastTagEnd? (settled.dropWhile (· == ' '))).map fun r =>
        r.all fun c => c == ' ' || c == '\r').getD false
      if blockTags.contains tag then
        if complete || followsTagName (fun c => c == ' ' || c == '\r') rest then some ⟨[]⟩ else none
      else if complete && !(["script", "style", "pre"].contains tag) && !interrupting
          && !(closing && settled.length < rest.length) then some ⟨[]⟩
      else none

end Markdown

end SolidityLint
