/-!
# Glob — patterns

A glob pattern is a text with wildcards: `*` stands for any run of characters without a slash,
`**` for any run, `?` for one character that is no slash, `[...]` for one of a list or a range of
characters (none of them after `!`), and `{a,b}` for one of several patterns.  A backslash takes
the next character as it is.  `Glob.parse?` reads a pattern; braces that are still open at the end
are closed there.
-/

namespace SolidityLint

namespace Glob

/-- A part of a pattern. -/
inductive Part where
  | text (chars : List Char)
  /-- A run of characters without a slash. -/
  | run
  /-- A run of any characters. -/
  | anything
  /-- A character that is no slash. -/
  | single
  /-- A character of a list, or none of it. -/
  | oneOf (negated : Bool) (chars : List Char)
  /-- A character of a range, or none of it. -/
  | between (negated : Bool) (low high : Char)
  | alternatives (options : List (List Part))
deriving BEq, Inhabited

/-- The characters up to the closing bracket, and the rest behind the bracket. -/
def bracketText : List Char → Option (List Char × List Char)
  | [] => none
  | ']' :: rest => some ([], rest)
  | ['\\'] => none
  | '\\' :: c :: rest => (bracketText rest).map fun (cs, rest) => (c :: cs, rest)
  | c :: rest => (bracketText rest).map fun (cs, rest) => (c :: cs, rest)

/-- Reads what stands in brackets, once the negation is read.  A range is the only thing in its
brackets. -/
def bracketBody (negated : Bool) : List Char → Option (Part × List Char)
  | low :: '-' :: high :: ']' :: rest =>
    if low ≤ high then some (.between negated low high, rest) else none
  | _ :: '-' :: _ => none
  | cs =>
    match bracketText cs with
    | some (c :: chars, rest) => some (.oneOf negated (c :: chars), rest)
    | _ => none

/-- Reads what stands behind an opening bracket. -/
def bracket : List Char → Option (Part × List Char)
  | '!' :: cs => bracketBody true cs
  | cs => bracketBody false cs

theorem length_bracketText {cs chars rest : List Char}
    (h : bracketText cs = some (chars, rest)) : rest.length < cs.length := by
  fun_induction bracketText cs generalizing chars rest with
  | case1 => simp at h
  | case2 => simp_all
  | case3 => simp at h
  | case4 c tail ih =>
    obtain ⟨⟨cs', r'⟩, hb, he⟩ := Option.map_eq_some_iff.1 h
    have := ih hb
    simp at he
    simp [← he.2]
    omega
  | case5 c tail _ _ _ ih =>
    obtain ⟨⟨cs', r'⟩, hb, he⟩ := Option.map_eq_some_iff.1 h
    have := ih hb
    simp at he
    simp [← he.2]
    omega

theorem length_bracketBody {negated : Bool} {cs rest : List Char} {part : Part}
    (h : bracketBody negated cs = some (part, rest)) : rest.length < cs.length := by
  unfold bracketBody at h
  split at h
  · split at h
    · simp at h
      simp [← h.2]
      omega
    · simp at h
  · simp at h
  · split at h
    · next hb =>
      simp at h
      exact h.2 ▸ length_bracketText hb
    · simp at h

theorem length_bracket {cs rest : List Char} {part : Part}
    (h : bracket cs = some (part, rest)) : rest.length < cs.length := by
  unfold bracket at h
  split at h
  · have := length_bracketBody h
    simp
    omega
  · exact length_bracketBody h

/-- An open brace: the options that are complete, and the parts of the one being read, both last
first. -/
structure Level where
  options : List (List Part) := []
  parts : List Part := []

/-- What is open while a pattern is read: the innermost level and those around it. -/
structure Open where
  level : Level := {}
  outer : List Level := []
  /-- Characters of a text, last first. -/
  pending : List Char := []

namespace Open

/-- Ends the text that is being read. -/
def flush (o : Open) : Open :=
  if o.pending.isEmpty then o
  else { o with
    level := { o.level with parts := .text o.pending.reverse :: o.level.parts }, pending := [] }

/-- Adds a part to the innermost level. -/
def push (o : Open) (p : Part) : Open :=
  let o := o.flush
  { o with level := { o.level with parts := p :: o.level.parts } }

/-- A brace opens. -/
def enter (o : Open) : Open :=
  let o := o.flush
  { o with level := {}, outer := o.level :: o.outer }

/-- A comma between options. -/
def comma (o : Open) : Open :=
  let o := o.flush
  { o with level := ⟨o.level.parts.reverse :: o.level.options, []⟩ }

/-- The options of a level. -/
def levelOptions (l : Level) : List (List Part) := (l.parts.reverse :: l.options).reverse

/-- A brace closes. -/
def leave (o : Open) : Open :=
  let o := o.flush
  match o.outer with
  | [] => o
  | l :: outer =>
    { o with
      level := { l with parts := .alternatives (levelOptions o.level) :: l.parts }, outer }

/-- The parts of the whole pattern, with open braces closed around what was read. -/
def close : Level → List Level → List Part
  | l, [] => l.parts.reverse
  | l, o :: outer =>
    close { o with parts := .alternatives (levelOptions l) :: o.parts } outer

end Open

/-- Reads a pattern from its characters. -/
def parseFrom (o : Open) (cs : List Char) : Option (List Part) :=
  match cs with
  | [] =>
    let o := o.flush
    some (Open.close o.level o.outer)
  | '{' :: rest => parseFrom o.enter rest
  | '[' :: rest =>
    match _h : bracket rest with
    | some (part, rest') => parseFrom (o.push part) rest'
    | none => none
  | '?' :: rest => parseFrom (o.push .single) rest
  | '*' :: '*' :: rest => parseFrom (o.push .anything) rest
  | '*' :: rest => parseFrom (o.push .run) rest
  | ['\\'] => parseFrom o []
  | '\\' :: c :: rest => parseFrom { o with pending := c :: o.pending } rest
  | c :: rest =>
    if o.outer.isEmpty then parseFrom { o with pending := c :: o.pending } rest
    else if c == ',' then parseFrom o.comma rest
    else if c == '}' then parseFrom o.leave rest
    else parseFrom { o with pending := c :: o.pending } rest
termination_by cs.length
decreasing_by
  rotate_left
  · have := length_bracket _h
    simp only [List.length_cons]
    omega
  all_goals
    simp only [List.length_cons]
    omega

/-- Reads a pattern; `none` when brackets in it are malformed, or when it holds the character that
stands for bytes that are no text. -/
def parse? (pattern : String) : Option (List Part) :=
  let cs := pattern.toList
  if cs.contains '\uFFFD' then none else parseFrom {} cs

end Glob

end SolidityLint
