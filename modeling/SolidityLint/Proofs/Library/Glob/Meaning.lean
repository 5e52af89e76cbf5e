import SolidityLint.Library.Glob.Matcher
import SolidityLint.Proofs.Text.Bytes

/-!
# Glob — what patterns mean

`Describes parts cs` says that the text `cs` is one that a pattern of these parts stands for: `*` and
`?` do not cross a slash, `**` is any text, and the parts stand one after the other.  It knows nothing
of matchers; `Glob.Faithful` says of a pattern that its matcher accepts what the pattern means.

* `describes_append`: a pattern of two halves describes texts of two halves.
* `exists_reads`: reading goes on behind a pattern from the state that it led to.
* `parse?_below`: a pattern that leaves no brace open, continued by `/**`, describes everything below
  what it describes, and what it describes then is closed under going further down.
* `faithful_text`, `faithful_front`: patterns without wildcards, and those with `**` at the end, are
  faithful.
-/

namespace SolidityLint

namespace Glob

/-! ### Meaning -/

/-- The parts of a pattern describe a text. -/
inductive Describes : List Part → List Char → Prop where
  | nil : Describes [] []
  | text {ps : List Part} {cs : List Char} (own : List Char) (h : Describes ps cs) :
      Describes (.text own :: ps) (own ++ cs)
  | run {ps : List Part} {cs own : List Char} (slash : '/' ∉ own) (h : Describes ps cs) :
      Describes (.run :: ps) (own ++ cs)
  | anything {ps : List Part} {cs : List Char} (own : List Char) (h : Describes ps cs) :
      Describes (.anything :: ps) (own ++ cs)
  | single {ps : List Part} {cs : List Char} {c : Char} (slash : c ≠ '/') (h : Describes ps cs) :
      Describes (.single :: ps) (c :: cs)
  | oneOf {ps : List Part} {cs chars : List Char} {c : Char} {negated : Bool}
      (one : (chars.contains c != negated) = true) (h : Describes ps cs) :
      Describes (.oneOf negated chars :: ps) (c :: cs)
  | between {ps : List Part} {cs : List Char} {c low high : Char} {negated : Bool}
      (one : ((low ≤ c && c ≤ high) != negated) = true) (h : Describes ps cs) :
      Describes (.between negated low high :: ps) (c :: cs)
  | alternatives {ps option : List Part} {cs own : List Char} {options : List (List Part)}
      (one : option ∈ options) (inner : Describes option own) (h : Describes ps cs) :
      Describes (.alternatives options :: ps) (own ++ cs)

/-- The halves of a pattern describe the halves of a text. -/
theorem Describes.append {ps qs : List Part} {as bs : List Char} (h : Describes ps as)
    (h' : Describes qs bs) : Describes (ps ++ qs) (as ++ bs) := by
  induction h with
  | nil => exact h'
  | text own _ ih => simpa using Describes.text own ih
  | run slash _ ih => simpa using Describes.run slash ih
  | anything own _ ih => simpa using Describes.anything own ih
  | single slash _ ih => exact .single slash ih
  | oneOf one _ ih => exact .oneOf one ih
  | between one _ ih => exact .between one ih
  | alternatives one inner _ _ ih => simpa using Describes.alternatives one inner ih

theorem exists_of_describes_append {ps qs : List Part} {cs : List Char}
    (h : Describes (ps ++ qs) cs) : ∃ as bs, cs = as ++ bs ∧ Describes ps as ∧ Describes qs bs := by
  induction ps generalizing cs with
  | nil => exact ⟨[], cs, rfl, .nil, h⟩
  | cons p ps ih =>
      cases h with
      | text own h =>
          obtain ⟨as, bs, rfl, hp, hq⟩ := ih h
          exact ⟨own ++ as, bs, by simp, .text own hp, hq⟩
      | run slash h =>
          obtain ⟨as, bs, rfl, hp, hq⟩ := ih h
          exact ⟨_ ++ as, bs, by simp, .run slash hp, hq⟩
      | anything own h =>
          obtain ⟨as, bs, rfl, hp, hq⟩ := ih h
          exact ⟨own ++ as, bs, by simp, .anything own hp, hq⟩
      | single slash h =>
          obtain ⟨as, bs, rfl, hp, hq⟩ := ih h
          exact ⟨_ :: as, bs, rfl, .single slash hp, hq⟩
      | oneOf one h =>
          obtain ⟨as, bs, rfl, hp, hq⟩ := ih h
          exact ⟨_ :: as, bs, rfl, .oneOf one hp, hq⟩
      | between one h =>
          obtain ⟨as, bs, rfl, hp, hq⟩ := ih h
          exact ⟨_ :: as, bs, rfl, .between one hp, hq⟩
      | alternatives one inner h =>
          obtain ⟨as, bs, rfl, hp, hq⟩ := ih h
          exact ⟨_ ++ as, bs, by simp, .alternatives one inner hp, hq⟩

theorem describes_append {ps qs : List Part} {cs : List Char} :
    Describes (ps ++ qs) cs ↔ ∃ as bs, cs = as ++ bs ∧ Describes ps as ∧ Describes qs bs := by
  constructor
  · exact exists_of_describes_append
  · rintro ⟨as, bs, rfl, hp, hq⟩
    exact hp.append hq

/-- The matcher of a pattern accepts the paths that the pattern describes. -/
def Faithful (pattern : String) : Prop :=
  ∀ parts g, parse? pattern = some parts → ofPattern? pattern = some g →
    ∀ path, g.accepts path = true ↔ Describes parts path.toList

/-! ### Braces -/

/-- The number of braces that are open behind the characters; none when brackets are malformed. -/
def openBraces (depth : Nat) (cs : List Char) : Option Nat :=
  match cs with
  | [] => some depth
  | '{' :: rest => openBraces (depth + 1) rest
  | '}' :: rest => openBraces (depth - 1) rest
  | '[' :: rest =>
    match _h : bracket rest with
    | some (_, rest') => openBraces depth rest'
    | none => none
  | _ :: rest => openBraces depth rest
termination_by cs.length
decreasing_by
  all_goals simp_all
  have := length_bracket _h
  omega

/-- No brace is open where the pattern ends. -/
def Closed (pattern : String) : Prop := ∀ n, openBraces 0 pattern.toList = some n → n = 0

/-! ### Reading on -/

theorem bracketText_append {cs chars rest : List Char} (h : bracketText cs = some (chars, rest))
    (more : List Char) : bracketText (cs ++ more) = some (chars, rest ++ more) := by
  fun_induction bracketText cs generalizing chars rest with
  | case1 => cases h
  | case2 rest => cases h; rfl
  | case3 => cases h
  | case4 c tail ih =>
      obtain ⟨⟨cs', r'⟩, hb, he⟩ := Option.map_eq_some_iff.mp h
      cases he
      simp [bracketText, ih hb]
  | case5 c tail close last escape ih =>
      obtain ⟨⟨cs', r'⟩, hb, he⟩ := Option.map_eq_some_iff.mp h
      cases he
      have plain : c ≠ '\\' := by
        rintro rfl
        cases tail with
        | nil => exact last rfl rfl
        | cons c tail => exact escape c tail rfl rfl
      rw [List.cons_append, bracketText.eq_5 _ _ close (by simp [plain]) (by simp [plain]), ih hb]
      rfl

theorem bracketBody_append {negated : Bool} {cs rest : List Char} {part : Part}
    (h : bracketBody negated cs = some (part, rest)) (more : List Char) :
    bracketBody negated (cs ++ more) = some (part, rest ++ more) := by
  fun_cases bracketBody negated cs with
  | case1 low high rest' ordered =>
      rw [bracketBody, if_pos ordered] at h
      cases h
      simp [bracketBody, ordered]
  | case2 low high rest' unordered =>
      rw [bracketBody, if_neg unordered] at h
      cases h
  | case3 head tail single =>
      rw [bracketBody.eq_2 _ _ _ single] at h
      cases h
  | case4 cs range dash c chars rest' text =>
      rw [bracketBody.eq_3 _ _ range dash, text] at h
      cases h
      -- Two characters at least are there, so what follows does not make a range of them.
      have dash' : ∀ head tail, cs ++ more = head :: '-' :: tail → False := by
        intro head tail same
        match cs, text, dash, same with
        | [], text, _, _ => cases text
        | [x], text, _, _ =>
            unfold bracketText at text
            split at text <;> simp_all [bracketText]
        | x :: y :: cs, _, dash, same =>
            cases same
            exact dash _ _ rfl
      rw [bracketBody.eq_3 _ _ (fun low high rest same => dash' _ _ same) dash',
        bracketText_append text]
  | case5 cs range dash text =>
      rw [bracketBody.eq_3 _ _ range dash] at h
      split at h
      · next found => exact absurd found (text _ _ _)
      · cases h

theorem bracket_append {cs rest : List Char} {part : Part} (h : bracket cs = some (part, rest))
    (more : List Char) : bracket (cs ++ more) = some (part, rest ++ more) := by
  cases cs with
  | nil => cases h
  | cons c cs =>
      by_cases negated : c = '!'
      · subst negated
        exact bracketBody_append h more
      · rw [bracket.eq_2 _ (by simp [negated])] at h
        rw [List.cons_append, bracket.eq_2 _ (by simp [negated])]
        exact bracketBody_append h more

theorem bracketText_suffix {cs chars rest : List Char} (h : bracketText cs = some (chars, rest)) :
    rest <:+ cs := by
  fun_induction bracketText cs generalizing chars rest with
  | case1 | case3 => cases h
  | case2 rest =>
      cases h
      exact List.suffix_cons _ _
  | case4 c tail ih =>
      obtain ⟨⟨cs', r'⟩, hb, he⟩ := Option.map_eq_some_iff.mp h
      cases he
      exact ((ih hb).trans (List.suffix_cons _ _)).trans (List.suffix_cons _ _)
  | case5 c tail _ _ _ ih =>
      obtain ⟨⟨cs', r'⟩, hb, he⟩ := Option.map_eq_some_iff.mp h
      cases he
      exact (ih hb).trans (List.suffix_cons _ _)

/-- What is left behind brackets stood there before. -/
theorem bracket_suffix {cs rest : List Char} {part : Part} (h : bracket cs = some (part, rest)) :
    rest <:+ cs := by
  have body {negated : Bool} {cs : List Char} (h : bracketBody negated cs = some (part, rest)) :
      rest <:+ cs := by
    unfold bracketBody at h
    split at h
    · split at h
      · cases h
        exact ⟨[_, _, _, _], rfl⟩
      · cases h
    · cases h
    · split at h
      · next text =>
          cases h
          exact bracketText_suffix text
      · cases h
  unfold bracket at h
  split at h
  · exact (body h).trans (List.suffix_cons _ _)
  · exact body h

@[simp]
theorem outer_flush (o : Open) : o.flush.outer = o.outer := by
  unfold Open.flush
  split <;> rfl

@[simp]
theorem outer_push (o : Open) (p : Part) : (o.push p).outer = o.outer := outer_flush o

theorem outer_leave (o : Open) : o.leave.outer.length = o.outer.length - 1 := by
  unfold Open.leave
  simp only [outer_flush]
  split
  · next none => simp [none]
  · next some => simp [some]

theorem openBraces_char {c : Char} (enter : c ≠ '{') (leave : c ≠ '}') (list : c ≠ '[') (depth : Nat)
    (cs : List Char) : openBraces depth (c :: cs) = openBraces depth cs := by
  rw [openBraces.eq_5 _ _ _ enter leave list]

/-- A character that means itself, outside of braces at least. -/
structure Ordinary (c : Char) : Prop where
  enter : c ≠ '{'
  list : c ≠ '['
  single : c ≠ '?'
  star : c ≠ '*'
  escape : c ≠ '\\'

instance : DecidablePred Ordinary := fun c =>
  decidable_of_iff (c ≠ '{' ∧ c ≠ '[' ∧ c ≠ '?' ∧ c ≠ '*' ∧ c ≠ '\\')
    ⟨fun ⟨enter, list, single, star, escape⟩ => ⟨enter, list, single, star, escape⟩,
      fun h => ⟨h.enter, h.list, h.single, h.star, h.escape⟩⟩

theorem parseFrom_char {c : Char} (h : Ordinary c) (o : Open) (rest : List Char) :
    parseFrom o (c :: rest) =
      if o.outer.isEmpty then parseFrom { o with pending := c :: o.pending } rest
      else if c == ',' then parseFrom o.comma rest
      else if c == '}' then parseFrom o.leave rest
      else parseFrom { o with pending := c :: o.pending } rest :=
  parseFrom.eq_9 o c rest h.enter h.list h.single (fun _ star _ => h.star star) h.star
    (fun escape _ => h.escape escape) (fun _ _ escape _ => h.escape escape)

/-- The characters of a pattern lead from one state to another. -/
structure Reads (o : Open) (cs : List Char) (o' : Open) : Prop where
  braces : openBraces o.outer.length cs = some o'.outer.length
  /-- Two stars in a row are one sign, so the text must not go on with one. -/
  further : ∀ more, more.head? ≠ some '*' → parseFrom o (cs ++ more) = parseFrom o' more

theorem Reads.nil (o : Open) : Reads o [] o := ⟨by rw [openBraces], fun _ _ => rfl⟩

/-- The first sign of a pattern leads from one state to another, with the rest still to read. -/
structure Sign (o : Open) (cs : List Char) (o₁ : Open) (rest : List Char) : Prop where
  braces : openBraces o.outer.length cs = openBraces o₁.outer.length rest
  first : ∀ more, more.head? ≠ some '*' → parseFrom o (cs ++ more) = parseFrom o₁ (rest ++ more)

theorem Reads.step {o o₁ o' : Open} {cs rest : List Char} (h : Reads o₁ rest o')
    (sign : Sign o cs o₁ rest) : Reads o cs o' :=
  ⟨sign.braces.trans h.braces, fun more stop => (sign.first more stop).trans (h.further more stop)⟩

namespace Sign

variable {o : Open} {rest : List Char}

theorem enter : Sign o ('{' :: rest) o.enter rest where
  braces := by
    rw [openBraces]
    simp [Open.enter]
  first more _ := by rw [List.cons_append, parseFrom]

theorem list {rest' : List Char} {part : Part} (found : bracket rest = some (part, rest')) :
    Sign o ('[' :: rest) (o.push part) rest' where
  braces := by
    rw [openBraces, outer_push]
    split
    · next again =>
        rw [found] at again
        cases again
        rfl
    · next none =>
        rw [found] at none
        cases none
  first more _ := by
    have found' := bracket_append found more
    rw [List.cons_append, parseFrom]
    split
    · next again =>
        rw [found'] at again
        cases again
        rfl
    · next none =>
        rw [found'] at none
        cases none

theorem single : Sign o ('?' :: rest) (o.push .single) rest where
  braces := by rw [openBraces_char (by decide) (by decide) (by decide), outer_push]
  first more _ := by rw [List.cons_append, parseFrom]

theorem anything : Sign o ('*' :: '*' :: rest) (o.push .anything) rest where
  braces := by
    rw [openBraces_char (by decide) (by decide) (by decide),
      openBraces_char (by decide) (by decide) (by decide), outer_push]
  first more _ := by rw [List.cons_append, List.cons_append, parseFrom]

/-- A star that is the last of its run. -/
theorem run (last : ∀ tail, rest = '*' :: tail → False) : Sign o ('*' :: rest) (o.push .run) rest where
  braces := by rw [openBraces_char (by decide) (by decide) (by decide), outer_push]
  first more stop := by
    have apart : ∀ tail, rest ++ more = '*' :: tail → False := by
      intro tail same
      cases rest with
      | nil => exact stop (by rw [show more = _ from same]; rfl)
      | cons c rest =>
          cases same
          exact last rest rfl
    rw [List.cons_append, parseFrom.eq_6 _ _ apart]

section Chars

variable {c : Char} (h : Ordinary c)
include h

/-- Outside of braces, a closing one means itself too. -/
theorem outside (top : o.outer.isEmpty) :
    Sign o (c :: rest) { o with pending := c :: o.pending } rest where
  braces := by
    have none : o.outer.length = 0 := by simpa using top
    by_cases close : c = '}'
    · subst close
      rw [openBraces, none]
    · exact openBraces_char h.enter close h.list _ _
  first more _ := by rw [List.cons_append, parseFrom_char h, if_pos top]

theorem comma (nested : ¬ o.outer.isEmpty) (comma : c == ',') : Sign o (c :: rest) o.comma rest where
  braces := by
    have close : c ≠ '}' := by
      rintro rfl
      cases comma
    rw [openBraces_char h.enter close h.list, Open.comma, outer_flush]
  first more _ := by rw [List.cons_append, parseFrom_char h, if_neg nested, if_pos comma]

theorem leave (nested : ¬ o.outer.isEmpty) (comma : ¬ c == ',') (close : c == '}') :
    Sign o (c :: rest) o.leave rest where
  braces := by
    obtain rfl : c = '}' := beq_iff_eq.mp close
    rw [openBraces, outer_leave]
  first more _ := by
    rw [List.cons_append, parseFrom_char h, if_neg nested, if_neg comma, if_pos close]

theorem inside (nested : ¬ o.outer.isEmpty) (comma : ¬ c == ',') (close : ¬ c == '}') :
    Sign o (c :: rest) { o with pending := c :: o.pending } rest where
  braces := openBraces_char h.enter (fun same => close (by simp [same])) h.list _ _
  first more _ := by
    rw [List.cons_append, parseFrom_char h, if_neg nested, if_neg comma, if_neg close]

end Chars

end Sign

/-- **Reading goes on** behind the characters of a pattern without escapes from the state that they
led to. -/
theorem exists_reads {o : Open} {cs : List Char} {ps : List Part} (h : parseFrom o cs = some ps)
    (plain : '\\' ∉ cs) :
    ∃ o', ps = Open.close o'.flush.level o'.flush.outer ∧ Reads o cs o' := by
  have go {o o₁ : Open} {cs rest : List Char} (sign : Sign o cs o₁ rest)
      (later : ∃ o', ps = Open.close o'.flush.level o'.flush.outer ∧ Reads o₁ rest o') :
      ∃ o', ps = Open.close o'.flush.level o'.flush.outer ∧ Reads o cs o' := by
    obtain ⟨o', parts, reads⟩ := later
    exact ⟨o', parts, reads.step sign⟩
  fun_induction parseFrom o cs with
  | case1 o =>
      cases h
      exact ⟨o, rfl, .nil o⟩
  | case2 o rest ih => exact go .enter (ih h (List.not_mem_of_not_mem_cons plain))
  | case3 o rest part rest' found ih =>
      have plain' : '\\' ∉ rest' := fun there =>
        plain (List.mem_cons_of_mem _ ((bracket_suffix found).subset there))
      exact go (.list found) (ih h plain')
  | case4 o rest none => cases h
  | case5 o rest ih => exact go .single (ih h (List.not_mem_of_not_mem_cons plain))
  | case6 o rest ih =>
      exact go .anything
        (ih h (List.not_mem_of_not_mem_cons (List.not_mem_of_not_mem_cons plain)))
  | case7 o rest last ih => exact go (.run last) (ih h (List.not_mem_of_not_mem_cons plain))
  | case8 o ih => simp at plain
  | case9 o c rest ih => simp at plain
  | case10 o c rest enter list single _ star _ _ top ih =>
      have ordinary : Ordinary c :=
        ⟨enter, list, single, star, (List.ne_of_not_mem_cons plain).symm⟩
      exact go (.outside ordinary top) (ih h (List.not_mem_of_not_mem_cons plain))
  | case11 o c rest enter list single _ star _ _ nested comma ih =>
      have ordinary : Ordinary c :=
        ⟨enter, list, single, star, (List.ne_of_not_mem_cons plain).symm⟩
      exact go (.comma ordinary nested comma) (ih h (List.not_mem_of_not_mem_cons plain))
  | case12 o c rest enter list single _ star _ _ nested comma close ih =>
      have ordinary : Ordinary c :=
        ⟨enter, list, single, star, (List.ne_of_not_mem_cons plain).symm⟩
      exact go (.leave ordinary nested comma close) (ih h (List.not_mem_of_not_mem_cons plain))
  | case13 o c rest enter list single _ star _ _ nested comma close ih =>
      have ordinary : Ordinary c :=
        ⟨enter, list, single, star, (List.ne_of_not_mem_cons plain).symm⟩
      exact go (.inside ordinary nested comma close) (ih h (List.not_mem_of_not_mem_cons plain))

/-! ### Everything below -/

theorem describes_text {cs as : List Char} : Describes [.text cs] as ↔ as = cs := by
  constructor
  · rintro (_ | ⟨_, ⟨⟩⟩)
    simp
  · rintro rfl
    simpa using Describes.text as .nil

/-- The part that a word makes, if it is not empty. -/
def wordPart (word : List Char) : List Part := if word.isEmpty then [] else [.text word]

theorem describes_wordPart {word cs : List Char} : Describes (wordPart word) cs ↔ cs = word := by
  cases word with
  | nil =>
      constructor
      · rintro ⟨⟩
        rfl
      · rintro rfl
        exact .nil
  | cons c word => exact describes_text

theorem close_flush {o : Open} (top : o.outer = []) :
    Open.close o.flush.level o.flush.outer = o.level.parts.reverse ++ wordPart o.pending.reverse := by
  rw [outer_flush, top, Open.close, Open.flush]
  split
  · next none => simp [wordPart, none]
  · next some => simp [wordPart, some]

/-- A slash and two stars behind a pattern. -/
theorem parseFrom_below {o : Open} (top : o.outer = []) :
    parseFrom o ['/', '*', '*'] =
      some (o.level.parts.reverse ++ [.text (o.pending.reverse ++ ['/']), .anything]) := by
  have ordinary : Ordinary '/' := by decide
  rw [parseFrom_char ordinary, if_pos (by simp [top]), parseFrom, parseFrom]
  simp [Open.push, Open.flush, Open.close, top]

theorem parse?_eq_some {pattern : String} {ps : List Part} :
    parse? pattern = some ps ↔ '\uFFFD' ∉ pattern.toList ∧ parseFrom {} pattern.toList = some ps := by
  simp [parse?]

/-- **Below a pattern.**  With `/**` behind it, a pattern that leaves no brace open describes all that
lies below what it describes, and what it then describes has no lower end. -/
theorem parse?_below {pattern : String} (plain : '\\' ∉ pattern.toList) (closed : Closed pattern)
    {ps : List Part} (h : parse? pattern = some ps) :
    ∃ qs, parse? (pattern ++ "/**") = some qs ∧
      (∀ as bs, Describes ps as → Describes qs (as ++ '/' :: bs)) ∧
      ∀ as bs, Describes qs as → Describes qs (as ++ bs) := by
  obtain ⟨text, h⟩ := parse?_eq_some.mp h
  obtain ⟨o, rfl, reads⟩ := exists_reads h plain
  have top : o.outer = [] := List.length_eq_zero_iff.mp (closed _ reads.braces)
  have more := (reads.further ['/', '*', '*'] (by simp)).trans (parseFrom_below top)
  refine ⟨_, parse?_eq_some.mpr ⟨by simp [text], by simpa using more⟩, ?_, ?_⟩
  · intro as bs h
    rw [close_flush top] at h
    obtain ⟨front, word, rfl, hf, hw⟩ := describes_append.mp h
    obtain rfl := describes_wordPart.mp hw
    have tail : Describes [.text (o.pending.reverse ++ ['/']), .anything]
        ((o.pending.reverse ++ ['/']) ++ (bs ++ [])) := .text _ (.anything bs .nil)
    simpa using hf.append tail
  · intro as bs h
    obtain ⟨front, tail, rfl, hf, ht⟩ := describes_append.mp h
    cases ht with
    | text _ ht =>
        cases ht with
        | anything own ht =>
            cases ht
            have longer := hf.append (.text (o.pending.reverse ++ ['/']) (.anything (own ++ bs) .nil))
            simpa using longer

/-! ### Plain patterns -/

/-- Characters that mean themselves are kept. -/
theorem parseFrom_word {cs : List Char} (plain : ∀ c ∈ cs, Ordinary c) {o : Open} (top : o.outer = [])
    (more : List Char) :
    parseFrom o (cs ++ more) = parseFrom { o with pending := cs.reverse ++ o.pending } more := by
  induction cs generalizing o with
  | nil => rfl
  | cons c cs ih =>
      obtain ⟨first, others⟩ := List.forall_mem_cons.mp plain
      rw [List.cons_append, parseFrom_char first, if_pos (by simp [top]), ih others (by exact top)]
      simp

/-- **A word** means itself, and with `/**` behind it all that lies below. -/
theorem parse?_word {word : String} (plain : ∀ c ∈ word.toList, Ordinary c) (solid : word ≠ "")
    (text : '\uFFFD' ∉ word.toList) :
    parse? word = some [.text word.toList] ∧
      parse? (word ++ "/**") = some [.text (word.toList ++ ['/']), .anything] := by
  have some : word.toList ≠ [] := by simpa using solid
  have read (more : List Char) := parseFrom_word (o := {}) plain rfl more
  constructor
  · refine parse?_eq_some.mpr ⟨text, ?_⟩
    have whole := read []
    rw [List.append_nil, parseFrom, close_flush rfl] at whole
    simpa [wordPart, some] using whole
  · refine parse?_eq_some.mpr ⟨by simp [text], ?_⟩
    have whole := (read ['/', '*', '*']).trans (parseFrom_below rfl)
    simpa using whole

/-- The front of bytes is the front of characters. -/
theorem encode_prefix {cs : List Char} {path : String} :
    (Utf8.encode (String.ofList cs)).toList <+: (Utf8.encode path).toList ↔ cs <+: path.toList := by
  rw [toList_bytes, toList_bytes, Utf8.encode, Utf8.encode]
  constructor
  · rintro ⟨rest, h⟩
    refine List.isPrefix_of_utf8Encode_append_eq_utf8Encode ⟨⟨rest⟩⟩ ?_
    rw [String.utf8Encode_toList]
    apply ByteArray.ext
    rw [← Array.toList_inj]
    simpa using h
  · rintro ⟨rest, h⟩
    have text : path = String.ofList cs ++ String.ofList rest := by
      rw [← String.toList_inj]
      simpa using h.symm
    rw [text]
    simp

theorem describes_front {cs as : List Char} : Describes [.text cs, .anything] as ↔ cs <+: as := by
  constructor
  · rintro (_ | ⟨_, (_ | _ | _ | ⟨own, _⟩)⟩)
    exact List.prefix_append _ _
  · rintro ⟨rest, rfl⟩
    simpa using Describes.text cs (.anything rest .nil)

theorem faithful_of_compile {pattern : String} {parts : List Part} (h : parse? pattern = some parts)
    (same : ∀ path : String, (compile (2 * pattern.length + 2) parts).accepts (Utf8.encode path).toList
      = true ↔ Describes parts path.toList) : Faithful pattern := by
  intro parts' g read compiled path
  rw [h] at read
  cases read
  rw [ofPattern?, h] at compiled
  cases compiled
  exact same path

/-- A pattern without wildcards is faithful. -/
theorem faithful_text {pattern : String} {cs : List Char} (h : parse? pattern = some [.text cs]) :
    Faithful pattern := by
  refine faithful_of_compile h fun path => ?_
  have compiled : compile (2 * pattern.length + 2) [.text cs] =
      .text (Utf8.encode (String.ofList cs)).toList := rfl
  rw [compiled, describes_text, Matcher.accepts, beq_iff_eq]
  constructor
  · intro same
    rw [toList_bytes, toList_bytes, Array.toList_inj] at same
    rw [← String.toByteArray_inj.mp (ByteArray.ext same), String.toList_ofList]
  · rintro rfl
    rw [String.ofList_toList]

/-- So is one with `**` at its end only. -/
theorem faithful_front {pattern : String} {cs : List Char}
    (h : parse? pattern = some [.text cs, .anything]) : Faithful pattern := by
  refine faithful_of_compile h fun path => ?_
  have compiled : compile (2 * pattern.length + 2) [.text cs, .anything] =
      .front (Utf8.encode (String.ofList cs)).toList := rfl
  rw [compiled, describes_front, Matcher.accepts, List.isPrefixOf_iff_prefix]
  exact encode_prefix

end Glob

end SolidityLint
