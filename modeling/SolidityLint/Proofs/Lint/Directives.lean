import SolidityLint.Lint.Directive
import SolidityLint.Proofs.Text.Parts

/-!
# Lint — which comments silence findings

A *mention* is a place of a line where a comment marker, blanks and one of the four keywords stand,
with no letter, digit or underscore behind the keyword.  It *leads* its line when no other starts in
front of it and no longer keyword stands where its own does.

* `find?_eq_some`, `find?_eq_none`: what is read off a line is its leading mention.
* `mem_directivesOf`: the suppression comments of a text are what the leading mentions make.
* `Mention.Whole`: nothing is written on behind the keyword, not even with a hyphen.
* `Mention.Makes.isWritten_iff`: when a suppression comment says what is written in the comment.

The comment itself (`Mention.comment`) goes on to the end of the line or, opened by a star, to the
next `*/` of the text, on whatever line.
-/

namespace SolidityLint

namespace Directive

/-! ### Mentions -/

/-- A place of a line that can be read as a suppression comment. -/
@[ext]
structure Mention where
  before : List Char
  marker : Char
  gap : List Char
  kind : DirectiveKind
  rest : List Char
  opens : marker = '/' ∨ marker = '*'
  blank : ∀ c ∈ gap, isGap c
  bounded : rest.head?.any isWordChar = false

namespace Mention

/-- What stands behind the marker, up to the end of the line. -/
def after (m : Mention) : List Char := m.gap ++ (m.kind.keyword.toList ++ m.rest)

/-- The line. -/
def line (m : Mention) : List Char := m.before ++ '/' :: m.marker :: m.after

/-- Nothing in the line is read in its place. -/
structure Leads (m : Mention) : Prop where
  first : ∀ m' : Mention, m'.line = m.line → m.before.length ≤ m'.before.length
  longest : ∀ m' : Mention, m'.line = m.line → m'.before = m.before →
    m'.kind.keyword.length ≤ m.kind.keyword.length

/-- The keyword is the whole of what is written there: no hyphen follows. -/
def Whole (m : Mention) : Prop := m.rest.head? ≠ some '-'

/-- The mention with a character more in front. -/
def later (c : Char) (m : Mention) : Mention := { m with before := c :: m.before }

theorem line_later (c : Char) (m : Mention) : (m.later c).line = c :: m.line := rfl

/-- A mention stands at the front of its line or is one of the line without its first character. -/
theorem front_or_later (m : Mention) :
    m.before = [] ∨ ∃ (c : Char) (m' : Mention), m = m'.later c := by
  obtain ⟨before, marker, gap, kind, rest, opens, blank, bounded⟩ := m
  cases before with
  | nil => exact .inl rfl
  | cons c before => exact .inr ⟨c, ⟨before, marker, gap, kind, rest, opens, blank, bounded⟩, rfl⟩

end Mention

/-! ### Keywords -/

/-- The keyword of one kind, read at the front. -/
def readKeyword (kind : DirectiveKind) (cs : List Char) : Option (DirectiveKind × List Char) :=
  if kind.keyword.toList.isPrefixOf cs then
    if (cs.drop kind.keyword.toList.length).head?.any isWordChar then none
    else some (kind, cs.drop kind.keyword.toList.length)
  else none

theorem keywordAt?_eq (cs : List Char) :
    keywordAt? cs = DirectiveKind.all.findSome? fun kind => readKeyword kind cs := rfl

theorem readKeyword_eq_some {kind k : DirectiveKind} {cs rest : List Char} :
    readKeyword kind cs = some (k, rest) ↔
      k = kind ∧ cs = kind.keyword.toList ++ rest ∧ rest.head?.any isWordChar = false := by
  rw [readKeyword]
  constructor
  · intro h
    split at h
    · rename_i front
      obtain ⟨behind, rfl⟩ := List.isPrefixOf_iff_prefix.mp front
      rw [List.drop_left] at h
      split at h
      · cases h
      · rename_i bounded
        obtain ⟨rfl, rfl⟩ := Prod.mk.inj (Option.some.inj h)
        exact ⟨rfl, rfl, Bool.eq_false_iff.mpr bounded⟩
    · cases h
  · rintro ⟨rfl, rfl, bounded⟩
    rw [if_pos (List.isPrefixOf_iff_prefix.mpr (List.prefix_append _ _)), List.drop_left]
    exact if_neg (by simp [bounded])

theorem keyword_eq_cons (kind : DirectiveKind) : ∃ tail, kind.keyword.toList = 's' :: tail := by
  cases kind <;> exact ⟨_, rfl⟩

theorem mem_all (kind : DirectiveKind) : kind ∈ DirectiveKind.all := by cases kind <;> decide

/-- The longer keywords are tried first. -/
theorem pairwise_all :
    DirectiveKind.all.Pairwise fun a b => b.keyword.length ≤ a.keyword.length := by decide

theorem keywordAt?_eq_some {cs rest : List Char} {kind : DirectiveKind}
    (h : keywordAt? cs = some (kind, rest)) :
    cs = kind.keyword.toList ++ rest ∧ rest.head?.any isWordChar = false ∧
      ∀ (other : DirectiveKind) (rest' : List Char), cs = other.keyword.toList ++ rest' →
        rest'.head?.any isWordChar = false → other.keyword.length ≤ kind.keyword.length := by
  rw [keywordAt?_eq, List.findSome?_eq_some_iff] at h
  obtain ⟨tried, k, left, split, read, refused⟩ := h
  obtain ⟨rfl, spells, bounded⟩ := readKeyword_eq_some.mp read
  refine ⟨spells, bounded, fun other rest' spells' bounded' => ?_⟩
  have sorted := pairwise_all
  rw [split, List.pairwise_append] at sorted
  have listed := mem_all other
  rw [split, List.mem_append, List.mem_cons] at listed
  -- Another that fits was tried before and refused, is this one, or comes later and is no longer.
  obtain before | rfl | behind := listed
  · have read' := readKeyword_eq_some.mpr ⟨rfl, spells', bounded'⟩
    rw [refused other before] at read'
    cases read'
  · exact Nat.le_refl _
  · exact (List.pairwise_cons.mp sorted.2.1).1 other behind

theorem keywordAt?_eq_none {cs rest : List Char} {kind : DirectiveKind}
    (h : keywordAt? cs = none) (spells : cs = kind.keyword.toList ++ rest) :
    rest.head?.any isWordChar = true := by
  rw [keywordAt?_eq, List.findSome?_eq_none_iff] at h
  cases bounded : rest.head?.any isWordChar with
  | true => rfl
  | false =>
      have read := readKeyword_eq_some.mpr ⟨rfl, spells, bounded⟩
      rw [h kind (mem_all kind)] at read
      cases read

/-! ### The leading mention -/

/-- The keyword is the first that is not blank. -/
theorem Mention.dropWhile_gap (m : Mention) (cs : List Char) :
    (m.gap ++ (m.kind.keyword.toList ++ cs)).dropWhile isGap = m.kind.keyword.toList ++ cs := by
  obtain ⟨tail, spells⟩ := keyword_eq_cons m.kind
  rw [List.dropWhile_append_of_pos m.blank, spells, List.cons_append,
    List.dropWhile_cons_of_neg (by decide)]

theorem Mention.dropWhile_after (m : Mention) :
    m.after.dropWhile isGap = m.kind.keyword.toList ++ m.rest := m.dropWhile_gap m.rest

/-- A suppression comment that starts at the front. -/
def openAt? : List Char → Option (DirectiveKind × List Char)
  | '/' :: c :: cs =>
    if c == '/' || c == '*' then keywordAt? (cs.dropWhile isGap) else none
  | _ => none

theorem find?_cons (c : Char) (cs : List Char) :
    find? (c :: cs) = (openAt? (c :: cs)).or (find? cs) := by
  rw [find?.eq_def]
  split
  · rename_i same
    cases same
  · rename_i same
    cases same
    rfl
  · rename_i other same
    cases same
    rw [openAt?.eq_2 _ (fun d ds same => other d ds (List.cons.inj same).1 (List.cons.inj same).2)]
    rfl

theorem openAt?_eq_some {cs rest : List Char} {kind : DirectiveKind}
    (h : openAt? cs = some (kind, rest)) :
    ∃ m : Mention, m.before = [] ∧ m.line = cs ∧ m.kind = kind ∧ m.rest = rest ∧
      ∀ m' : Mention, m'.before = [] → m'.line = cs →
        m'.kind.keyword.length ≤ kind.keyword.length := by
  rw [openAt?.eq_def] at h
  split at h
  · rename_i marker behind
    split at h
    · rename_i opens
      obtain ⟨spells, bounded, longest⟩ := keywordAt?_eq_some h
      refine ⟨⟨[], marker, behind.takeWhile isGap, kind, rest, by simpa using opens,
        fun c hc => List.all_eq_true.mp List.all_takeWhile c hc, bounded⟩, rfl, ?_, rfl, rfl, ?_⟩
      · rw [Mention.line, Mention.after, ← spells, List.takeWhile_append_dropWhile]
        rfl
      · intro m' front same
        rw [Mention.line, front, List.nil_append, List.cons.injEq, List.cons.injEq] at same
        exact longest _ _ (by rw [← same.2.2, m'.dropWhile_after]) m'.bounded
    · cases h
  · cases h

theorem openAt?_eq_none {cs : List Char} (h : openAt? cs = none) (m : Mention)
    (front : m.before = []) : m.line ≠ cs := by
  rintro rfl
  rw [Mention.line, front, List.nil_append, openAt?, if_pos (by simpa using m.opens)] at h
  have goesOn := keywordAt?_eq_none h m.dropWhile_after
  rw [m.bounded] at goesOn
  cases goesOn

theorem find?_eq_none {cs : List Char} (h : find? cs = none) (m : Mention) : m.line ≠ cs := by
  induction cs generalizing m with
  | nil => simp [Mention.line]
  | cons c cs ih =>
      rw [find?_cons, Option.or_eq_none_iff] at h
      obtain front | ⟨b, m', rfl⟩ := m.front_or_later
      · exact openAt?_eq_none h.1 m front
      · rw [Mention.line_later]
        exact fun same => ih h.2 m' (List.cons.inj same).2

theorem find?_eq_some {cs rest : List Char} {kind : DirectiveKind}
    (h : find? cs = some (kind, rest)) :
    ∃ m : Mention, m.line = cs ∧ m.Leads ∧ m.kind = kind ∧ m.rest = rest := by
  induction cs with
  | nil => cases h
  | cons c cs ih =>
      rw [find?_cons, Option.or_eq_some_iff] at h
      -- What leads the rest of the line leads the line if no mention stands at its front.
      obtain here | ⟨nothing, behind⟩ := h
      · obtain ⟨m, front, same, rfl, rfl, longest⟩ := openAt?_eq_some here
        refine ⟨m, same, ⟨fun m' _ => by simp [front], fun m' same' front' => ?_⟩, rfl, rfl⟩
        exact longest m' (front'.trans front) (same'.trans same)
      · obtain ⟨m, rfl, leads, rfl, rfl⟩ := ih behind
        refine ⟨m.later c, rfl, ⟨fun m' same => ?_, fun m' same place => ?_⟩, rfl, rfl⟩
        all_goals
          obtain front | ⟨b, m', rfl⟩ := m'.front_or_later
          · exact absurd same (openAt?_eq_none nothing m' front)
        · exact Nat.succ_le_succ (leads.first m' (List.cons.inj same).2)
        · exact leads.longest m' (List.cons.inj same).2 (List.cons.inj place).2

theorem Mention.takeWhile_after (m : Mention) : m.after.takeWhile isGap = m.gap := by
  have split := List.takeWhile_append_dropWhile (p := isGap) (l := m.after)
  rw [m.dropWhile_after, after] at split
  exact List.append_cancel_right split

theorem Mention.eq_of_before {m m' : Mention} (same : m.line = m'.line)
    (place : m.before = m'.before) :
    m.marker = m'.marker ∧ m.gap = m'.gap ∧
      m.kind.keyword.toList ++ m.rest = m'.kind.keyword.toList ++ m'.rest := by
  rw [line, line, place, List.append_cancel_left_eq, List.cons.injEq, List.cons.injEq] at same
  exact ⟨same.2.1, by rw [← m.takeWhile_after, same.2.2, m'.takeWhile_after],
    by rw [← m.dropWhile_after, same.2.2, m'.dropWhile_after]⟩

theorem keyword_injective {kind kind' : DirectiveKind}
    (h : kind.keyword.toList = kind'.keyword.toList) : kind = kind' := by
  have apart : ∀ k ∈ DirectiveKind.all, ∀ k' ∈ DirectiveKind.all,
      k.keyword = k'.keyword → k = k' := by decide
  exact apart kind (mem_all kind) kind' (mem_all kind') (String.toList_inj.mp h)

/-- A line has no two leading mentions. -/
theorem Mention.Leads.unique {m m' : Mention} (leads : m.Leads) (leads' : m'.Leads)
    (same : m.line = m'.line) : m = m' := by
  have place : m.before = m'.before :=
    (List.append_inj same
      (Nat.le_antisymm (leads.first m' same.symm) (leads'.first m same))).1
  obtain ⟨marker, gap, spells⟩ := Mention.eq_of_before same place
  have length := Nat.le_antisymm (leads'.longest m same place)
    (leads.longest m' same.symm place.symm)
  rw [← String.length_toList, ← String.length_toList] at length
  obtain ⟨keyword, rest⟩ := List.append_inj spells length
  exact Mention.ext place marker gap (keyword_injective keyword) rest

/-- What is read off a line is its leading mention. -/
theorem find?_eq_some_iff {line rest : List Char} {kind : DirectiveKind} :
    find? line = some (kind, rest) ↔
      ∃ m : Mention, m.line = line ∧ m.Leads ∧ m.kind = kind ∧ m.rest = rest := by
  refine ⟨find?_eq_some, ?_⟩
  rintro ⟨m, rfl, leads, rfl, rfl⟩
  cases found : find? m.line with
  | none => exact absurd rfl (find?_eq_none found m)
  | some read =>
      obtain ⟨kind, rest⟩ := read
      obtain ⟨m', same, leads', rfl, rfl⟩ := find?_eq_some found
      rw [leads.unique leads' same.symm]

/-! ### The suppression comments of a text -/

/-- The line says what the suppression comment says. -/
def ReadOff (d : Directive) (line : List Char) : Prop :=
  ∃ rest, find? line = some (d.kind, rest) ∧ d.ruleIds = idsOf rest

theorem mem_ofLines_cons {d : Directive} {n : Nat} {line : List Char} {lines : List (List Char)} :
    d ∈ ofLines n (line :: lines) ↔ d.line = n ∧ d.ReadOff line ∨ d ∈ ofLines (n + 1) lines := by
  obtain ⟨kind, k, ruleIds⟩ := d
  rw [ofLines, ReadOff]
  cases found : find? line with
  | none => simp
  | some read =>
      obtain ⟨kind', rest⟩ := read
      simp only [List.mem_cons, Directive.mk.injEq, Option.some.injEq, Prod.mk.injEq]
      refine or_congr_left ⟨?_, ?_⟩
      · rintro ⟨rfl, rfl, rfl⟩
        exact ⟨rfl, rest, ⟨rfl, rfl⟩, rfl⟩
      · rintro ⟨rfl, _, ⟨rfl, rfl⟩, rfl⟩
        exact ⟨rfl, rfl, rfl⟩

theorem mem_ofLines {d : Directive} {n : Nat} {lines : List (List Char)} :
    d ∈ ofLines n lines ↔ ∃ i line, lines[i]? = some line ∧ d.line = n + i ∧ d.ReadOff line := by
  induction lines generalizing n with
  | nil => simp [ofLines]
  | cons line lines ih =>
      rw [mem_ofLines_cons, ih]
      constructor
      · rintro (⟨rfl, here⟩ | ⟨i, line', found, place, here⟩)
        · exact ⟨0, line, rfl, rfl, here⟩
        · exact ⟨i + 1, line', found, by omega, here⟩
      · rintro ⟨i, line', found, place, here⟩
        cases i with
        | zero =>
            obtain rfl := Option.some.inj found
            exact .inl ⟨place, here⟩
        | succ i => exact .inr ⟨i, line', found, by omega, here⟩

theorem pairwise_ofLines (n : Nat) (lines : List (List Char)) :
    (ofLines n lines).Pairwise (·.line < ·.line) := by
  induction lines generalizing n with
  | nil => exact .nil
  | cons line lines ih =>
      rw [ofLines]
      split
      · refine .cons (fun d hd => ?_) (ih (n + 1))
        obtain ⟨i, _, _, place, _⟩ := mem_ofLines.mp hd
        change n < d.line
        omega
      · exact ih (n + 1)

end Directive

/-- The suppression comments of a text stand on lines of their own, in order. -/
theorem pairwise_directivesOf (text : String) :
    (directivesOf text).Pairwise (·.line < ·.line) :=
  Directive.pairwise_ofLines 1 _

namespace Directive

/-- The mention makes the suppression comment of a text; `behind` is what follows its line. -/
structure Mention.Makes (m : Mention) (text : String) (d : Directive) (behind : List Char) :
    Prop where
  place : LineAt text.toList d.line m.line behind
  leads : m.Leads
  kind : d.kind = m.kind
  ruleIds : d.ruleIds = words (cutBefore ['*', '/'] m.rest)

/-- The suppression comments of a text are made by the leading mentions of its lines. -/
theorem mem_directivesOf {text : String} {d : Directive} :
    d ∈ directivesOf text ↔ ∃ m behind, Mention.Makes m text d behind := by
  rw [directivesOf, mem_ofLines]
  constructor
  · rintro ⟨i, line, found, place, rest, read, ruleIds⟩
    obtain ⟨m, rfl, leads, kind, rfl⟩ := find?_eq_some read
    obtain ⟨behind, stands⟩ := getElem?_lines.mp found
    exact ⟨m, behind, by rwa [place, Nat.add_comm], leads, kind.symm, ruleIds⟩
  · rintro ⟨m, behind, stands, leads, kind, ruleIds⟩
    obtain ⟨front, -, number, -⟩ := stands.place
    obtain ⟨i, count⟩ : ∃ i, d.line = i + 1 := ⟨_, number⟩
    rw [count] at stands
    exact ⟨i, m.line, getElem?_lines.mpr ⟨behind, stands⟩, by omega, m.rest,
      find?_eq_some_iff.mpr ⟨m, rfl, leads, kind.symm, rfl⟩, ruleIds⟩

/-! ### What is written -/

/-- A keyword goes on behind a shorter one with a hyphen. -/
theorem hyphen_of_keyword_append {kind kind' : DirectiveKind} {more : List Char}
    (h : kind'.keyword.toList = kind.keyword.toList ++ more) :
    more = [] ∨ ∃ more', more = '-' :: more' := by
  have goesOn : ∀ k ∈ DirectiveKind.all, ∀ k' ∈ DirectiveKind.all,
      k.keyword.toList.isPrefixOf k'.keyword.toList →
        (k'.keyword.toList.drop k.keyword.toList.length).head?.all (· == '-') := by decide +kernel
  have front := List.isPrefixOf_iff_prefix.mpr ⟨more, h.symm⟩
  have next := goesOn kind (mem_all kind) kind' (mem_all kind') front
  rw [h, List.drop_left] at next
  cases more with
  | nil => exact .inl rfl
  | cons c more => exact .inr ⟨more, by rw [beq_iff_eq.mp next]⟩

/-- Behind a keyword that is whole no other can be read. -/
theorem Mention.Whole.longest {m m' : Mention} (whole : m.Whole) (same : m'.line = m.line)
    (place : m'.before = m.before) : m'.kind.keyword.length ≤ m.kind.keyword.length := by
  obtain ⟨-, -, spells⟩ := Mention.eq_of_before same place
  -- Where a longer keyword goes on, the whole one is followed by a hyphen.
  refine Nat.not_lt.mp fun longer => ?_
  obtain ⟨more, keyword, -⟩ | ⟨more, keyword, rest⟩ := List.append_eq_append_iff.mp spells
  · have length := congrArg List.length keyword
    rw [List.length_append, String.length_toList, String.length_toList] at length
    omega
  · obtain rfl | ⟨more, rfl⟩ := hyphen_of_keyword_append keyword
    · rw [List.append_nil] at keyword
      rw [keyword_injective keyword] at longer
      exact Nat.lt_irrefl _ longer
    · exact whole (by rw [rest]; rfl)

/-- A character of a keyword. -/
def isKeywordChar (c : Char) : Bool := isWordChar c || c == '-'

/-- The run of letters, digits, underscores and hyphens that a comment begins with. -/
def writtenKeyword (comment : List Char) : List Char :=
  (comment.dropWhile isGap).takeWhile isKeywordChar

/-- The words of a comment behind that run. -/
def wordsBehind (comment : List Char) : List String :=
  words ((comment.dropWhile isGap).dropWhile isKeywordChar)

/-- The suppression comment says what is written in the comment. -/
structure IsWritten (d : Directive) (comment : List Char) : Prop where
  keyword : writtenKeyword comment = d.kind.keyword.toList
  ruleIds : d.ruleIds = wordsBehind comment

namespace Mention

/-- The comment from its marker on: to the end of the line or, opened by a star, to where the text
closes it. -/
def comment (m : Mention) (behind : List Char) : List Char :=
  if m.marker = '*' then cutBefore ['*', '/'] (m.after ++ behind) else m.after

/-- The comment has all its words in the line, in front of any `*/`. -/
def Closed (m : Mention) (behind : List Char) : Prop :=
  if m.marker = '*' then
    ['*', '/'] <:+: m.rest ∨ words (cutBefore ['*', '/'] behind) = []
  else ¬ ['*', '/'] <:+: m.rest

/-- What the comment says behind the keyword. -/
def tail (m : Mention) (behind : List Char) : List Char :=
  if m.marker = '*' then cutBefore ['*', '/'] (m.rest ++ behind) else m.rest

theorem isKeywordChar_of_mem_keyword (kind : DirectiveKind) :
    ∀ c ∈ kind.keyword.toList, isKeywordChar c :=
  List.all_eq_true.mp (by cases kind <;> decide)

theorem star_not_mem_keyword (kind : DirectiveKind) : '*' ∉ kind.keyword.toList :=
  fun h => absurd (isKeywordChar_of_mem_keyword kind _ h) (by decide)

theorem comment_eq (m : Mention) (behind : List Char) :
    m.comment behind = m.gap ++ (m.kind.keyword.toList ++ m.tail behind) := by
  rw [comment, tail]
  split
  · have gap : '*' ∉ m.gap := fun h => absurd (m.blank _ h) (by decide)
    rw [after, List.append_assoc, List.append_assoc, cutBefore_append_of_not_mem gap,
      cutBefore_append_of_not_mem (star_not_mem_keyword m.kind)]
  · rfl

theorem dropWhile_comment (m : Mention) (behind : List Char) :
    (m.comment behind).dropWhile isGap = m.kind.keyword.toList ++ m.tail behind := by
  rw [comment_eq, dropWhile_gap]

theorem writtenKeyword_comment (m : Mention) (behind : List Char) :
    writtenKeyword (m.comment behind) =
      m.kind.keyword.toList ++ (m.tail behind).takeWhile isKeywordChar := by
  rw [writtenKeyword, dropWhile_comment,
    List.takeWhile_append_of_pos (isKeywordChar_of_mem_keyword m.kind)]

theorem wordsBehind_comment (m : Mention) (behind : List Char) :
    wordsBehind (m.comment behind) = words ((m.tail behind).dropWhile isKeywordChar) := by
  rw [wordsBehind, dropWhile_comment,
    List.dropWhile_append_of_pos (isKeywordChar_of_mem_keyword m.kind)]

/-- The keyword goes on in the comment as it does in the line. -/
theorem any_head?_tail (m : Mention) {behind : List Char}
    (ends : behind = [] ∨ ∃ after, behind = '\n' :: after) :
    (m.tail behind).head?.any isKeywordChar = m.rest.head?.any isKeywordChar := by
  rw [tail]
  split
  · cases m.rest with
    | nil => obtain rfl | ⟨after, rfl⟩ := ends <;> rfl
    | cons r rest =>
        rw [List.cons_append, cutBefore]
        split
        · rename_i closes
          obtain ⟨rfl, -⟩ := List.cons_prefix_cons.mp (List.isPrefixOf_iff_prefix.mp closes)
          rfl
        · rfl
  · rfl

theorem whole_iff (m : Mention) : m.Whole ↔ m.rest.head?.any isKeywordChar = false := by
  have bounded := m.bounded
  rw [Whole]
  cases h : m.rest.head? with
  | none => simp
  | some c =>
      rw [h, Option.any_some] at bounded
      simp [isKeywordChar, bounded]

theorem takeWhile_tail_eq_nil_iff (m : Mention) {behind : List Char}
    (ends : behind = [] ∨ ∃ after, behind = '\n' :: after) :
    (m.tail behind).takeWhile isKeywordChar = [] ↔ m.Whole := by
  rw [m.whole_iff, ← m.any_head?_tail ends]
  cases m.tail behind with
  | nil => simp
  | cons c cs => simp [List.takeWhile_cons]

theorem words_tail_eq_iff (m : Mention) {behind : List Char}
    (ends : behind = [] ∨ ∃ after, behind = '\n' :: after) :
    words (cutBefore ['*', '/'] m.rest) = words (m.tail behind) ↔ m.Closed behind := by
  rw [tail, Closed]
  split
  · by_cases inside : ['*', '/'] <:+: m.rest
    · rw [cutBefore_append_of_stands inside]
      exact iff_of_true rfl (.inl inside)
    · -- A newline or nothing follows the line, so no mark reaches over its end.
      rw [or_iff_right inside, cutBefore_of_absent inside]
      obtain rfl | ⟨after, rfl⟩ := ends
      · rw [cutBefore_append_of_absent inside (by simp)]
        exact iff_of_true (by rw [cutBefore, List.append_nil]) rfl
      · rw [cutBefore_append_of_absent inside (by simp), cutBefore, if_neg (by simp),
          words_append (by decide), words_cons_space (by decide), List.self_eq_append_right]
  · exact words_cutBefore_eq_iff (by decide) (List.all_eq_true.mp (by decide))

end Mention

/-- **When a suppression comment says what is written in the comment.** -/
theorem Mention.Makes.isWritten_iff {m : Mention} {text : String} {d : Directive}
    {behind : List Char} (h : m.Makes text d behind) :
    d.IsWritten (m.comment behind) ↔ m.Whole ∧ m.Closed behind := by
  have ends := h.place.ends
  have keyword : writtenKeyword (m.comment behind) = d.kind.keyword.toList ↔ m.Whole := by
    rw [m.writtenKeyword_comment, h.kind, List.append_right_eq_self,
      m.takeWhile_tail_eq_nil_iff ends]
  -- Only behind a whole keyword does the rest of the comment start where the ids are read.
  have ruleIds (whole : m.Whole) :
      d.ruleIds = wordsBehind (m.comment behind) ↔ m.Closed behind := by
    have stops := (m.takeWhile_tail_eq_nil_iff ends).mpr whole
    have all := List.takeWhile_append_dropWhile (p := isKeywordChar) (l := m.tail behind)
    rw [stops, List.nil_append] at all
    rw [m.wordsBehind_comment, h.ruleIds, all, m.words_tail_eq_iff ends]
  constructor
  · rintro ⟨spells, names⟩
    have whole := keyword.mp spells
    exact ⟨whole, (ruleIds whole).mp names⟩
  · rintro ⟨whole, closed⟩
    exact ⟨keyword.mpr whole, (ruleIds whole).mpr closed⟩

theorem Mention.Whole.leads_iff {m : Mention} (whole : m.Whole) :
    m.Leads ↔ ∀ m' : Mention, m'.line = m.line → m.before.length ≤ m'.before.length :=
  ⟨Mention.Leads.first, fun first => ⟨first, fun _ => whole.longest⟩⟩

theorem Mention.Leads.exists_makes {m : Mention} (leads : m.Leads) {text : String} {n : Nat}
    {behind : List Char} (h : LineAt text.toList n m.line behind) :
    ∃ d, d.line = n ∧ m.Makes text d behind :=
  ⟨⟨m.kind, n, words (cutBefore ['*', '/'] m.rest)⟩, rfl, h, leads, rfl, rfl⟩

/-- Every comment of a line whose keyword is whole makes a suppression comment exactly when none
stands behind another mention. -/
theorem makes_all_iff {text : String} {n : Nat} {line behind : List Char}
    (h : LineAt text.toList n line behind) :
    (∀ m : Mention, m.line = line → m.Whole → ∃ d, d.line = n ∧ m.Makes text d behind) ↔
      ∀ m m' : Mention, m.line = line → m'.line = line → m.Whole →
        m.before.length ≤ m'.before.length := by
  constructor
  · intro all m m' same same' whole
    obtain ⟨d, -, makes⟩ := all m same whole
    exact makes.leads.first m' (same'.trans same.symm)
  · rintro front m rfl whole
    have leads := whole.leads_iff.mpr fun m' same => front m m' rfl same whole
    exact leads.exists_makes h

end Directive

/-- **Suppression comments and what is written.**  The suppression comments of a text stand on lines
of their own, in order, and are made by the leading mentions of the lines.  One says what is written
in its comment, keyword and rule ids, exactly when the keyword is whole and the comment has all its
words in the line, in front of any `*/`; and all comments of a line with a whole keyword make one
exactly when none of them stands behind another mention. -/
theorem directives_as_written_iff (text : String) :
    (directivesOf text).Pairwise (·.line < ·.line) ∧
    (∀ d, d ∈ directivesOf text ↔ ∃ m behind, Directive.Mention.Makes m text d behind) ∧
    (∀ m d behind, Directive.Mention.Makes m text d behind →
      (d.IsWritten (m.comment behind) ↔ m.Whole ∧ m.Closed behind)) ∧
    ∀ n line behind, LineAt text.toList n line behind →
      ((∀ m : Directive.Mention, m.line = line → m.Whole →
          ∃ d, d.line = n ∧ m.Makes text d behind) ↔
        ∀ m m' : Directive.Mention, m.line = line → m'.line = line → m.Whole →
          m.before.length ≤ m'.before.length) :=
  ⟨pairwise_directivesOf text, fun _ => Directive.mem_directivesOf,
    fun _ _ _ makes => makes.isWritten_iff, fun _ _ _ => Directive.makes_all_iff⟩

/-- A misspelt keyword is taken for a shorter one, and of two comments the second is lost. -/
theorem misspelt_keyword_taken :
    directivesOf "// solidhunter-disable-lines no-console" =
      [⟨.disable, 1, ["-lines", "no-console"]⟩] ∧
    (∀ m behind, Directive.Mention.Makes m "// solidhunter-disable-lines no-console"
        ⟨.disable, 1, ["-lines", "no-console"]⟩ behind →
      ¬ Directive.IsWritten ⟨.disable, 1, ["-lines", "no-console"]⟩ (m.comment behind)) ∧
    directivesOf
        "/* solidhunter-disable-line no-console */ /* solidhunter-disable-line ordering */ x" =
      [⟨.disableLine, 1, ["no-console"]⟩] := by
  refine ⟨rfl, fun m behind makes written => ?_, rfl⟩
  have whole := (makes.isWritten_iff.mp written).1
  have line : some "// solidhunter-disable-lines no-console".toList = some m.line :=
    getElem?_lines (i := 0).mpr ⟨behind, makes.place⟩
  have read := Directive.find?_eq_some_iff.mpr ⟨m, rfl, makes.leads, rfl, rfl⟩
  rw [← Option.some.inj line] at read
  have rest : m.rest = "-lines no-console".toList :=
    congrArg Prod.snd (Option.some.inj read).symm
  exact whole (by rw [rest]; rfl)

end SolidityLint
