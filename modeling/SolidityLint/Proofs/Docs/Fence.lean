import Mathlib.Data.List.TakeWhile
import SolidityLint.Docs.Page
import SolidityLint.Library.Markdown.Blocks
import SolidityLint.Proofs.Text.Parts

/-!
# Docs — fences

Code on a page stands between two fences.  A fence is made in rounds: it starts with three marks and
gets one more as long as it stands in the code (`Outgrows`).  That comes to an end one mark behind
the longest run of marks in the code, if that run has three marks or more.

* `replicate_infix_iff`: a character stands `n` times in a row exactly if its longest run is so long.
* `fence_outgrows_code`: where the rounds end, and that no line of the code closes its block.
* `ofText_fenced`: a reader of Markdown gets the code back, line by line, as the one block.
-/

namespace SolidityLint

/-! ### Runs of one character -/

/-- The length of the longest run of a character. -/
def longestRun (c : Char) : List Char → Nat
  | [] => 0
  | d :: cs => max ((d :: cs).takeWhile (· == c)).length (longestRun c cs)

theorem replicate_isPrefix_iff {n : Nat} {c : Char} {cs : List Char} :
    List.replicate n c <+: cs ↔ n ≤ (cs.takeWhile (· == c)).length := by
  induction cs generalizing n with
  | nil => simp
  | cons d cs ih =>
      cases n with
      | zero => simp
      | succ n =>
          rw [List.replicate_succ, List.cons_prefix_cons, ih]
          by_cases same : d = c
          · simp [same]
          · simp [same, Ne.symm same]

/-- A character stands so often in a row as the longest run says, and not more often. -/
theorem replicate_infix_iff {n : Nat} {c : Char} {cs : List Char} :
    List.replicate n c <:+: cs ↔ n ≤ longestRun c cs := by
  induction cs with
  | nil => simp [longestRun]
  | cons d cs ih =>
      rw [List.infix_cons_iff, replicate_isPrefix_iff, ih, longestRun]
      omega

namespace Docs

/-! ### The rounds of the loop -/

/-- So many marks in a row. -/
def marks (n : Nat) : List Char := List.replicate n fenceMark

theorem marks_succ (n : Nat) : marks (n + 1) = marks n ++ [fenceMark] := List.replicate_succ'

/-- What a fence grows to: it stays as it is where it does not stand in the code, and else gets one
more mark and grows on. -/
inductive Outgrows (code : List Char) : List Char → List Char → Prop
  | stop {fence : List Char} (absent : ¬ fence <:+: code) : Outgrows code fence fence
  | more {fence last : List Char} (stands : fence <:+: code)
      (rest : Outgrows code (fence ++ [fenceMark]) last) : Outgrows code fence last

theorem outgrows_outgrow (code fence : List Char) : Outgrows code fence (outgrow code fence) := by
  fun_induction outgrow code fence with
  | case1 fence stands ih => exact .more (hasInfix_iff.mp stands) ih
  | case2 fence absent => exact .stop fun stands => absent (hasInfix_iff.mpr stands)

theorem Outgrows.eq {code fence last other : List Char} (h : Outgrows code fence last)
    (h' : Outgrows code fence other) : last = other := by
  induction h with
  | stop absent =>
      cases h' with
      | stop => rfl
      | more stands => exact absurd stands absent
  | more stands _ ih =>
      cases h' with
      | stop absent => exact absurd stands absent
      | more _ rest => exact ih rest

/-- The rounds end.  The induction is on how many marks the fence lacks. -/
theorem outgrows_marks (code : List Char) (n : Nat) :
    Outgrows code (marks n) (marks (max n (longestRun fenceMark code + 1))) := by
  have grow (lacking n : Nat) (lacks : longestRun fenceMark code + 1 - n = lacking) :
      Outgrows code (marks n) (marks (max n (longestRun fenceMark code + 1))) := by
    induction lacking generalizing n with
    | zero =>
        rw [Nat.max_eq_left (by omega)]
        exact .stop (mt replicate_infix_iff.mp (by omega))
    | succ lacking ih =>
        have next := ih (n + 1) (by omega)
        rw [Nat.max_eq_right (by omega), marks_succ] at next
        rw [Nat.max_eq_right (by omega)]
        exact .more (replicate_infix_iff.mpr (by omega)) next
  exact grow _ n rfl

/-- The number of marks of the fences around a code. -/
def fenceLength (code : List Char) : Nat := max 3 (longestRun fenceMark code + 1)

example : fenceLength "/// \x60\x60\x60\n/// docs".toList = 4 := by decide

theorem outgrow_marks (code : List Char) : outgrow code (marks 3) = marks (fenceLength code) :=
  (outgrows_outgrow code (marks 3)).eq (outgrows_marks code 3)

theorem fenced_eq (language code : String) :
    fenced language code =
      String.ofList (marks (fenceLength code.toList)) ++ language ++ "\n" ++ dropLineBreaks code
        ++ "\n" ++ String.ofList (marks (fenceLength code.toList)) ++ "\n\n" := by
  rw [← outgrow_marks]
  rfl

end Docs

/-! ### What closes a block -/

namespace Markdown

open Docs

theorem Line.body_isInfix (line : Line) : line.body <:+: line.chars :=
  (List.dropWhile_suffix _).isInfix

/-- A line that closes a block of code starts with a run of marks that is long enough. -/
theorem Fence.replicate_of_isClosedBy {fence : Fence} {line : Line}
    (closed : fence.isClosedBy line = true) :
    List.replicate fence.length fence.mark <:+: line.chars := by
  simp only [isClosedBy, Bool.and_eq_true, decide_eq_true_eq] at closed
  have front : List.replicate fence.length fence.mark <+: line.body :=
    replicate_isPrefix_iff.mpr closed.1.2
  exact front.isInfix.trans line.body_isInfix

theorem Fence.isClosedBy_eq_false {fence : Fence} {line : Line} {code : List Char}
    (mark : fence.mark = fenceMark) (long : fenceLength code ≤ fence.length)
    (within : line.chars <:+: code) : fence.isClosedBy line = false := by
  rw [← Bool.not_eq_true]
  intro closed
  have stands := replicate_infix_iff.mp ((Fence.replicate_of_isClosedBy closed).trans within)
  rw [mark] at stands
  have outgrown : longestRun fenceMark code + 1 ≤ fenceLength code := Nat.le_max_right _ _
  omega

/-! ### Reading a fence, and what stands behind it -/

namespace Reading

/-- Characters without a blank are their own trimmed text. -/
theorem trim_of_solid {cs : List Char} (solid : ∀ c ∈ cs, isBlankChar c = false) : trim cs = cs := by
  have front (ds : List Char) (h : ∀ d ∈ ds, isBlankChar d = false) :
      ds.dropWhile isBlankChar = ds :=
    List.dropWhile_eq_self_iff.mpr fun inside => by simp [h _ (List.getElem_mem inside)]
  rw [trim, trimBoth, front cs solid, front cs.reverse (by simpa using solid), List.reverse_reverse]

theorem marks_append_eq_cons {n : Nat} (many : 3 ≤ n) (cs : List Char) :
    marks n ++ cs = fenceMark :: (marks (n - 1) ++ cs) := by
  obtain ⟨k, rfl⟩ := Nat.exists_eq_add_of_le' many
  rfl

theorem body_mark_cons (cs : List Char) :
    ({ chars := fenceMark :: cs } : Line).body = fenceMark :: cs := rfl

theorem indent_mark_cons (cs : List Char) :
    ({ chars := fenceMark :: cs } : Line).indent = 0 := rfl

/-- A fence is made of all the marks at the front of its line. -/
theorem mark_and_length_of_fence? {line : Line} {fence : Fence} (opens : fence? line = some fence) :
    line.body.head? = some fence.mark ∧
      fence.length = (line.body.takeWhile (· == fence.mark)).length := by
  rw [fence?] at opens
  split at opens
  · next mark rest front =>
      obtain ⟨-, made⟩ := Option.ite_none_right_eq_some.mp opens
      cases made
      exact ⟨congrArg List.head? front, rfl⟩
  · cases opens

theorem outgrown_of_fence? {n : Nat} (many : 3 ≤ n) {cs : List Char} {fence : Fence}
    (opens : fence? { chars := marks n ++ cs } = some fence) :
    fence.mark = fenceMark ∧ n ≤ fence.length := by
  obtain ⟨front, length⟩ := mark_and_length_of_fence? opens
  rw [marks_append_eq_cons many, body_mark_cons, ← marks_append_eq_cons many] at front length
  have mark : fence.mark = fenceMark := by
    rw [marks_append_eq_cons many] at front
    exact (Option.some.inj front).symm
  rw [length, mark]
  exact ⟨rfl, replicate_isPrefix_iff.mp (List.prefix_append _ _)⟩

theorem takeWhile_marks_append (n : Nat) {cs : List Char} (plain : fenceMark ∉ cs) :
    (marks n ++ cs).takeWhile (· == fenceMark) = marks n := by
  rw [List.takeWhile_append_of_pos (by simp [marks])]
  cases cs with
  | nil => simp
  | cons c cs =>
      have other : c ≠ fenceMark := fun same => plain (by simp [same])
      simp [other]

/-- A language that a fence can be written with: a word without marks. -/
structure IsWord (language : List Char) : Prop where
  nonempty : language ≠ []
  solid : ∀ c ∈ language, isBlankChar c = false
  plain : fenceMark ∉ language

theorem IsWord.takeWhile_ne_blank {language : List Char} (word : IsWord language) :
    language.takeWhile (· != ' ') = language :=
  List.takeWhile_eq_self_iff.mpr fun c hc => by
    have solid := word.solid c hc
    rw [bne_iff_ne]
    rintro rfl
    exact absurd solid (by decide)

theorem fence?_marks_append {n : Nat} (many : 3 ≤ n) {language : List Char}
    (word : IsWord language) :
    fence? { chars := marks n ++ language } = some ⟨fenceMark, n, 0, some language⟩ := by
  have run : ((marks n ++ language).takeWhile (· == fenceMark)).length = n := by
    rw [takeWhile_marks_append n word.plain, marks, List.length_replicate]
  have behind : (marks n ++ language).drop n = language :=
    List.drop_left' List.length_replicate
  have info : trim language = language := trim_of_solid word.solid
  have one : language.isEmpty = false := by simpa using word.nonempty
  rw [marks_append_eq_cons many] at run behind ⊢
  rw [fence?, body_mark_cons]
  simp only [run, behind, info, word.takeWhile_ne_blank, one, indent_mark_cons, Bool.false_eq_true,
    if_false, decide_eq_true many]
  refine if_pos ?_
  simpa [fenceMark] using word.plain

/-- A mark starts neither a rule nor an item. -/
theorem start?_mark_cons (inParagraph here : Bool) (cs : List Char) :
    start? inParagraph here { chars := fenceMark :: cs } =
      (fence? { chars := fenceMark :: cs }).map .fence := by
  have rule : isRule { chars := fenceMark :: cs } = false := by
    have first : (fenceMark :: cs).filter (!isBlankChar ·) =
        fenceMark :: cs.filter (!isBlankChar ·) := rfl
    simp only [isRule, body_mark_cons, first]
    exact Bool.and_false _
  have item : itemStart? { chars := fenceMark :: cs } = none := rfl
  rw [start?, indent_mark_cons, rule, item, body_mark_cons]
  rfl

/-! ### Reading the block -/

/-- Where no container is open, a line goes on with the block of text that is. -/
theorem addLine_eq_continueLeaf {r : Reading} (frames : r.frames = []) (line : List Char) :
    r.addLine line = { r.continueLeaf { chars := line } with
      lastBlank := if line.all isBlankChar then some 0 else none } := by
  simp only [addLine, frames, List.reverse_nil, List.length_nil, walk, beq_self_eq_true, if_true]
  rfl

/-- Nothing is open: no container, no block of text. -/
structure Settled (r : Reading) : Prop where
  frames : r.frames = []
  leaf : r.leaf = .none

/-- What has been read within a block of code that was opened where nothing else was open. -/
def within (r : Reading) (fence : Fence) (lines : List (List Char)) (lastBlank : Option Nat) :
    Reading :=
  { r with leaf := .fenced r.apart fence lines, lastBlank }

/-- The first line opens the block. -/
theorem addLine_opening {r : Reading} (settled : Settled r) {n : Nat} (many : 3 ≤ n)
    {language : List Char} (word : IsWord language) :
    r.addLine (marks n ++ language) = within r ⟨fenceMark, n, 0, some language⟩ [] none := by
  have opens := fence?_marks_append many word
  rw [marks_append_eq_cons many] at opens ⊢
  rw [addLine_eq_continueLeaf settled.frames, continueLeaf, settled.leaf]
  simp only [openAt, openBlocks, start?_mark_cons, opens, Option.map_some]
  obtain ⟨frames, finished, leaf, targets, lastBlank⟩ := r
  obtain ⟨rfl, rfl⟩ := settled
  rfl

/-- A line that does not close the block is added to it. -/
theorem addLine_within {r : Reading} (frames : r.frames = []) {fence : Fence}
    (flush : fence.indent = 0) {line : List Char}
    (kept : fence.isClosedBy { chars := line } = false) (lines : List (List Char))
    (lastBlank : Option Nat) :
    ∃ lastBlank', (within r fence lines lastBlank).addLine line =
      within r fence (line :: lines) lastBlank' := by
  have whole : (({ chars := line } : Line).dropIndent 0).text = line := rfl
  refine ⟨if line.all isBlankChar then some 0 else none, ?_⟩
  rw [addLine_eq_continueLeaf (r := within r fence lines lastBlank) frames]
  simp only [within, continueLeaf, kept, flush, Nat.zero_min, whole]
  rfl

/-- The lines of the code become the lines of the block. -/
theorem foldl_addLine_within {r : Reading} (frames : r.frames = []) {fence : Fence}
    (flush : fence.indent = 0) (code : List (List Char))
    (kept : ∀ line ∈ code, fence.isClosedBy { chars := line } = false)
    (lines : List (List Char)) (lastBlank : Option Nat) :
    ∃ lastBlank', code.foldl addLine (within r fence lines lastBlank) =
      within r fence (code.reverse ++ lines) lastBlank' := by
  induction code generalizing lines lastBlank with
  | nil => exact ⟨lastBlank, rfl⟩
  | cons line code ih =>
      obtain ⟨first, rest⟩ := List.forall_mem_cons.mp kept
      obtain ⟨blank, step⟩ := addLine_within frames flush first lines lastBlank
      obtain ⟨last, run⟩ := ih rest (line :: lines) blank
      refine ⟨last, ?_⟩
      rw [List.foldl_cons, step, run, List.reverse_cons, List.append_assoc, List.singleton_append]

theorem isClosedBy_marks {n : Nat} (many : 3 ≤ n) (language : Option (List Char)) :
    (⟨fenceMark, n, 0, language⟩ : Fence).isClosedBy { chars := marks n } = true := by
  have run := takeWhile_marks_append n (List.not_mem_nil (a := fenceMark))
  have front := marks_append_eq_cons many []
  rw [List.append_nil] at run front
  have length : (marks n).length = n := List.length_replicate
  have all : (marks n).drop n = [] := List.drop_eq_nil_of_le (Nat.le_of_eq length)
  rw [Fence.isClosedBy, front, body_mark_cons, indent_mark_cons, ← front, run, length, all]
  simp

/-- The fence itself closes the block. -/
theorem addLine_closing {r : Reading} (settled : Settled r) {n : Nat} (many : 3 ≤ n)
    (language : Option (List Char)) (lines : List (List Char)) (lastBlank : Option Nat) :
    (within r ⟨fenceMark, n, 0, language⟩ lines lastBlank).addLine (marks n) =
      { r with finished := ⟨r.apart, .code language lines.reverse⟩ :: r.finished,
               lastBlank := none } := by
  have inked : (marks n).all isBlankChar = false := by
    obtain ⟨k, rfl⟩ := Nat.exists_eq_add_of_le' many
    rfl
  obtain ⟨frames, finished, leaf, targets, last⟩ := r
  obtain ⟨rfl, rfl⟩ := settled
  rw [addLine_eq_continueLeaf rfl]
  simp only [within, continueLeaf, isClosedBy_marks many, inked]
  rfl

/-- A blank line is passed over where nothing is open. -/
theorem addLine_nil {r : Reading} (settled : Settled r) :
    r.addLine [] = { r with lastBlank := some 0 } := by
  obtain ⟨frames, finished, leaf, targets, last⟩ := r
  obtain ⟨rfl, rfl⟩ := settled
  rfl

end Reading
end Markdown

namespace Docs

open Markdown Markdown.Reading

theorem three_le_fenceLength (code : List Char) : 3 ≤ fenceLength code := Nat.le_max_left _ _

theorem toList_dropLineBreaks_isPrefix (code : String) :
    (dropLineBreaks code).toList <+: code.toList := by
  rw [dropLineBreaks, String.toList_ofList, ← List.reverse_suffix, List.reverse_reverse]
  exact List.dropWhile_suffix _

/-- The lines of the code that is written between the fences. -/
def codeLines (code : String) : List (List Char) := splitAtChar '\n' (dropLineBreaks code).toList

theorem isInfix_of_mem_codeLines {code : String} {line : List Char} (h : line ∈ codeLines code) :
    line <:+: code.toList :=
  (isInfix_of_mem_splitAtChar h).trans (toList_dropLineBreaks_isPrefix code).isInfix

/-- What is written for a code: a fence with the language, the lines of the code, a fence, and a
blank line. -/
theorem linesOf_fenced {language : String} (oneLine : '\n' ∉ language.toList) (code : String) :
    linesOf (fenced language code).toList =
      (marks (fenceLength code.toList) ++ language.toList) :: codeLines code
        ++ [marks (fenceLength code.toList), []] := by
  have text : (fenced language code).toList =
      (marks (fenceLength code.toList) ++ language.toList) ++ '\n' :: ((dropLineBreaks code).toList ++
        '\n' :: (marks (fenceLength code.toList) ++ '\n' :: ([] ++ '\n' :: []))) := by
    simp [fenced_eq]
  have clear : '\n' ∉ marks (fenceLength code.toList) := by
    rw [marks, List.mem_replicate]
    exact fun h => absurd h.2 (by decide)
  have opening : '\n' ∉ marks (fenceLength code.toList) ++ language.toList := by
    simp [clear, oneLine]
  have lines : splitAtChar '\n' (fenced language code).toList =
      ((marks (fenceLength code.toList) ++ language.toList) :: codeLines code
        ++ [marks (fenceLength code.toList), []]) ++ [[]] := by
    rw [codeLines, splitAtChar_eq_splitOn, splitAtChar_eq_splitOn, text]
    simp only [List.splitOn_append_cons_self, List.splitOn_eq_singleton clear,
      List.splitOn_eq_singleton opening, List.splitOn_nil]
    simp
  rw [linesOf, lines, List.getLast?_concat, if_pos BEq.rfl, List.dropLast_concat]

/-- A reader gets the code back: behind what it has read stands the code as one block, with the
language of the fence, and nothing is open. -/
theorem foldl_addLine_fenced {r : Reading} (settled : Settled r) {language : String}
    (word : IsWord language.toList) (code : String) :
    (linesOf (fenced language code).toList).foldl addLine r =
      { r with finished := ⟨r.apart, .code (some language.toList) (codeLines code)⟩ :: r.finished,
               lastBlank := some 0 } := by
  have oneLine : '\n' ∉ language.toList := fun h => absurd (word.solid _ h) (by decide)
  have many := three_le_fenceLength code.toList
  have kept (line : List Char) (h : line ∈ codeLines code) :
      (⟨fenceMark, fenceLength code.toList, 0, some language.toList⟩ : Fence).isClosedBy
        { chars := line } = false :=
    Fence.isClosedBy_eq_false rfl (Nat.le_refl _) (isInfix_of_mem_codeLines h)
  obtain ⟨lastBlank, run⟩ := foldl_addLine_within settled.frames rfl (codeLines code) kept [] none
  rw [linesOf_fenced oneLine, List.cons_append, List.foldl_cons, addLine_opening settled many word,
    List.foldl_append, run, List.append_nil, List.foldl_cons, addLine_closing settled many,
    List.reverse_reverse, List.foldl_cons, List.foldl_nil]
  exact addLine_nil ⟨settled.frames, settled.leaf⟩

/-- The text between the fences is read as one block, that holds all lines of the code. -/
theorem ofText_fenced {language : String} (word : IsWord language.toList) (code : String) :
    Reading.ofText (fenced language code).toList =
      ([.code (some language.toList) (codeLines code)], []) := by
  rw [ofText, foldl_addLine_fenced ⟨rfl, rfl⟩ word]
  rfl

example : IsWord "solidity".toList := ⟨by decide, by simp [isBlankChar], by decide⟩

/-- The rounds that make the fence end, with three marks or one more than the longest run of marks in
the code; so the fence does not stand in the code, and no line of the code, nor what a container
leaves of it, closes a block that the fence opens. -/
theorem fence_outgrows_code (language code : String) :
    ∃ n, n = max 3 (longestRun fenceMark code.toList + 1) ∧
      Outgrows code.toList (marks 3) (marks n) ∧ outgrow code.toList (marks 3) = marks n ∧
      fenced language code =
        String.ofList (marks n) ++ language ++ "\n" ++ dropLineBreaks code ++ "\n"
          ++ String.ofList (marks n) ++ "\n\n" ∧
      ¬ marks n <:+: code.toList ∧
      ∀ opened, fence? { chars := marks n ++ language.toList } = some opened →
        ∀ line : Line, line.chars <:+: code.toList → opened.isClosedBy line = false := by
  refine ⟨fenceLength code.toList, rfl, outgrows_marks code.toList 3, outgrow_marks code.toList,
    fenced_eq language code, ?_, ?_⟩
  · exact mt replicate_infix_iff.mp (Nat.not_le_of_lt (Nat.le_max_right _ _))
  · intro opened opens line stands
    obtain ⟨mark, length⟩ := outgrown_of_fence? (three_le_fenceLength _) opens
    exact Fence.isClosedBy_eq_false mark length stands

end Docs
end SolidityLint
