import Mathlib.Data.List.TakeWhile
import SolidityLint.Ignore.Files

/-!
# Ignore — the patterns of an ignore file

The patterns of an ignore file are what stands on its lines without white space around it, blank lines
and comments apart, up to the first line that is too long: neither this one nor those behind it are
read (`patterns_end_at_long_line`).  So a pattern behind such a line is lost
(`pattern_behind_long_line_lost`).
-/

namespace SolidityLint

/-- The pattern on a line: what is left without white space around it, if this is something and no
comment. -/
def patternOn? (line : List UInt8) : Option String :=
  let text := trimSpace (textOfBytes line.toByteArray)
  if text = "" ∨ hasFront "#" text then none else some text

/-- The patterns on lines, in order. -/
def patternsOn (lines : List (List UInt8)) : List String := lines.filterMap patternOn?

theorem patternsOn_append (before after : List (List UInt8)) :
    patternsOn (before ++ after) = patternsOn before ++ patternsOn after := by
  rw [patternsOn, List.filterMap_append, patternsOn, patternsOn]

theorem patternsOn_eq (lines : List (List UInt8)) :
    patternsOn lines = (lines.map fun l => trimSpace (textOfBytes l.toByteArray)).filter
      fun l => l != "" && !hasFront "#" l := by
  induction lines with
  | nil => rfl
  | cons line lines ih =>
      rw [patternsOn, List.filterMap_cons, List.map_cons, List.filter_cons, ← ih, patternsOn, patternOn?]
      by_cases blank : trimSpace (textOfBytes line.toByteArray) = ""
      · simp [blank]
      by_cases comment : hasFront "#" (trimSpace (textOfBytes line.toByteArray))
      · simp [comment]
      · simp [blank, comment]

/-- The patterns that are read are those of the lines in front of the first one that is too long. -/
theorem ignorePatternsOf_eq_patternsOn (bytes : ByteArray) :
    ignorePatternsOf bytes =
      patternsOn ((bytes.data.toList.splitOn newline).takeWhile (·.length < lineLimit)) := by
  rw [patternsOn_eq, ignorePatternsOf]

/-- **The patterns of an ignore file** are those on its lines, in order, up to the first line that is
too long; they are those of all its lines exactly if there is no pattern from this line on. -/
theorem patterns_end_at_long_line (bytes : ByteArray) :
    ∃ read unread, bytes.data.toList.splitOn newline = read ++ unread ∧
      (∀ line ∈ read, line.length < lineLimit) ∧ (∀ line ∈ unread.head?, lineLimit ≤ line.length) ∧
      ignorePatternsOf bytes = patternsOn read ∧
      (ignorePatternsOf bytes = patternsOn (bytes.data.toList.splitOn newline) ↔
        patternsOn unread = []) := by
  have read := ignorePatternsOf_eq_patternsOn bytes
  generalize bytes.data.toList.splitOn newline = lines at read ⊢
  have split := List.takeWhile_append_dropWhile (p := fun line : List UInt8 => line.length < lineLimit)
    (l := lines)
  refine ⟨_, _, split.symm, fun line hl => ?_, fun line hl => ?_, read, ?_⟩
  · simpa using List.mem_takeWhile_imp hl
  · have stops := List.head?_dropWhile_not (fun line : List UInt8 => line.length < lineLimit) lines
    rw [hl] at stops
    simpa using stops
  · have all := congrArg patternsOn split
    rw [patternsOn_append] at all
    rw [read, ← all, List.self_eq_append_right]

/-- A line that is too long, and a pattern on the next one. -/
def behindLongLine : ByteArray :=
  (List.replicate lineLimit 0x78 ++ newline :: "A.sol".toUTF8.data.toList).toByteArray

/-- **A pattern is lost** behind a line that is too long. -/
theorem pattern_behind_long_line_lost :
    "A.sol" ∈ patternsOn (behindLongLine.data.toList.splitOn newline) ∧
      ignorePatternsOf behindLongLine = [] := by
  have clear : newline ∉ List.replicate lineLimit (0x78 : UInt8) := fun mem =>
    absurd (List.eq_of_mem_replicate mem) (by decide)
  have lines : behindLongLine.data.toList.splitOn newline =
      [List.replicate lineLimit 0x78, "A.sol".toUTF8.data.toList] := by
    rw [behindLongLine, List.toList_data_toByteArray, List.splitOn_append_cons_self_of_not_mem clear]
    rfl
  have pattern : patternOn? "A.sol".toUTF8.data.toList = some "A.sol" := rfl
  constructor
  · rw [lines]
    exact List.mem_filterMap.mpr ⟨_, by simp, pattern⟩
  · rw [ignorePatternsOf_eq_patternsOn, lines, List.takeWhile_cons_of_neg (by simp)]
    rfl

end SolidityLint
