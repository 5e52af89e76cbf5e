import SolidityLint.Proofs.Library.Text.Seams
import SolidityLint.Report.Table

/-!
# Report — the rows of the table

Columns are shrunk until the table fits the terminal or is as narrow as it can be, and cells are
shortened and padded to their columns.  A row is as wide as the table, but for what its texts lose
to the blanks around them.

* `ColumnWidths.total_ofRows_le`: the table fits, or its paths and messages have the least widths.
* `Table.covers_shortened`: each text of a row fits into its column.
* `Table.displayWidth_cells_iff`: a row has the width of the table exactly when no text loses a
  column to the blanks around it.
* `table_rows_align_iff`: all of this for the rows of a table.
-/

namespace SolidityLint

open Grapheme

namespace ColumnWidths

/-! ### Widths of columns -/

/-- The columns are wide enough for the texts of a row. -/
structure Covers (w : ColumnWidths) (r : TableRow) : Prop where
  file : displayWidth r.file ≤ w.file
  location : displayWidth r.location ≤ w.location
  message : displayWidth r.message ≤ w.message
  rule : displayWidth r.ruleId ≤ w.rule

/-- The columns of one table are no wider than those of another. -/
structure Within (v w : ColumnWidths) : Prop where
  file : v.file ≤ w.file
  location : v.location ≤ w.location
  message : v.message ≤ w.message
  rule : v.rule ≤ w.rule

theorem within_cover (w : ColumnWidths) (r : TableRow) : Within w (w.cover r) :=
  ⟨Nat.le_max_left .., Nat.le_max_left .., Nat.le_max_left .., Nat.le_max_left ..⟩

theorem covers_cover (w : ColumnWidths) (r : TableRow) : Covers (w.cover r) r :=
  ⟨Nat.le_max_right .., Nat.le_max_right .., Nat.le_max_right .., Nat.le_max_right ..⟩

theorem Covers.within {v w : ColumnWidths} {r : TableRow} (h : Covers v r) (within : Within v w) :
    Covers w r :=
  ⟨h.file.trans within.file, h.location.trans within.location, h.message.trans within.message,
    h.rule.trans within.rule⟩

theorem within_foldl_cover (rows : List TableRow) (w : ColumnWidths) :
    Within w (rows.foldl cover w) := by
  induction rows generalizing w with
  | nil => exact ⟨Nat.le_refl _, Nat.le_refl _, Nat.le_refl _, Nat.le_refl _⟩
  | cons r rows ih =>
      have first := within_cover w r
      have rest := ih (w.cover r)
      exact ⟨first.file.trans rest.file, first.location.trans rest.location,
        first.message.trans rest.message, first.rule.trans rest.rule⟩

theorem covers_foldl_cover {rows : List TableRow} {r : TableRow} (h : r ∈ rows) (w : ColumnWidths) :
    Covers (rows.foldl cover w) r := by
  induction rows generalizing w with
  | nil => exact absurd h List.not_mem_nil
  | cons q rows ih =>
      rcases List.mem_cons.mp h with rfl | h
      · exact (covers_cover w r).within (within_foldl_cover rows _)
      · exact ih h _

theorem least_file (terminal : Nat) (rows : List TableRow) : 20 ≤ (ofRows terminal rows).file := by
  have least : 20 ≤ (rows.foldl cover {}).file := (within_foldl_cover rows {}).file
  simp only [ofRows, shrinkFile]
  split
  · exact Nat.le_max_left ..
  · exact least

theorem total_shrinkMessage (w : ColumnWidths) (terminal : Nat) :
    (w.shrinkMessage terminal).total ≤ terminal ∨ (w.shrinkMessage terminal).message = 35 := by
  rw [shrinkMessage]
  by_cases wide : terminal < w.total
  · rw [if_pos wide]
    simp only [total] at wide ⊢
    omega
  · rw [if_neg wide]
    exact .inl (Nat.not_lt.mp wide)

theorem total_shrinkFile (w : ColumnWidths) (terminal : Nat) :
    (w.shrinkFile terminal).total ≤ max terminal (20 + w.location + w.message + w.rule + 8) := by
  rw [shrinkFile]
  by_cases wide : terminal < w.total
  · rw [if_pos wide]
    simp only [total] at wide ⊢
    omega
  · rw [if_neg wide]
    exact (Nat.not_lt.mp wide).trans (Nat.le_max_left ..)

theorem shrinkFile_of_fits {w : ColumnWidths} {terminal : Nat} (fits : w.total ≤ terminal) :
    w.shrinkFile terminal = w := by
  rw [shrinkFile, if_neg (Nat.not_lt.mpr fits)]

/-- A table that is not too wide keeps its widths. -/
theorem ofRows_of_fits {terminal : Nat} {rows : List TableRow}
    (fits : (rows.foldl cover {}).total ≤ terminal) :
    ofRows terminal rows = rows.foldl cover {} := by
  have message : (rows.foldl cover {}).shrinkMessage terminal = rows.foldl cover {} := by
    rw [shrinkMessage, if_neg (Nat.not_lt.mpr fits)]
  rw [ofRows, message, shrinkFile_of_fits fits]

/-- **The width of the table.**  It fits the terminal, or its paths and messages are as narrow as
they can be. -/
theorem total_ofRows_le (terminal : Nat) (rows : List TableRow) :
    (ofRows terminal rows).total ≤
      max terminal (20 + 35 + (ofRows terminal rows).location + (ofRows terminal rows).rule + 8) := by
  rcases total_shrinkMessage (rows.foldl cover {}) terminal with fits | message
  · rw [ofRows, shrinkFile_of_fits fits]
    exact fits.trans (Nat.le_max_left ..)
  · have total := total_shrinkFile ((rows.foldl cover {}).shrinkMessage terminal) terminal
    rw [message] at total
    refine total.trans ?_
    simp only [ofRows, shrinkFile, shrinkMessage]
    omega

end ColumnWidths

namespace Table

/-! ### Texts that are shortened -/

theorem shorten_of_fits {width : Nat} {s : String} (fits : displayWidth s ≤ width) :
    shorten width s = s := if_pos fits

theorem shortenPath_of_fits {width : Nat} {path : String} (fits : displayWidth path ≤ width) :
    shortenPath width path = path := if_pos fits

theorem dot : classOf '.' = .other ∧ columnsOf '.' = 1 :=
  characterLaws.printable ⟨by decide, by decide⟩

theorem toList_ellipsis : ellipsis.toList = ['.', '.', '.'] := by simp [ellipsis]

theorem displayWidth_ellipsis_append_le (cs : List Char) :
    displayWidth (ellipsis ++ String.ofList cs) ≤ 3 + widthOf cs := by
  have chars : (ellipsis ++ String.ofList cs).toList = '.' :: '.' :: '.' :: cs := by
    rw [String.toList_append, toList_ellipsis, String.toList_ofList]
    rfl
  have first := widthOf_cons_add dot.1 dot.2 ('.' :: '.' :: cs)
  have second := widthOf_cons_add dot.1 dot.2 ('.' :: cs)
  have third := widthOf_cons_add dot.1 dot.2 cs
  rw [displayWidth, chars]
  omega

theorem displayWidth_shorten_le (width : Nat) (s : String) :
    displayWidth (shorten width s) ≤ width := by
  rw [shorten]
  split
  · assumption
  split
  · exact displayWidth_truncate_le (Nat.zero_le _) (fun c cs h => by simp at h) s
  · rename_i wide
    refine displayWidth_truncate_le ?_ (fun c cs h => ?_) s
    · have room := displayWidth_ellipsis_append_le []
      have none : widthOf [] = 0 := rfl
      have plain : ellipsis ++ String.ofList [] = ellipsis := by simp
      rw [plain] at room
      omega
    · rw [toList_ellipsis] at h
      have same : '.' = c := (List.cons.inj h).1
      exact same ▸ dot

theorem fittingBack_prefix (room : Nat) (cs : List Char) : fittingBack room cs <+: cs := by
  induction cs generalizing room with
  | nil => exact List.prefix_rfl
  | cons c cs ih =>
      rw [fittingBack]
      split
      · exact List.cons_prefix_cons.mpr ⟨rfl, ih _⟩
      · exact List.nil_prefix

theorem sumOf_fittingBack_le (room : Nat) (cs : List Char) :
    sumOf ((fittingBack room cs).map columnsOf) ≤ room := by
  induction cs generalizing room with
  | nil => exact Nat.zero_le room
  | cons c cs ih =>
      rw [fittingBack]
      split
      · rename_i fits
        have rest := ih (room - columnsOf c)
        rw [List.map_cons, sumOf]
        omega
      · exact Nat.zero_le room

/-- The end of a path that fits into a width by its characters. -/
def keptBack (room : Nat) (path : String) : List Char :=
  (fittingBack room path.toList.reverse).reverse

theorem keptBack_suffix (room : Nat) (path : String) : keptBack room path <:+ path.toList := by
  have front := fittingBack_prefix room path.toList.reverse
  rw [← List.reverse_suffix] at front
  rwa [List.reverse_reverse] at front

theorem sumOf_reverse (ns : List Nat) : sumOf ns.reverse = sumOf ns := by
  induction ns with
  | nil => rfl
  | cons n ns ih =>
      rw [List.reverse_cons, sumOf_append, ih, sumOf, sumOf, sumOf]
      omega

theorem widthOf_keptBack_le (room : Nat) (path : String) : widthOf (keptBack room path) ≤ room := by
  refine (widthOf_le _).trans ?_
  rw [keptBack, List.map_reverse, sumOf_reverse]
  exact sumOf_fittingBack_le room _

theorem shortenPath_of_wide {width : Nat} {path : String} (wide : width < displayWidth path) :
    shortenPath width path =
      if width ≤ 3 then String.ofList (keptBack width path)
      else ellipsis ++ String.ofList (keptBack (width - 3) path) :=
  if_neg (Nat.not_le.mpr wide)

theorem displayWidth_shortenPath_le (width : Nat) (path : String) :
    displayWidth (shortenPath width path) ≤ width := by
  rcases Nat.lt_or_ge width (displayWidth path) with wide | fits
  · rw [shortenPath_of_wide wide]
    split
    · rw [displayWidth, String.toList_ofList]
      exact widthOf_keptBack_le width path
    · have kept := widthOf_keptBack_le (width - 3) path
      have cell := displayWidth_ellipsis_append_le (keptBack (width - 3) path)
      omega
  · rw [shortenPath_of_fits fits]
    exact fits

/-- What the cell of a path has to be: no wider than its column, and the path if that fits, else an
ellipsis with an end of it. -/
structure PathCell (width : Nat) (path cell : String) : Prop where
  fits : displayWidth cell ≤ width
  whole : displayWidth path ≤ width → cell = path
  cut : width < displayWidth path →
    ∃ rest, rest <:+ path.toList ∧ cell = ellipsis ++ String.ofList rest

theorem pathCell_shortenPath {width : Nat} (room : 3 < width) (path : String) :
    PathCell width path (shortenPath width path) where
  fits := displayWidth_shortenPath_le width path
  whole := shortenPath_of_fits
  cut wide := ⟨keptBack (width - 3) path, keptBack_suffix _ path, by
    rw [shortenPath_of_wide wide, if_neg (Nat.not_le.mpr room)]⟩

/-- A row as it is shown, with its texts shortened to their columns. -/
def shortened (w : ColumnWidths) (r : TableRow) : TableRow where
  file := shortenPath w.file r.file
  location := shorten w.location r.location
  message := shorten w.message r.message
  ruleId := shorten w.rule r.ruleId
  severity := r.severity

theorem shortened_file (w : ColumnWidths) (r : TableRow) :
    (shortened w r).file = shortenPath w.file r.file := rfl

theorem shortened_location (w : ColumnWidths) (r : TableRow) :
    (shortened w r).location = shorten w.location r.location := rfl

theorem shortened_message (w : ColumnWidths) (r : TableRow) :
    (shortened w r).message = shorten w.message r.message := rfl

theorem shortened_ruleId (w : ColumnWidths) (r : TableRow) :
    (shortened w r).ruleId = shorten w.rule r.ruleId := rfl

theorem cells_eq (w : ColumnWidths) (r : TableRow) :
    cells w r = line [padRight w.file (shortened w r).file,
      padRight w.location (shortened w r).location, padRight w.message (shortened w r).message,
      padRight w.rule (shortened w r).ruleId] := rfl

theorem covers_shortened (w : ColumnWidths) (r : TableRow) : w.Covers (shortened w r) where
  file := by rw [shortened_file]; exact displayWidth_shortenPath_le ..
  location := by rw [shortened_location]; exact displayWidth_shorten_le ..
  message := by rw [shortened_message]; exact displayWidth_shorten_le ..
  rule := by rw [shortened_ruleId]; exact displayWidth_shorten_le ..

theorem shortened_of_covers {w : ColumnWidths} {r : TableRow} (h : w.Covers r) :
    shortened w r = r := by
  rw [shortened, shortenPath_of_fits h.file, shorten_of_fits h.location, shorten_of_fits h.message,
    shorten_of_fits h.rule]

/-! ### Rows -/

theorem toList_padRight (width : Nat) (s : String) :
    (padRight width s).toList = s.toList ++ List.replicate (width - displayWidth s) ' ' := by
  rw [padRight, blanks, String.toList_append, String.toList_ofList]

theorem toList_line (a b c d : String) :
    (line [a, b, c, d]).toList =
      ' ' :: (a.toList ++ ' ' :: ' ' :: (b.toList ++ ' ' :: ' ' :: (c.toList ++ ' ' :: ' ' :: d.toList))) := by
  simp [line, String.intercalate_cons_cons]

/-- The columns that a text loses to the blank before it: those of the marks at its front. -/
def frontLoss (s : String) : Nat := clusterWidth (s.toList.takeWhile attaches)

/-- The column that a text loses to the blank behind it, if the prepended letters at its end take
any. -/
def backLoss (s : String) : Nat := min 1 (clusterWidth (s.toList.rtakeWhile leads))

theorem widthOf_cell_add {width : Nat} {s : String} (fits : displayWidth s ≤ width)
    (rest : List Char) :
    widthOf (' ' :: ((padRight width s).toList ++ ' ' :: ' ' :: rest)) + (frontLoss s + backLoss s) =
      2 + width + widthOf (' ' :: rest) := by
  have between := widthOf_between_add s.toList (width - displayWidth s) (' ' :: rest)
  have own : widthOf s.toList = displayWidth s := rfl
  rw [← toList_padRight, widthOf_blank_blank] at between
  rw [frontLoss, backLoss]
  omega

theorem widthOf_lastCell_add {width : Nat} {s : String} (fits : displayWidth s ≤ width) :
    widthOf (' ' :: (padRight width s).toList)
        + (frontLoss s + if displayWidth s = width then 0 else backLoss s) =
      1 + width := by
  have behind := widthOf_behind_add s.toList (width - displayWidth s)
  have own : widthOf s.toList = displayWidth s := rfl
  have padded : width - displayWidth s = 0 ↔ displayWidth s = width := by omega
  rw [← toList_padRight] at behind
  simp only [padded] at behind
  rw [frontLoss, backLoss]
  omega

/-- What the texts of a row lose to the blanks around them. -/
def rowLoss (w : ColumnWidths) (r : TableRow) : Nat :=
  (frontLoss r.file + backLoss r.file) + (frontLoss r.location + backLoss r.location)
    + (frontLoss r.message + backLoss r.message)
    + (frontLoss r.ruleId + if displayWidth r.ruleId = w.rule then 0 else backLoss r.ruleId)

/-- A row is narrower than the table by the column at its end, and by what its texts lose. -/
theorem displayWidth_cells_add (w : ColumnWidths) (r : TableRow) :
    displayWidth (cells w r) + 1 + rowLoss w (shortened w r) = w.total := by
  have covers := covers_shortened w r
  rw [displayWidth, cells_eq, toList_line, rowLoss, ColumnWidths.total]
  generalize shortened w r = shown at covers
  have file := widthOf_cell_add covers.file
  have location := widthOf_cell_add covers.location
  have message := widthOf_cell_add covers.message
  have rule := widthOf_lastCell_add covers.rule
  generalize (padRight w.file shown.file).toList = a at file
  generalize (padRight w.location shown.location).toList = b at location
  generalize (padRight w.message shown.message).toList = c at message
  generalize (padRight w.rule shown.ruleId).toList = d at rule
  have file := file (b ++ ' ' :: ' ' :: (c ++ ' ' :: ' ' :: d))
  have location := location (c ++ ' ' :: ' ' :: d)
  have message := message d
  omega

/-! ### Texts that keep their widths -/

/-- The marks at the front of a text take no columns, so that it loses nothing to what stands before
it. -/
def ClearFront (s : String) : Prop := ∀ c ∈ s.toList.takeWhile attaches, columnsOf c = 0

/-- The prepended letters at the end of a text take no columns, so that it loses nothing to what
stands behind it. -/
def ClearBack (s : String) : Prop := ∀ c ∈ s.toList.rtakeWhile leads, columnsOf c = 0

/-- No text of a row, as it is shown, loses a column to the blanks around it; behind the last one
there are none if it fills its column. -/
structure Aligned (w : ColumnWidths) (r : TableRow) : Prop where
  file : ClearFront r.file ∧ ClearBack r.file
  location : ClearFront r.location ∧ ClearBack r.location
  message : ClearFront r.message ∧ ClearBack r.message
  rule : ClearFront r.ruleId ∧ (displayWidth r.ruleId = w.rule ∨ ClearBack r.ruleId)

theorem clusterWidth_eq_zero_iff (cluster : List Char) :
    clusterWidth cluster = 0 ↔ ∀ c ∈ cluster, columnsOf c = 0 := by
  induction cluster with
  | nil => exact iff_of_true rfl (fun c h => absurd h List.not_mem_nil)
  | cons c cluster ih =>
      rw [List.forall_mem_cons, ← ih]
      by_cases wide : 0 < columnsOf c
      · rw [clusterWidth_cons_of_pos wide]
        omega
      · have none : columnsOf c = 0 := by omega
        have same : clusterWidth (c :: cluster) = clusterWidth cluster := by
          simp [clusterWidth, none]
        rw [same, none]
        simp

theorem frontLoss_eq_zero_iff (s : String) : frontLoss s = 0 ↔ ClearFront s :=
  clusterWidth_eq_zero_iff _

theorem backLoss_eq_zero_iff (s : String) : backLoss s = 0 ↔ ClearBack s := by
  rw [ClearBack, ← clusterWidth_eq_zero_iff, backLoss]
  omega

theorem rowLoss_eq_zero_iff (w : ColumnWidths) (r : TableRow) : rowLoss w r = 0 ↔ Aligned w r := by
  have rule : (if displayWidth r.ruleId = w.rule then 0 else backLoss r.ruleId) = 0 ↔
      displayWidth r.ruleId = w.rule ∨ ClearBack r.ruleId := by
    rw [← backLoss_eq_zero_iff]
    split <;> simp [*]
  simp only [rowLoss, Nat.add_eq_zero_iff, frontLoss_eq_zero_iff, backLoss_eq_zero_iff, rule]
  exact ⟨fun ⟨⟨⟨file, location⟩, message⟩, rule⟩ => ⟨file, location, message, rule⟩,
    fun h => ⟨⟨⟨h.file, h.location⟩, h.message⟩, h.rule⟩⟩

/-- A row has the width of the table, less the column at its end, exactly when no text loses a
column. -/
theorem displayWidth_cells_iff (w : ColumnWidths) (r : TableRow) :
    displayWidth (cells w r) = w.total - 1 ↔ Aligned w (shortened w r) := by
  have width := displayWidth_cells_add w r
  rw [← rowLoss_eq_zero_iff]
  omega

/-! ### Rows without marks -/

theorem mem_shorten {width : Nat} {s : String} {c : Char} (h : c ∈ (shorten width s).toList) :
    c ∈ s.toList ∨ c = '.' := by
  rw [shorten] at h
  split at h
  · exact .inl h
  split at h
  · rcases truncate_cases width "" s with same | ⟨front, isFront, eq⟩
    · exact .inl (same ▸ h)
    · rw [eq] at h
      exact .inl (isFront.mem (by simpa using h))
  · rcases truncate_cases width ellipsis s with same | ⟨front, isFront, eq⟩
    · exact .inl (same ▸ h)
    · rw [eq, String.toList_append, String.toList_ofList, List.mem_append] at h
      rcases h with h | h
      · exact .inl (isFront.mem h)
      · exact .inr (by simpa [toList_ellipsis] using h)

theorem mem_shortenPath {width : Nat} {path : String} {c : Char}
    (h : c ∈ (shortenPath width path).toList) : c ∈ path.toList ∨ c = '.' := by
  rcases Nat.lt_or_ge width (displayWidth path) with wide | fits
  · rw [shortenPath_of_wide wide] at h
    split at h
    · rw [String.toList_ofList] at h
      exact .inl ((keptBack_suffix width path).mem h)
    · rw [String.toList_append, String.toList_ofList, List.mem_append] at h
      rcases h with h | h
      · exact .inr (by simpa [toList_ellipsis] using h)
      · exact .inl ((keptBack_suffix (width - 3) path).mem h)
  · rw [shortenPath_of_fits fits] at h
    exact .inl h

/-- A text with neither marks nor prepended letters. -/
def Plain (s : String) : Prop := ∀ c ∈ s.toList, attaches c = false ∧ leads c = false

theorem Plain.of_mem {s t : String} (h : Plain s) (mem : ∀ c ∈ t.toList, c ∈ s.toList ∨ c = '.') :
    Plain t := by
  intro c hc
  rcases mem c hc with hc | rfl
  · exact h c hc
  · exact ⟨by rw [attaches, dot.1]; rfl, by rw [leads, dot.1]; rfl⟩

theorem Plain.clear {s : String} (h : Plain s) : ClearFront s ∧ ClearBack s := by
  refine ⟨fun c hc => ?_, fun c hc => ?_⟩
  · have none := (h c ((List.takeWhile_prefix _).mem hc)).1
    exact absurd (List.mem_takeWhile_imp hc) (by simp [none])
  · have none := (h c ((List.rtakeWhile_suffix _ _).mem hc)).2
    exact absurd (List.mem_rtakeWhile_imp hc) (by simp [none])

/-- A row of texts with neither marks nor prepended letters, such as those of ASCII, has the width
of the table. -/
theorem displayWidth_cells_of_plain (w : ColumnWidths) {r : TableRow} (file : Plain r.file)
    (location : Plain r.location) (message : Plain r.message) (rule : Plain r.ruleId) :
    displayWidth (cells w r) = w.total - 1 := by
  have shownFile : Plain (shortened w r).file := by
    rw [shortened_file]
    exact file.of_mem fun _ => mem_shortenPath
  have shownLocation : Plain (shortened w r).location := by
    rw [shortened_location]
    exact location.of_mem fun _ => mem_shorten
  have shownMessage : Plain (shortened w r).message := by
    rw [shortened_message]
    exact message.of_mem fun _ => mem_shorten
  have shownRule : Plain (shortened w r).ruleId := by
    rw [shortened_ruleId]
    exact rule.of_mem fun _ => mem_shorten
  exact (displayWidth_cells_iff w r).mpr ⟨shownFile.clear, shownLocation.clear, shownMessage.clear,
    shownRule.clear.1, .inr shownRule.clear.2⟩

end Table

open Table

/-! ### The table -/

/-- **The rows of the table.**  The table fits the terminal or is as narrow as it can be; nothing is
shortened if it fits without; each path is shown whole or by its end; and all rows have the width of
the table, less the column at its end, exactly when no text loses a column to the blanks around
it. -/
theorem table_rows_align_iff (terminal : Nat) (rows : List TableRow) :
    let w := ColumnWidths.ofRows terminal rows
    w.total ≤ max terminal (20 + 35 + w.location + w.rule + 8) ∧
    ((rows.foldl ColumnWidths.cover {}).total ≤ terminal → ∀ r ∈ rows, shortened w r = r) ∧
    (∀ r ∈ rows, PathCell w.file r.file (shortened w r).file) ∧
    ((∀ r ∈ rows, displayWidth (cells w r) = w.total - 1) ↔
      ∀ r ∈ rows, Aligned w (shortened w r)) := by
  intro w
  refine ⟨ColumnWidths.total_ofRows_le terminal rows, fun fits r hr => ?_, fun r _ => ?_,
    forall₂_congr fun r _ => displayWidth_cells_iff w r⟩
  · refine shortened_of_covers ?_
    rw [show w = _ from ColumnWidths.ofRows_of_fits fits]
    exact ColumnWidths.covers_foldl_cover hr {}
  · have least : 20 ≤ w.file := ColumnWidths.least_file terminal rows
    exact pathCell_shortenPath (by omega) r.file

/-! ### A mark at the front of a path -/

/-- A row for a path that starts with a mark of two columns. -/
def markedRow : TableRow where
  file := "🏽.sol"
  location := "1:1"
  message := "Code contains empty blocks"
  ruleId := "no-empty-block"
  severity := .warning

/-- **A mark misaligns its row**: it goes to the blank at the front of the row, which is then two
columns narrower than the others. -/
theorem mark_misaligns_row :
    displayWidth (cells (ColumnWidths.ofRows 100 [markedRow]) markedRow) + 2 =
      (ColumnWidths.ofRows 100 [markedRow]).total - 1 := by
  decide +kernel

end SolidityLint
