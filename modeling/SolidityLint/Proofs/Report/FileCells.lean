import SolidityLint.Proofs.Report.Agreement
import SolidityLint.Proofs.Library.Text.Width

/-!
# Report — cells of long paths

A path that is too wide for its cell keeps a number of characters, where the room is a number of
columns.

* `Overview.exists_cell_iff`: a path has a cell that fits exactly when its cut goes well.
* `Overview.cutsWell_of_narrow`: that of a path without wide characters does.
* `overview_cells_fit_iff`: an overview is written, with cells that fit, exactly when the cuts of
  all its paths go well.
* `exists_overview_of_ascii`: that is so for paths of ASCII characters.
-/

namespace SolidityLint

namespace Overview

open Grapheme

/-- What the cell of a path has to be: no wider than its column, and the path or an ellipsis with
an end of it. -/
structure CellOf (path cell : String) : Prop where
  fits : displayWidth cell ≤ maxFileWidth
  shows : cell = path ∨ ∃ rest, rest <:+ path.toList ∧ cell = "…" ++ String.ofList rest

/-- The characters at the end of a path that its cell keeps. -/
def keptEnd (path : String) : List Char := path.toList.drop (path.toList.length - (maxFileWidth - 1))

/-- The cut of a path by characters goes well: there is none, or there are enough characters and
what is kept of them is as wide as there is room behind the ellipsis. -/
def CutsWell (path : String) : Prop :=
  displayWidth path ≤ maxFileWidth ∨ maxFileWidth - 1 ≤ path.toList.length ∧
    widthOf ((keptEnd path).dropWhile attaches) ≤ maxFileWidth - 1

instance (path : String) : Decidable (CutsWell path) :=
  inferInstanceAs (Decidable (_ ∨ _ ∧ _))

theorem fileCell?_of_fits {path : String} (fits : displayWidth path ≤ maxFileWidth) :
    fileCell? path = some path := by
  rw [fileCell?, if_pos fits]

theorem fileCell?_of_wide {path : String} (wide : ¬ displayWidth path ≤ maxFileWidth) :
    fileCell? path = if path.toList.length < maxFileWidth - 1 then none
      else some ("…" ++ String.ofList (keptEnd path)) := by
  rw [fileCell?, if_neg wide]
  rfl

/-- A path has a cell that fits exactly when its cut goes well. -/
theorem exists_cell_iff (path : String) :
    (∃ cell, fileCell? path = some cell ∧ CellOf path cell) ↔ CutsWell path := by
  by_cases fits : displayWidth path ≤ maxFileWidth
  · rw [fileCell?_of_fits fits]
    exact iff_of_true ⟨path, rfl, fits, .inl rfl⟩ (.inl fits)
  rw [fileCell?_of_wide fits, CutsWell, or_iff_right fits]
  by_cases few : path.toList.length < maxFileWidth - 1
  · rw [if_pos few]
    exact iff_of_false (by rintro ⟨cell, none, -⟩; cases none)
      fun h => absurd h.1 (Nat.not_le_of_lt few)
  rw [if_neg few, and_iff_right (Nat.le_of_not_lt few)]
  have width : displayWidth ("…" ++ String.ofList (keptEnd path)) ≤ maxFileWidth ↔
      widthOf ((keptEnd path).dropWhile attaches) ≤ maxFileWidth - 1 := by
    have room : maxFileWidth = 52 := rfl
    rw [displayWidth_ellipsis_append]
    omega
  rw [← width]
  constructor
  · rintro ⟨cell, hcell, h⟩
    cases hcell
    exact h.fits
  · exact fun h => ⟨_, rfl, h, .inr ⟨keptEnd path, List.drop_suffix .., rfl⟩⟩

/-- A path without wide characters has as many characters as it needs. -/
theorem cutsWell_of_narrow {path : String} (narrow : ∀ c ∈ path.toList, columnsOf c ≤ 1) :
    CutsWell path := by
  by_cases fits : displayWidth path ≤ maxFileWidth
  · exact .inl fits
  have long : displayWidth path ≤ path.toList.length := widthOf_le_length narrow
  have room : maxFileWidth = 52 := rfl
  refine .inr ⟨by omega, ?_⟩
  have kept : (keptEnd path).dropWhile attaches <:+ path.toList :=
    (List.dropWhile_suffix _).trans (List.drop_suffix ..)
  have short : (keptEnd path).length ≤ maxFileWidth - 1 := by
    rw [keptEnd, List.length_drop]
    omega
  exact (widthOf_le_length fun c hc => narrow c (kept.mem hc)).trans
    ((List.dropWhile_suffix _).length_le.trans short)

end Overview

open Overview

/-! ### The overview of a run -/

theorem exists_overview_of_cutsWell (s : Styles) (order : OverviewOrder) {r : AnalysisReport}
    (well : ∀ g ∈ r.byFile, CutsWell g.name) :
    (∃ text, s.overview order r = some text) ∧
      ∀ g ∈ r.byFile, ∃ cell, fileCell? g.name = some cell ∧ CellOf g.name cell := by
  have cells : ∀ g ∈ r.byFile, ∃ cell, fileCell? g.name = some cell ∧ CellOf g.name cell :=
    fun g hg => (exists_cell_iff g.name).mpr (well g hg)
  refine ⟨Option.ne_none_iff_exists'.mp fun none => ?_, cells⟩
  obtain ⟨-, g, hg, none⟩ := Styles.overview_eq_none_iff.mp none
  obtain ⟨cell, hcell, -⟩ := cells g hg
  exact nomatch none.symm.trans hcell

/-- The overview is written for paths of ASCII characters, however long they are. -/
theorem exists_overview_of_ascii (s : Styles) (order : OverviewOrder) {r : AnalysisReport}
    (ascii : ∀ g ∈ r.byFile, ∀ c ∈ g.name.toList, c.toNat < 0x80) :
    (∃ text, s.overview order r = some text) ∧
      ∀ g ∈ r.byFile, ∃ cell, fileCell? g.name = some cell ∧ CellOf g.name cell :=
  exists_overview_of_cutsWell s order fun g hg =>
    cutsWell_of_narrow fun c hc => characterLaws.ascii (ascii g hg c hc)

/-- **Cells of the overview.**  The overview is written and every path has a cell that fits, being
the path or an ellipsis with an end of it, exactly when the cuts of all paths go well. -/
theorem overview_cells_fit_iff (s : Styles) (order : OverviewOrder) (r : AnalysisReport) :
    ((∃ text, s.overview order r = some text) ∧
      ∀ g ∈ r.byFile, ∃ cell, fileCell? g.name = some cell ∧ CellOf g.name cell) ↔
    ∀ g ∈ r.byFile, CutsWell g.name :=
  ⟨fun fits g hg => (exists_cell_iff g.name).mp (fits.2 g hg), exists_overview_of_cutsWell s order⟩

/-! ### Names of wide characters -/

/-- A report on one path with one finding. -/
def reportOn (path : String) : AnalysisReport where
  byFile := [{ name := path, counts := { warnings := 1 }, issues := 1, others := ["no-empty-block"] }]
  totals := { counts := { warnings := 1 }, files := 1, filesWithIssues := 1, issues := 1 }

/-- The path of a source with a name of wide characters. -/
def wideName (n : Nat) : String := String.ofList (List.replicate n '字' ++ ['.', 's', 'o', 'l'])

theorem toList_wideName (n : Nat) :
    (wideName n).toList = List.replicate n '字' ++ ['.', 's', 'o', 'l'] := by
  rw [wideName, String.toList_ofList]

/-- **Wide characters break the cut**: with thirty of them there is no overview, and with fifty-two
the cell has ninety-nine columns. -/
theorem wide_names_cut_badly :
    (∀ s order, Styles.overview s order (reportOn (wideName 30)) = none) ∧
    ∃ cell, fileCell? (wideName 52) = some cell ∧ displayWidth cell = 99 := by
  have wide : ∀ n ∈ [30, 52], ¬ displayWidth (wideName n) ≤ maxFileWidth := by
    simp only [displayWidth, toList_wideName]
    decide +kernel
  have few : (wideName 30).toList.length < maxFileWidth - 1 := by rw [toList_wideName]; decide
  have enough : ¬ (wideName 52).toList.length < maxFileWidth - 1 := by rw [toList_wideName]; decide
  refine ⟨fun s order => ?_, _, (fileCell?_of_wide (wide 52 (by decide))).trans (if_neg enough), ?_⟩
  · rw [Styles.overview_eq_none_iff]
    exact ⟨by decide, _, List.mem_singleton_self _,
      (fileCell?_of_wide (wide 30 (by decide))).trans (if_pos few)⟩
  · rw [displayWidth_ellipsis_append, keptEnd, toList_wideName]
    decide +kernel

end SolidityLint
