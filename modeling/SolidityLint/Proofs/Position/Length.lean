import SolidityLint.Proofs.Position.Correspondence

/-!
# Position — the length of a range

A source is the sum of its lines and of the bytes that end them, so the offset of a line is the
length of the lines in front of it (`getD_lineStartsAfter`).  The length of a range is summed up from
lines that have lost the carriage returns at their ends, while offsets count these; and its first
line is counted from one and the others from zero, which makes up for the end of the range being
counted from one as well (`toInt_acrossLines`).

* `range_length_between_offsets`: between two offsets the length is their distance less one for each
  line crossed that ends in a carriage return, and it is never cut off at zero.
-/

namespace SolidityLint

/-! ### Lines with their returns -/

/-- The lines of a source, with the carriage returns at their ends. -/
def rawLines (source : List UInt8) : List (List UInt8) := source.splitOn newline

/-- Does a line end in a carriage return? -/
def endsInReturn (line : List UInt8) : Bool := line.getLast? == some carriageReturn

/-- The offset of a line is the length of the lines in front of it, each with the byte that ends
it. -/
theorem getD_lineStartsAfter (bs : List UInt8) (i n : Nat) (hn : n < (rawLines bs).length) :
    (i :: lineStartsAfter i bs).getD n 0 =
      i + sumOf (((rawLines bs).take n).map fun line => line.length + 1) := by
  induction bs generalizing i n with
  | nil =>
      obtain rfl : n = 0 := by simpa [rawLines] using hn
      rfl
  | cons b bs ih =>
      unfold rawLines at hn ih ⊢
      rw [List.splitOn_cons_eq_if_modifyHead] at hn ⊢
      rw [lineStartsAfter]
      cases n with
      | zero => simp [sumOf]
      | succ n =>
          -- A newline ends the first line; any other byte makes it longer.
          by_cases hb : b == newline
          · rw [if_pos hb] at hn ⊢
            rw [if_pos hb, List.getD_cons_succ, ih (i + 1) n (by simpa using hn)]
            simp only [List.take_succ_cons, List.map_cons, sumOf, List.length_nil]
            omega
          · rw [if_neg hb] at hn ⊢
            rw [if_neg hb, List.getD_cons_succ]
            rw [List.length_modifyHead] at hn
            have later := ih (i + 1) (n + 1) hn
            rw [List.getD_cons_succ] at later
            rw [later]
            cases split : bs.splitOn newline with
            | nil => exact absurd split (List.splitOn_ne_nil _ _)
            | cons line lines =>
                simp only [List.modifyHead, List.take_succ_cons, List.map_cons, sumOf,
                  List.length_cons]
                omega

/-- A line without the carriage return at its end. -/
def withoutReturn (line : List UInt8) : List UInt8 :=
  if endsInReturn line then line.dropLast else line

theorem lineOfReversed_eq (line : List UInt8) :
    lineOfReversed line = withoutReturn line.reverse := by
  cases line with
  | nil => rfl
  | cons b rest => simp [lineOfReversed, withoutReturn, endsInReturn]

/-- The lines that a source is split into are its lines without their carriage returns. -/
theorem splitLines_eq_map (source : List UInt8) :
    splitLines source = (rawLines source).map withoutReturn := by
  have split (bs line : List UInt8) : (splitLines.go bs line).map List.reverse =
      List.splitOnPPrepend (· == newline) bs line := by
    induction bs generalizing line with
    | nil => rfl
    | cons b bs ih =>
        rw [splitLines.go, List.splitOnPPrepend]
        split
        · rw [List.map_cons, ih]
        · exact ih (b :: line)
  have raw : rawLines source = (splitLines.go source []).map List.reverse := (split source []).symm
  rw [splitLines_eq, raw, List.map_map]
  exact List.map_congr_left fun line _ => lineOfReversed_eq line

theorem length_rawLines (source : List UInt8) :
    (rawLines source).length = (lineStarts source).length := by
  rw [← length_splitLines, splitLines_eq_map, List.length_map]

/-- Of each line that ends in a carriage return this one is not counted. -/
theorem sum_length_withoutReturn (lines : List (List UInt8)) :
    sumOf (lines.map fun line => (withoutReturn line).length) + lines.countP endsInReturn =
      sumOf (lines.map List.length) := by
  induction lines with
  | nil => rfl
  | cons line lines ih =>
      rw [List.map_cons, sumOf, List.map_cons, sumOf, List.countP_cons, ← ih]
      by_cases ends : endsInReturn line
      · have some : line ≠ [] := by
          rintro rfl
          cases ends
        have := List.length_pos_iff.mpr some
        rw [withoutReturn, if_pos ends, if_pos ends, List.length_dropLast]
        omega
      · rw [withoutReturn, if_neg ends, if_neg ends]
        omega

/-! ### Lines between two others -/

/-- The lines of a source from one number up to another, counted from one. -/
def linesBetween (source : List UInt8) (first last : Nat) : List (List UInt8) :=
  ((rawLines source).take (last - 1)).drop (first - 1)

/-- What is numbered from `n` on and has a number between two others. -/
theorem filter_zipIdx {α : Type} (xs : List α) (first last n : Nat) :
    ((xs.zipIdx n).filter fun (_, k) => (first : Int) ≤ (k : Int) && (k : Int) < last).map (·.1) =
      (xs.take (last - n)).drop (first - n) := by
  induction xs generalizing n with
  | nil => simp
  | cons x xs ih =>
      rw [List.zipIdx_cons, List.filter_cons]
      by_cases below : n < last
      · have more : last - n = last - (n + 1) + 1 := by omega
        rw [more, List.take_succ_cons]
        by_cases above : first ≤ n
        · have here : first - n = 0 := by omega
          have next : first - (n + 1) = 0 := by omega
          rw [if_pos (by simp; omega), List.map_cons, ih, here, next]
          rfl
        · have later : first - n = first - (n + 1) + 1 := by omega
          rw [if_neg (by simp; omega), ih, later, List.drop_succ_cons]
      · have none : last - n = 0 := by omega
        have next : last - (n + 1) = 0 := by omega
        rw [if_neg (by simp; omega), ih, none, next]
        simp

/-- The lines looked for by number are those between, without their carriage returns. -/
theorem sumOf_filter_splitLines (source : List UInt8) (first last : Nat) :
    sumOf ((((splitLines source).zipIdx 1).filter fun (_, k) =>
        (first : Int) ≤ (k : Int) && (k : Int) < last).map (·.1.length)) =
      sumOf ((linesBetween source first last).map fun line => (withoutReturn line).length) := by
  have lengths (xs : List (List UInt8 × Nat)) :
      xs.map (·.1.length) = (xs.map (·.1)).map List.length := by
    rw [List.map_map]
    rfl
  rw [lengths, filter_zipIdx, splitLines_eq_map, ← List.map_take, ← List.map_drop, List.map_map]
  rfl

/-- From the start of one line to the start of another there are the lines between them, each with
the byte that ends it. -/
theorem sum_length_linesBetween {source : List UInt8} {first last : Nat} (pos : 0 < first)
    (le : first ≤ last) (hlast : last ≤ (rawLines source).length) :
    (lineStarts source).getD (first - 1) 0 +
        sumOf ((linesBetween source first last).map List.length) + (last - first) =
      (lineStarts source).getD (last - 1) 0 := by
  have start (n : Nat) (hn : n < (rawLines source).length) :
      (lineStarts source).getD n 0 =
        sumOf (((rawLines source).take n).map fun line => line.length + 1) := by
    rw [lineStarts, getD_lineStartsAfter source 0 n hn, Nat.zero_add]
  have ends (lines : List (List UInt8)) : sumOf (lines.map fun line => line.length + 1) =
      sumOf (lines.map List.length) + lines.length := by
    induction lines with
    | nil => rfl
    | cons line lines ih =>
        simp only [List.map_cons, sumOf, List.length_cons, ih]
        omega
  have front : ((rawLines source).take (last - 1)).take (first - 1) =
      (rawLines source).take (first - 1) := by
    rw [List.take_take, Nat.min_eq_left (by omega)]
  have split : (rawLines source).take (last - 1) =
      (rawLines source).take (first - 1) ++ linesBetween source first last := by
    rw [linesBetween, ← front, List.take_append_drop]
  have count : (linesBetween source first last).length = last - first := by
    rw [linesBetween, List.length_drop, List.length_take]
    omega
  rw [start _ (by omega), start _ (by omega), split, List.map_append, sumOf_append,
    ends (linesBetween source first last), count, Nat.add_assoc]

/-! ### Ranges between offsets -/

/-- The lines that a range goes across: from that of its start up to, but without, that of its
end. -/
def Range.crossed (r : Range) (source : List UInt8) : List (List UInt8) :=
  linesBetween source r.start.line.toInt.toNat r.stop.line.toInt.toNat

section

variable {source : List UInt8} (fits : source.length < 2 ^ 63 - 1)

include fits

/-- **Across lines.**  The sum is the distance of the offsets without the carriage returns. -/
theorem toInt_acrossLines {i j : Nat} (le : i ≤ j) (hj : j ≤ source.length) :
    let r : Range := ⟨positionAt source i, positionAt source j⟩
    (r.acrossLines source).toInt = (j : Int) - i - (r.crossed source).countP endsInReturn := by
  intro r
  have hi : i ≤ source.length := Nat.le_trans le hj
  obtain ⟨linei, characteri⟩ := coordinates_fit fits hi
  obtain ⟨linej, characterj⟩ := coordinates_fit fits hj
  obtain ⟨posi, leni, -, starti, -⟩ := (coordinates_eq_iff hi).mp (Prod.eta _).symm
  obtain ⟨posj, lenj, -, startj, -⟩ := (coordinates_eq_iff hj).mp (Prod.eta _).symm
  have order := coordinates_le le hj
  have lines : r = ⟨.ofNat (coordinates source i).1 (coordinates source i).2,
      .ofNat (coordinates source j).1 (coordinates source j).2⟩ := by
    rw [← positionAt_eq fits hi, ← positionAt_eq fits hj]
  -- From here on only lines and characters matter: `starti` and `startj` give the offsets by them.
  generalize coordinates source i = first at *
  generalize coordinates source j = last at *
  rw [lines]
  simp only [Range.acrossLines, Range.crossed, Position.ofNat, Int64.toInt_ofNat_of_lt linei,
    Int64.toInt_ofNat_of_lt linej, Int.toNat_natCast]
  rw [sumOf_filter_splitLines]
  have enough : last.1 ≤ (rawLines source).length := length_rawLines source ▸ lenj
  have reach := sum_length_linesBetween posi (show first.1 ≤ last.1 by omega) enough
  have returns := sum_length_withoutReturn (linesBetween source first.1 last.1)
  generalize List.countP endsInReturn (linesBetween source first.1 last.1) = k at *
  generalize sumOf ((linesBetween source first.1 last.1).map List.length) = whole at *
  generalize sumOf ((linesBetween source first.1 last.1).map fun line =>
    (withoutReturn line).length) = full at *
  rw [← Int64.ofInt_eq_ofNat, ← Int64.ofInt_eq_ofNat, ← Int64.ofInt_sub, ← Int64.ofInt_add,
    Int64.toInt_ofInt_of_le (by omega) (by omega)]
  omega

/-- No more lines are crossed than bytes. -/
theorem countP_crossed_le {i j : Nat} (le : i ≤ j) (hj : j ≤ source.length) :
    ((Range.mk (positionAt source i) (positionAt source j)).crossed source).countP endsInReturn ≤
      j - i := by
  have hi : i ≤ source.length := Nat.le_trans le hj
  obtain ⟨linei, -⟩ := coordinates_fit fits hi
  obtain ⟨linej, -⟩ := coordinates_fit fits hj
  have steps : (coordinates source j).1 ≤ (coordinates source i).1 + (j - i) := by
    obtain ⟨d, rfl⟩ := Nat.exists_eq_add_of_le le
    unfold coordinates
    rw [scan_add, Nat.add_sub_cancel_left]
    exact (scan_le ..).1
  refine Nat.le_trans List.countP_le_length ?_
  rw [positionAt_eq fits hi, positionAt_eq fits hj]
  simp only [Range.crossed, linesBetween, Position.ofNat, Int64.toInt_ofNat_of_lt linei,
    Int64.toInt_ofNat_of_lt linej, Int.toNat_natCast, List.length_drop, List.length_take]
  omega

end

namespace Range

variable (r : Range) (source : List UInt8)

theorem acrossLines_of_line_eq (h : r.start.line = r.stop.line) :
    r.acrossLines source = r.stop.character - r.start.character := by
  have none : ((splitLines source).zipIdx 1).filter (fun (_, n) =>
      r.stop.line.toInt ≤ (n : Int) && (n : Int) < r.stop.line.toInt) = [] :=
    List.filter_eq_nil_iff.mpr fun _ _ => by simp
  simp only [acrossLines, h, none, List.map_nil, sumOf, Int.sub_self]
  change 0 - r.start.character + r.stop.character = _
  rw [Int64.zero_sub, Int64.add_comm, ← Int64.sub_eq_add_neg]

/-- The length is the sum of the lines crossed, unless this is negative. -/
theorem length_of_nonneg (h : 0 ≤ r.acrossLines source) :
    r.length source = r.acrossLines source := by
  unfold length
  by_cases line : r.start.line = r.stop.line
  · rw [if_pos (beq_iff_eq.mpr line), acrossLines_of_line_eq r source line]
  · rw [if_neg (by simpa using line)]
    exact if_neg (Int64.not_lt.mpr h)

end Range

/-- **The length between two offsets.**  It is their distance less one for each line crossed that
ends in a carriage return, and so the distance itself exactly when no such line is crossed; that a
negative sum counts as zero never matters. -/
theorem range_length_between_offsets (source : List UInt8) (fits : source.length < 2 ^ 63 - 1)
    (i j : Nat) (le : i ≤ j) (hj : j ≤ source.length) :
    let r : Range := ⟨positionAt source i, positionAt source j⟩
    let returns := (r.crossed source).countP endsInReturn
    (r.length source).toInt = (j - i) - returns ∧
    ((r.length source).toInt = j - i ↔ ∀ line ∈ r.crossed source, ¬ endsInReturn line) ∧
    0 ≤ r.acrossLines source ∧ r.length source = r.acrossLines source := by
  intro r returns
  have sum : (r.acrossLines source).toInt = (j : Int) - i - returns := toInt_acrossLines fits le hj
  have few : returns ≤ j - i := countP_crossed_le fits le hj
  have nonneg : 0 ≤ r.acrossLines source := by
    rw [Int64.le_iff_toInt_le, Int64.toInt_zero]
    omega
  have length := r.length_of_nonneg source nonneg
  have none : returns = 0 ↔ ∀ line ∈ r.crossed source, ¬ endsInReturn line := List.countP_eq_zero
  refine ⟨length ▸ sum, ?_, nonneg, length⟩
  rw [length, sum, ← none]
  omega

/-- From the carriage return to `c` there are three bytes, and two of them count. -/
theorem range_length_between_offsets_twoLines :
    let source := twoLines.source
    let r : Range := ⟨positionAt source 1, positionAt source 4⟩
    source.length < 2 ^ 63 - 1 ∧ r = ⟨⟨1, 2⟩, ⟨2, 2⟩⟩ ∧ (r.length source).toInt = 2 ∧
    ¬ ∀ line ∈ r.crossed source, ¬ endsInReturn line := by
  intro source r
  have fits : source.length < 2 ^ 63 - 1 := by decide
  have returns : (r.crossed source).countP endsInReturn = 1 := rfl
  obtain ⟨length, whole, -⟩ :=
    range_length_between_offsets source fits 1 4 (by decide) (by decide)
  have two : (r.length source).toInt = 2 := by
    rw [length, returns]
    rfl
  refine ⟨fits, rfl, two, fun none => ?_⟩
  have three := whole.mpr none
  rw [two] at three
  exact absurd three (by decide)

end SolidityLint
