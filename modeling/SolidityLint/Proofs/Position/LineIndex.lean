import Mathlib
import SolidityLint.Proofs.Position.Coordinates

/-!
# Position — the line index answers like the scans

The bisection of a line index cuts its line starts at an offset (`cut_startsUpTo`), so the index
finds the coordinates that a scan counts up to (`position_eq`).  The lines between the starts are
the lines that a scan splits the source into (`getElem?_splitLines`).

The way back differs from a scan at one kind of position only.  The offset of a position is a sum
of words; where the sum is past the largest word (`LineIndex.Wraps`) the answer is negative, while
a scan finds no such byte and answers the end of the source (`offset_eq_iff`, `offset_of_wraps`).

- `line_index_agrees_with_scans` — all of it in one statement.
-/

namespace SolidityLint

/-! ### The lines between the starts -/

/-- The bytes from `start` up to `stop`. -/
def between (source : List UInt8) (start stop : Nat) : List UInt8 := (source.take stop).drop start

/-- A line from its bytes in reverse order: a carriage return at its end is dropped. -/
def lineOfReversed : List UInt8 → List UInt8
  | b :: rest => if b == carriageReturn then rest.reverse else (b :: rest).reverse
  | [] => []

theorem splitLines_eq (source : List UInt8) :
    splitLines source = (splitLines.go source []).map lineOfReversed := by
  unfold splitLines
  refine List.map_congr_left fun line _ => ?_
  cases line <;> rfl

/-- The lines that are still to be split off, when `pre` has been read and the line that is being
read starts at `s`. -/
theorem getElem?_splitLines_go (bs pre line : List UInt8) (s n : Nat) (hs : s ≤ pre.length)
    (hline : line.reverse = pre.drop s) :
    let ts := s :: lineStartsAfter pre.length bs
    (splitLines.go bs line)[n]? =
      if n < ts.length then
        some (between (pre ++ bs) (ts.getD n 0)
          (lineStop ts (pre ++ bs).length (n + 1))).reverse
      else none := by
  induction bs generalizing pre line s n with
  | nil =>
      have whole : line = (between pre s pre.length).reverse := by
        rw [between, List.take_length, ← hline, List.reverse_reverse]
      cases n with
      | zero => simpa [splitLines.go, lineStartsAfter, lineStop] using whole
      | succ n => simp [splitLines.go, lineStartsAfter]
  | cons b bs ih =>
      have full : pre ++ b :: bs = (pre ++ [b]) ++ bs := by simp
      have len : (pre ++ [b]).length = pre.length + 1 := by simp
      rw [splitLines.go, lineStartsAfter]
      split
      · cases n with
        | zero =>
            have read : line = (between (pre ++ b :: bs) s pre.length).reverse := by
              rw [between, List.take_left, ← hline, List.reverse_reverse]
            simpa [lineStop] using read
        | succ n =>
            -- The line just read is split off; the next one starts behind its end.
            have next := ih (pre ++ [b]) [] (pre.length + 1) n (by simp) (by simp)
            rw [← full, len] at next
            simpa [lineStop] using next
      · have read : (b :: line).reverse = (pre ++ [b]).drop s := by
          rw [List.reverse_cons, hline, List.drop_append_of_le_length hs]
        have more := ih (pre ++ [b]) (b :: line) s n (by omega) read
        rwa [← full, len] at more

/-- Dropping the carriage return of a stretch moves its end by one byte. -/
theorem lineOfReversed_between {source : List UInt8} {start stop : Nat}
    (hstop : stop ≤ source.length) :
    lineOfReversed (between source start stop).reverse =
      if start < stop ∧ source[stop - 1]? = some carriageReturn then between source start (stop - 1)
      else between source start stop := by
  by_cases h : start < stop
  · obtain ⟨k, rfl⟩ : ∃ k, stop = k + 1 := ⟨stop - 1, by omega⟩
    have hk : k < source.length := hstop
    have last : between source start (k + 1) = between source start k ++ [source[k]] := by
      rw [between, List.take_succ_eq_append_getElem hk, List.drop_append_of_le_length, between]
      rw [List.length_take]
      omega
    rw [last, List.reverse_append, List.reverse_singleton, List.singleton_append, lineOfReversed,
      Nat.add_sub_cancel, List.getElem?_eq_getElem hk]
    by_cases hb : source[k] = carriageReturn
    · simp [hb, h]
    · simp [hb]
  · have empty : between source start stop = [] := by
      rw [between, List.drop_eq_nil_iff, List.length_take]
      omega
    rw [empty, if_neg (fun h' => h h'.1)]
    rfl

/-- The lines of a source lie between its line starts. -/
theorem getElem?_splitLines (source : List UInt8) (n : Nat) :
    (splitLines source)[n]? =
      if n < (lineStarts source).length then
        some (lineOfReversed (between source ((lineStarts source).getD n 0)
          (lineStop (lineStarts source) source.length (n + 1))).reverse)
      else none := by
  rw [splitLines_eq, List.getElem?_map]
  have := getElem?_splitLines_go source [] [] 0 n (Nat.le_refl 0) rfl
  change _ = if n < (lineStarts source).length then _ else _ at this
  by_cases h : n < (lineStarts source).length
  · rw [this, if_pos h, if_pos h]
    rfl
  · rw [this, if_neg h, if_neg h]
    rfl

theorem length_splitLines (source : List UInt8) :
    (splitLines source).length = (lineStarts source).length := by
  refine Nat.le_antisymm (Nat.le_of_not_lt fun h => ?_) (Nat.le_of_not_lt fun h => ?_)
  · have := getElem?_splitLines source (lineStarts source).length
    rw [if_neg (Nat.lt_irrefl _), List.getElem?_eq_none_iff] at this
    omega
  · have := getElem?_splitLines source (splitLines source).length
    rw [if_pos h, List.getElem?_eq_none (Nat.le_refl _)] at this
    exact absurd this (by simp)

/-! ### Asking the index -/

theorem getD_eq_getD_toList (a : Array Nat) (n : Nat) : a.getD n 0 = a.toList.getD n 0 := by
  rw [Array.getD_eq_getD_getElem?, ← Array.getElem?_toList, ← List.getD_eq_getElem?_getD]

/-- **Bisection.** With everything in front of `lo` up to the offset and everything from `hi` on
past it, the search ends where the starts are cut. -/
theorem cut_startsUpTo {starts : Array Nat} (inc : starts.toList.Pairwise (· < ·))
    {k lo hi : Nat} (hlo : lo ≤ hi) (hhi : hi ≤ starts.size)
    (below : ∀ j < lo, starts.toList.getD j 0 ≤ k)
    (above : ∀ j, hi ≤ j → j < starts.size → k < starts.toList.getD j 0) :
    Cut starts.toList k (LineIndex.startsUpTo starts k lo hi) := by
  fun_induction LineIndex.startsUpTo starts k lo hi with
  | case1 lo hi h mid hmid ih =>
      have lt : mid < hi := by omega
      rw [getD_eq_getD_toList] at hmid
      refine ih (by omega) (by omega) below fun j hj hlen => ?_
      rcases Nat.lt_or_eq_of_le hj with hj | rfl
      · exact Nat.lt_trans hmid (getD_lt_getD inc hj hlen)
      · exact hmid
  | case2 lo hi h mid hmid ih =>
      have lt : mid < starts.toList.length := by rw [Array.length_toList]; omega
      rw [getD_eq_getD_toList] at hmid
      refine ih (by omega) hhi (fun j hj => ?_) above
      rcases Nat.lt_or_eq_of_le (Nat.le_of_lt_succ hj) with hj | rfl
      · exact Nat.le_trans (Nat.le_of_lt (getD_lt_getD inc hj lt)) (Nat.le_of_not_lt hmid)
      · exact Nat.le_of_not_lt hmid
  | case3 lo hi h =>
      obtain rfl : lo = hi := Nat.le_antisymm hlo (Nat.le_of_not_lt h)
      exact ⟨hhi, below, above⟩

namespace LineIndex

/-- The bytes of the source. -/
def source (l : LineIndex) : List UInt8 := l.content.data.toList

theorem size_eq (l : LineIndex) : l.size = l.source.length := rfl

theorem lineCount_eq (l : LineIndex) : l.lineCount = (lineStarts l.source).length := by
  rw [lineCount, ← Array.length_toList, l.starts_eq]
  rfl

theorem getD_starts (l : LineIndex) (n : Nat) :
    l.starts.getD n 0 = (lineStarts l.source).getD n 0 := by
  rw [getD_eq_getD_toList, l.starts_eq]
  rfl

/-- **Positions of offsets.** The index finds what a scan counts up to. -/
theorem position_eq (l : LineIndex) (i : Int64) : l.position i = positionOfIndex i l.source := by
  have hk : clampOffset i l.size ≤ l.source.length := Nat.min_le_right _ _
  obtain ⟨c, cut, -, eq⟩ := exists_cut_coordinates hk
  have inc : l.starts.toList.Pairwise (· < ·) := l.starts_eq ▸ lineStarts_increasing l.source
  have found : Cut (lineStarts l.source) (clampOffset i l.size)
      (startsUpTo l.starts (clampOffset i l.size) 0 l.starts.size) := by
    have := cut_startsUpTo (k := clampOffset i l.size) inc (Nat.zero_le l.starts.size)
      (Nat.le_refl _) (fun j hj => absurd hj (Nat.not_lt_zero j)) fun j h h' => absurd h' (by omega)
    rwa [l.starts_eq] at this
  rw [positionOfIndex_eq, ← size_eq, eq, position, found.unique cut, getD_starts]

/-- The line number of one of the lines. -/
def HasLine (l : LineIndex) (n : Int64) : Prop := 1 ≤ n.toInt ∧ n.toInt ≤ l.lineCount

/-- The offset of the start of a line. -/
def lineStart (l : LineIndex) (n : Int64) : Nat :=
  (lineStarts l.source).getD (n.toInt.toNat - 1) 0

/-- The offset of the end of a line. -/
def lineEnd (l : LineIndex) (n : Int64) : Nat :=
  lineStop (lineStarts l.source) l.source.length n.toInt.toNat

theorem bounds?_of_hasLine {l : LineIndex} {n : Int64} (h : l.HasLine n) :
    l.bounds? n = some (l.lineStart n, l.lineEnd n) := by
  have inside : ¬ (n < 1 ∨ (l.starts.size : Int) < n.toInt) := by
    rw [Int64.lt_iff_toInt_lt]
    have := h.1
    have := h.2
    unfold lineCount at this
    simp only [Int64.toInt_one]
    omega
  rw [bounds?, if_neg inside]
  simp only [getD_starts, lineStart, lineEnd, lineStop, ← lineCount_eq, ← size_eq]
  rfl

theorem bounds?_of_not_hasLine {l : LineIndex} {n : Int64} (h : ¬ l.HasLine n) :
    l.bounds? n = none := by
  refine if_pos ?_
  rw [Int64.lt_iff_toInt_lt]
  unfold HasLine lineCount at h
  simp only [Int64.toInt_one]
  omega

theorem lineEnd_le (l : LineIndex) (n : Int64) : l.lineEnd n ≤ l.size := by
  unfold lineEnd lineStop
  split
  · exact Nat.le_trans (Nat.sub_le _ 1) (getD_lineStarts_le l.source _)
  · exact Nat.le_refl _

theorem slice_eq (l : LineIndex) (start stop : Nat) :
    l.slice start stop = (between l.source start stop).toByteArray := by
  apply ByteArray.ext
  apply Array.toList_inj.mp
  rw [slice, ByteArray.data_extract, Array.toList_extract, List.toList_data_toByteArray,
    List.extract_eq_take_drop, between, List.drop_take]
  rfl

theorem get!_eq_iff (l : LineIndex) {k : Nat} (hk : k < l.source.length) (b : UInt8) :
    l.content.get! k = b ↔ l.source[k]? = some b := by
  have get : l.content.get! k = l.source[k] := by
    change l.content.data[k]! = _
    rw [getElem!_pos]
    rfl
  rw [get, List.getElem?_eq_getElem hk, Option.some.injEq]

/-- **Lines.** A line of the index is the line of that number that a scan splits off. -/
theorem getElem?_splitLines_of_hasLine {l : LineIndex} {n : Int64} (h : l.HasLine n) :
    ∃ line, (splitLines l.source)[n.toInt.toNat - 1]? = some line ∧
      l.lineBytes n = line.toByteArray := by
  have pos := h.1
  have le := h.2
  have hn : n.toInt.toNat - 1 < (lineStarts l.source).length := by
    rw [← lineCount_eq]
    omega
  have succ : n.toInt.toNat - 1 + 1 = n.toInt.toNat := by omega
  have stop_le : l.lineEnd n ≤ l.source.length := l.lineEnd_le n
  refine ⟨_, (getElem?_splitLines l.source _).trans (if_pos hn), ?_⟩
  rw [succ, ← lineStart, ← lineEnd, lineOfReversed_between stop_le, lineBytes, bounds?_of_hasLine h]
  dsimp only
  split <;> rename_i hret
  · rw [if_pos ⟨hret.1, (l.get!_eq_iff (by omega) _).mp hret.2⟩]
    exact l.slice_eq _ _
  · rw [if_neg fun h' => hret ⟨h'.1, (l.get!_eq_iff (by omega) _).mpr h'.2⟩]
    exact l.slice_eq _ _

theorem lineBytes_of_not_hasLine {l : LineIndex} {n : Int64} (h : ¬ l.HasLine n) :
    l.lineBytes n = ByteArray.empty := by
  rw [lineBytes, bounds?_of_not_hasLine h]

/-! ### Offsets of positions -/

/-- The line exists and the character is counted from one, but the offset of the position is past
the largest word. -/
def Wraps (l : LineIndex) (p : Position) : Prop :=
  l.HasLine p.line ∧ 1 ≤ p.character.toInt ∧ 2 ^ 63 - 1 < l.lineStart p.line + p.character.toInt - 1

/-- Which byte has a position. -/
theorem is_coordinates_iff (l : LineIndex) (p : Position) {k : Nat} (hk : k ≤ l.source.length) :
    p.Is (coordinates l.source k) ↔
      l.HasLine p.line ∧ 1 ≤ p.character.toInt ∧
        (k : Int) = l.lineStart p.line + p.character.toInt - 1 ∧ k ≤ l.lineEnd p.line := by
  unfold HasLine lineStart lineEnd
  rw [lineCount_eq]
  constructor
  · rintro ⟨hline, hchar⟩
    obtain ⟨hn, hlen, hc, start, stop⟩ := (coordinates_eq_iff hk).mp (Prod.eta _).symm
    rw [← hline, ← hchar, Int.toNat_natCast]
    exact ⟨by omega, by omega, by omega, stop⟩
  · rintro ⟨⟨hn, hlen⟩, hc, start, stop⟩
    have : coordinates l.source k = (p.line.toInt.toNat, p.character.toInt.toNat) :=
      (coordinates_eq_iff hk).mpr ⟨by omega, by omega, by omega, by omega, stop⟩
    rw [this]
    exact ⟨Int.toNat_of_nonneg (by omega), Int.toNat_of_nonneg (by omega)⟩

/-- A sum of an offset and a character, as words: past the largest word it is negative. -/
theorem toInt_ofNat_add_sub_one {s : Nat} {c : Int64} (hs : s < 2 ^ 63) (hc : 1 ≤ c.toInt) :
    (Int64.ofNat s + c - 1).toInt =
      if s + c.toInt - 1 ≤ 2 ^ 63 - 1 then s + c.toInt - 1 else s + c.toInt - 1 - 2 ^ 64 := by
  have hlt := c.toInt_lt
  rw [Int64.toInt_sub, Int64.toInt_add, Int64.toInt_ofNat_of_lt hs, Int64.toInt_one]
  simp only [Int.bmod_def]
  split <;> omega

/-- The offset of a position on a line is the sum, if that is a byte of the line. -/
theorem offset_of_hasLine {l : LineIndex} (fits : l.size < 2 ^ 63) {p : Position}
    (hline : l.HasLine p.line) (hc : 1 ≤ p.character.toInt) :
    l.offset p =
      let sum := Int64.ofNat (l.lineStart p.line) + p.character - 1
      if sum.toInt ≤ l.lineEnd p.line ∧ sum.toInt < l.size then sum else Int64.ofNat l.size := by
  have stop_fits : l.lineEnd p.line < 2 ^ 63 := Nat.lt_of_le_of_lt (l.lineEnd_le _) fits
  have pos : ¬ p.character < 1 := by
    rw [Int64.lt_iff_toInt_lt, Int64.toInt_one]
    omega
  unfold offset
  rw [bounds?_of_hasLine hline]
  dsimp only
  rw [if_neg pos]
  simp only [Bool.or_eq_true, decide_eq_true_eq, gt_iff_lt, ge_iff_le, Int64.lt_iff_toInt_lt,
    Int64.le_iff_toInt_le, Int64.toInt_ofNat_of_lt fits, Int64.toInt_ofNat_of_lt stop_fits]
  generalize Int64.ofNat (l.lineStart p.line) + p.character - 1 = sum
  by_cases inside : sum.toInt ≤ l.lineEnd p.line ∧ sum.toInt < l.size
  · rw [if_pos inside, if_neg (by omega)]
  · rw [if_neg inside, if_pos (by omega)]

theorem offset_of_not_hasLine {l : LineIndex} {p : Position}
    (h : ¬ (l.HasLine p.line ∧ 1 ≤ p.character.toInt)) : l.offset p = Int64.ofNat l.size := by
  unfold offset
  by_cases hline : l.HasLine p.line
  · rw [bounds?_of_hasLine hline]
    dsimp only
    refine if_pos ?_
    rw [Int64.lt_iff_toInt_lt, Int64.toInt_one]
    exact Int.not_le.mp fun hc => h ⟨hline, hc⟩
  · rw [bounds?_of_not_hasLine hline]

theorem lineStart_fits {l : LineIndex} (fits : l.size < 2 ^ 63) (n : Int64) :
    l.lineStart n < 2 ^ 63 :=
  Nat.lt_of_le_of_lt (getD_lineStarts_le l.source _) fits

/-- Where the sum of line start and character is a word, the index finds what a scan finds. -/
theorem offset_of_not_wraps {l : LineIndex} (fits : l.size < 2 ^ 63) {p : Position}
    (h : ¬ l.Wraps p) : l.offset p = Int64.ofNat (indexOfPosition p l.source) := by
  by_cases here : l.HasLine p.line ∧ 1 ≤ p.character.toInt
  · obtain ⟨hline, hc⟩ := here
    have sum := toInt_ofNat_add_sub_one (lineStart_fits fits p.line) hc
    rw [if_pos (Int.not_lt.mp fun lt => h ⟨hline, hc, lt⟩)] at sum
    rw [offset_of_hasLine fits hline hc]
    dsimp only
    by_cases inside :
        (Int64.ofNat (l.lineStart p.line) + p.character - 1).toInt ≤ l.lineEnd p.line ∧
          (Int64.ofNat (l.lineStart p.line) + p.character - 1).toInt < l.size
    · -- The sum is the offset of a byte of the line, which has the position.
      obtain ⟨k, hk⟩ : ∃ k : Nat, (k : Int) = l.lineStart p.line + p.character.toInt - 1 :=
        ⟨_, Int.toNat_of_nonneg (by omega)⟩
      have lt : k < l.source.length := by rw [← size_eq]; omega
      have found : indexOfPosition p l.source = k :=
        indexOfPosition_of_coordinates lt
          ((l.is_coordinates_iff p (Nat.le_of_lt lt)).mpr ⟨hline, hc, hk, by omega⟩)
      rw [if_pos inside, found]
      apply Int64.toInt_inj.mp
      rw [sum, Int64.toInt_ofNat_of_lt (Nat.lt_trans lt fits), hk]
    · -- The sum is past the line or the source, so no byte has the position.
      rw [if_neg inside, indexOfPosition_of_ne fun k lt is => inside ?_, size_eq]
      obtain ⟨-, -, hk, stop⟩ := (l.is_coordinates_iff p (Nat.le_of_lt lt)).mp is
      rw [size_eq]
      omega
  · rw [offset_of_not_hasLine here, indexOfPosition_of_ne fun k lt is => here ?_, size_eq]
    obtain ⟨hline, hc, -⟩ := (l.is_coordinates_iff p (Nat.le_of_lt lt)).mp is
    exact ⟨hline, hc⟩

/-- Where the sum is past the largest word, the index answers below zero and a scan the end of the
source. -/
theorem offset_of_wraps {l : LineIndex} (fits : l.size < 2 ^ 63) {p : Position} (h : l.Wraps p) :
    l.offset p < 0 ∧ indexOfPosition p l.source = l.size := by
  obtain ⟨hline, hc, past⟩ := h
  have sum := toInt_ofNat_add_sub_one (lineStart_fits fits p.line) hc
  rw [if_neg (Int.not_le.mpr past)] at sum
  have start := lineStart_fits fits p.line
  have char := p.character.toInt_lt
  constructor
  · rw [offset_of_hasLine fits hline hc]
    dsimp only
    rw [if_pos (by omega), Int64.lt_iff_toInt_lt, sum, Int64.toInt_zero]
    omega
  · refine indexOfPosition_of_ne fun k lt is => ?_
    obtain ⟨-, -, hk, -⟩ := (l.is_coordinates_iff p (Nat.le_of_lt lt)).mp is
    rw [← size_eq] at lt
    omega

theorem offset_eq_iff {l : LineIndex} (fits : l.size < 2 ^ 63) (p : Position) :
    l.offset p = Int64.ofNat (indexOfPosition p l.source) ↔ ¬ l.Wraps p := by
  refine ⟨fun eq wraps => ?_, offset_of_not_wraps fits⟩
  obtain ⟨neg, index⟩ := offset_of_wraps fits wraps
  rw [eq, index, Int64.lt_iff_toInt_lt, Int64.toInt_ofNat_of_lt fits, Int64.toInt_zero] at neg
  omega

theorem lineText_of_not_hasLine {l : LineIndex} {n : Int64} (h : ¬ l.HasLine n) :
    l.lineText n = "" := by
  rw [lineText, lineBytes_of_not_hasLine h]
  rfl

end LineIndex

/-- **The line index agrees with the scans.** For every source that fits in memory: positions of
offsets are those of a scan, the lines are those that a scan splits off, and offsets of positions
are those of a scan except exactly where the sum of line start and character wraps. -/
theorem line_index_agrees_with_scans (l : LineIndex) (fits : l.size < 2 ^ 63) :
    (∀ i : Int64, l.position i = positionOfIndex i l.source) ∧
    l.lineCount = (splitLines l.source).length ∧
    (∀ n : Int64, l.HasLine n →
      ∃ line, (splitLines l.source)[n.toInt.toNat - 1]? = some line ∧
        l.lineBytes n = line.toByteArray ∧ l.lineText n = textOfBytes line.toByteArray) ∧
    (∀ n : Int64, ¬ l.HasLine n → l.lineText n = "") ∧
    (∀ p : Position,
      (l.offset p = Int64.ofNat (indexOfPosition p l.source) ↔ ¬ l.Wraps p) ∧
      (l.Wraps p → l.offset p < 0 ∧ indexOfPosition p l.source = l.size)) := by
  refine ⟨l.position_eq, ?_, fun n h => ?_, fun n => LineIndex.lineText_of_not_hasLine, fun p =>
    ⟨LineIndex.offset_eq_iff fits p, LineIndex.offset_of_wraps fits⟩⟩
  · rw [l.lineCount_eq, length_splitLines]
  · obtain ⟨line, mem, eq⟩ := LineIndex.getElem?_splitLines_of_hasLine h
    exact ⟨line, mem, eq, congrArg textOfBytes eq⟩

/-- The lines `a` and `bc`, the first ended by a carriage return and a newline. -/
def twoLines : LineIndex := .ofBytes ⟨#[0x61, carriageReturn, newline, 0x62, 0x63]⟩

/-- On the second line the largest character wraps, and the second does not. -/
theorem line_index_agrees_with_scans_at_limit :
    twoLines.size < 2 ^ 63 ∧ twoLines.Wraps ⟨2, Int64.maxValue⟩ ∧
    twoLines.offset ⟨2, Int64.maxValue⟩ < 0 ∧
    indexOfPosition ⟨2, Int64.maxValue⟩ twoLines.source = twoLines.size ∧
    ¬ twoLines.Wraps ⟨2, 2⟩ ∧
    twoLines.offset ⟨2, 2⟩ = Int64.ofNat (indexOfPosition ⟨2, 2⟩ twoLines.source) ∧
    twoLines.position 4 = positionOfIndex 4 twoLines.source := by
  have fits : twoLines.size < 2 ^ 63 := by decide
  have wraps : twoLines.Wraps ⟨2, Int64.maxValue⟩ :=
    ⟨⟨by decide, by decide⟩, by decide, by decide⟩
  have inside : ¬ twoLines.Wraps ⟨2, 2⟩ := fun h => absurd h.2.2 (by decide)
  obtain ⟨positions, -, -, -, offsets⟩ := line_index_agrees_with_scans twoLines fits
  obtain ⟨neg, index⟩ := (offsets ⟨2, Int64.maxValue⟩).2 wraps
  exact ⟨fits, wraps, neg, index, inside, (offsets ⟨2, 2⟩).1.mpr inside, positions 4⟩

end SolidityLint
