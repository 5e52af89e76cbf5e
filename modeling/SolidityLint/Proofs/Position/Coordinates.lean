import SolidityLint.Position.LineIndex

/-!
# Position — coordinates of an offset

Both plain scans number the bytes of a source in the same way: `coordinates source k` is the line
and the character that a scan has reached after `k` bytes.  Converting an offset reads them off
(`positionOfIndex_eq`), and converting a position looks for the one offset that has them
(`indexOfPosition_of_coordinates`, `indexOfPosition_of_ne`).

The coordinates are determined by the line starts.  The starts increase, so each offset cuts them
into those up to it and those past it (`Cut`), and

- the line of an offset is the number of starts up to it, and its character the distance from the
  last of them (`exists_cut_coordinates`);
- the offsets with given coordinates are those between the start and the end of that line at that
  distance (`coordinates_eq_iff`).
-/

namespace SolidityLint

/-! ### Scanning by bytes -/

/-- The line and the character reached from `line` and `character` after `m` bytes. -/
def scan : List UInt8 → Nat → Nat → Nat → Nat × Nat
  | [], _, line, character => (line, character)
  | _ :: _, 0, line, character => (line, character)
  | b :: bs, m + 1, line, character =>
      if b == newline then scan bs m (line + 1) 1 else scan bs m line (character + 1)

/-- The line and the character of an offset, counted from one. -/
def coordinates (source : List UInt8) (k : Nat) : Nat × Nat := scan source k 1 1

@[simp]
theorem scan_zero (bs : List UInt8) (line character : Nat) :
    scan bs 0 line character = (line, character) := by
  cases bs <;> rfl

/-- A scan never goes back to an earlier line, and within a line it counts the bytes. -/
theorem scan_advances (bs : List UInt8) (m line character : Nat) (hm : m ≤ bs.length) :
    line < (scan bs m line character).1 ∨ scan bs m line character = (line, character + m) := by
  induction bs generalizing m line character with
  | nil =>
      obtain rfl : m = 0 := by simpa using hm
      exact Or.inr rfl
  | cons b bs ih =>
      cases m with
      | zero => exact Or.inr rfl
      | succ m =>
          have hm' : m ≤ bs.length := by simpa using hm
          rw [scan]
          split
          · rcases ih m (line + 1) 1 hm' with h | h
            · exact Or.inl (by omega)
            · exact Or.inl (by simp [h])
          · rcases ih m line (character + 1) hm' with h | h
            · exact Or.inl h
            · exact Or.inr (by rw [h]; congr 1; omega)

theorem positionOfIndex_go_take (bs : List UInt8) (m line character : Nat) :
    positionOfIndex.go (bs.take m) line character
      = .ofNat (scan bs m line character).1 (scan bs m line character).2 := by
  induction bs generalizing m line character with
  | nil => simp [positionOfIndex.go, scan]
  | cons b bs ih =>
      cases m with
      | zero => simp [positionOfIndex.go]
      | succ m =>
          rw [List.take_succ_cons, positionOfIndex.go, scan]
          split
          · exact ih m (line + 1) 1
          · exact ih m line (character + 1)

/-- The position of an offset is its coordinates. -/
theorem positionOfIndex_eq (i : Int64) (source : List UInt8) :
    positionOfIndex i source
      = .ofNat (coordinates source (clampOffset i source.length)).1
          (coordinates source (clampOffset i source.length)).2 :=
  positionOfIndex_go_take source _ 1 1

/-- Are these the line and the character of the position? -/
def Position.Is (p : Position) (place : Nat × Nat) : Prop :=
  (place.1 : Int) = p.line.toInt ∧ (place.2 : Int) = p.character.toInt

theorem indexOfPosition_go_of_scan {p : Position} (bs : List UInt8) (i m line character : Nat)
    (hm : m < bs.length) (h : p.Is (scan bs m line character)) :
    indexOfPosition.go p bs i line character = i + m := by
  induction bs generalizing i m line character with
  | nil => simp at hm
  | cons b bs ih =>
      rw [indexOfPosition.go]
      cases m with
      | zero => exact if_pos h
      | succ m =>
          -- The numbers seen so far are smaller, so the scan does not stop here.
          have past : ¬ ((line : Int) = p.line.toInt ∧ (character : Int) = p.character.toInt) := by
            rintro ⟨hl, hc⟩
            obtain ⟨hl', hc'⟩ := h
            rcases scan_advances (b :: bs) (m + 1) line character (Nat.le_of_lt hm) with lt | eq
            · omega
            · rw [eq] at hc'
              have : ((character + (m + 1) : Nat) : Int) = p.character.toInt := hc'
              omega
          have hm' : m < bs.length := by simpa using hm
          rw [if_neg past]
          rw [scan] at h
          split
          · rename_i hb
            rw [if_pos hb] at h
            rw [ih (i + 1) m (line + 1) 1 hm' h]
            omega
          · rename_i hb
            rw [if_neg hb] at h
            rw [ih (i + 1) m line (character + 1) hm' h]
            omega

theorem indexOfPosition_go_of_ne {p : Position} (bs : List UInt8) (i line character : Nat)
    (h : ∀ m < bs.length, ¬ p.Is (scan bs m line character)) :
    indexOfPosition.go p bs i line character = i + bs.length := by
  induction bs generalizing i line character with
  | nil => rfl
  | cons b bs ih =>
      have here : ¬ ((line : Int) = p.line.toInt ∧ (character : Int) = p.character.toInt) :=
        h 0 (by simp)
      rw [indexOfPosition.go, if_neg here, List.length_cons]
      split
      · rename_i hb
        rw [ih (i + 1) (line + 1) 1 fun m hm => ?_]
        · omega
        · have := h (m + 1) (by simpa using hm)
          rwa [scan, if_pos hb] at this
      · rename_i hb
        rw [ih (i + 1) line (character + 1) fun m hm => ?_]
        · omega
        · have := h (m + 1) (by simpa using hm)
          rwa [scan, if_neg hb] at this

/-- A position that some byte has is found at that byte. -/
theorem indexOfPosition_of_coordinates {p : Position} {source : List UInt8} {k : Nat}
    (hk : k < source.length) (h : p.Is (coordinates source k)) :
    indexOfPosition p source = k := by
  have := indexOfPosition_go_of_scan source 0 k 1 1 hk h
  rwa [Nat.zero_add] at this

/-- A position that no byte has is taken to the end of the source. -/
theorem indexOfPosition_of_ne {p : Position} {source : List UInt8}
    (h : ∀ k < source.length, ¬ p.Is (coordinates source k)) :
    indexOfPosition p source = source.length := by
  have := indexOfPosition_go_of_ne source 0 1 1 h
  rwa [Nat.zero_add] at this

/-! ### Line starts -/

theorem getD_lt_getD {ts : List Nat} (inc : ts.Pairwise (· < ·)) {i j : Nat} (hij : i < j)
    (hj : j < ts.length) : ts.getD i 0 < ts.getD j 0 := by
  have hi : i < ts.length := Nat.lt_trans hij hj
  rw [List.getD_eq_getElem?_getD, List.getD_eq_getElem?_getD, List.getElem?_eq_getElem hj,
    List.getElem?_eq_getElem hi]
  exact List.pairwise_iff_getElem.mp inc i j hi hj hij

/-- The first `c` numbers are up to `k`, and all others past it. -/
structure Cut (ts : List Nat) (k c : Nat) : Prop where
  le_length : c ≤ ts.length
  below : ∀ j < c, ts.getD j 0 ≤ k
  above : ∀ j, c ≤ j → j < ts.length → k < ts.getD j 0

namespace Cut

/-- A list is cut at one place. -/
theorem unique {ts : List Nat} {k c c' : Nat} (h : Cut ts k c) (h' : Cut ts k c') : c = c' := by
  rcases Nat.lt_trichotomy c c' with lt | eq | lt
  · have := h.above c (Nat.le_refl c) (Nat.lt_of_lt_of_le lt h'.le_length)
    have := h'.below c lt
    omega
  · exact eq
  · have := h'.above c' (Nat.le_refl c') (Nat.lt_of_lt_of_le lt h.le_length)
    have := h.below c' lt
    omega

theorem cons {ts : List Nat} {k c t : Nat} (ht : t ≤ k) (h : Cut ts k c) :
    Cut (t :: ts) k (c + 1) where
  le_length := Nat.succ_le_succ h.le_length
  below j hj := by
    cases j with
    | zero => simpa using ht
    | succ j => simpa using h.below j (by omega)
  above j hj hlen := by
    cases j with
    | zero => omega
    | succ j => simpa using h.above j (by omega) (by simpa using hlen)

theorem zero {ts : List Nat} {k : Nat} (h : ∀ t ∈ ts, k < t) : Cut ts k 0 where
  le_length := Nat.zero_le _
  below _ hj := absurd hj (Nat.not_lt_zero _)
  above j _ hlen := by
    rw [List.getD_eq_getElem?_getD, List.getElem?_eq_getElem hlen]
    exact h _ (List.getElem_mem hlen)

/-- In an increasing list the cut shows at its two sides. -/
theorem of_sides {ts : List Nat} {k c : Nat} (inc : ts.Pairwise (· < ·)) (pos : 0 < c)
    (hc : c ≤ ts.length) (below : ts.getD (c - 1) 0 ≤ k)
    (above : c < ts.length → k < ts.getD c 0) : Cut ts k c where
  le_length := hc
  below j hj := by
    rcases Nat.lt_or_eq_of_le (Nat.le_sub_one_of_lt hj) with lt | rfl
    · exact Nat.le_of_lt (Nat.lt_of_lt_of_le (getD_lt_getD inc lt (by omega)) below)
    · exact below
  above j hj hlen := by
    rcases Nat.lt_or_eq_of_le hj with lt | rfl
    · exact Nat.lt_trans (above (by omega)) (getD_lt_getD inc lt hlen)
    · exact above hlen

end Cut

/-- The starts past an offset lie behind it, up to the end of the source. -/
theorem mem_lineStartsAfter {i t : Nat} {bs : List UInt8} (h : t ∈ lineStartsAfter i bs) :
    i < t ∧ t ≤ i + bs.length := by
  induction bs generalizing i with
  | nil => exact absurd h List.not_mem_nil
  | cons b bs ih =>
      have hlen : (b :: bs).length = bs.length + 1 := rfl
      rw [lineStartsAfter] at h
      split at h
      · rcases List.mem_cons.mp h with rfl | h
        · omega
        · have := ih h
          omega
      · have := ih h
        omega

theorem lineStartsAfter_increasing (i : Nat) (bs : List UInt8) :
    (lineStartsAfter i bs).Pairwise (· < ·) := by
  induction bs generalizing i with
  | nil => exact List.Pairwise.nil
  | cons b bs ih =>
      rw [lineStartsAfter]
      split
      · exact List.pairwise_cons.mpr ⟨fun t ht => (mem_lineStartsAfter ht).1, ih (i + 1)⟩
      · exact ih (i + 1)

theorem lineStarts_increasing (source : List UInt8) : (lineStarts source).Pairwise (· < ·) :=
  List.pairwise_cons.mpr
    ⟨fun _ ht => (mem_lineStartsAfter ht).1, lineStartsAfter_increasing 0 source⟩

theorem getD_lineStarts_le (source : List UInt8) (n : Nat) :
    (lineStarts source).getD n 0 ≤ source.length := by
  rw [List.getD_eq_getElem?_getD]
  rcases h : (lineStarts source)[n]? with _ | t
  · exact Nat.zero_le _
  · rcases List.mem_cons.mp (List.mem_of_getElem? h) with rfl | ht
    · exact Nat.zero_le _
    · have := (mem_lineStartsAfter ht).2
      simpa using this

/-- One step of the scan is one byte of the starts: from an offset `i` on a line that starts at
`s`, the scan moves on by as many lines as starts are passed. -/
theorem exists_cut_scan (bs : List UInt8) (i s m line : Nat) (hs : s ≤ i) (hm : m ≤ bs.length) :
    ∃ c, Cut (lineStartsAfter i bs) (i + m) c ∧
      scan bs m line (i - s + 1)
        = (line + c, i + m - (s :: lineStartsAfter i bs).getD c 0 + 1) := by
  induction bs generalizing i s m line with
  | nil =>
      obtain rfl : m = 0 := by simpa using hm
      exact ⟨0, Cut.zero (fun t ht => absurd ht List.not_mem_nil), by simp⟩
  | cons b bs ih =>
      cases m with
      | zero => exact ⟨0, Cut.zero (fun t ht => (mem_lineStartsAfter ht).1), by simp⟩
      | succ m =>
          have hm' : m ≤ bs.length := by simpa using hm
          have assoc : i + (m + 1) = i + 1 + m := by omega
          rw [lineStartsAfter, scan, assoc]
          split
          -- At the end of a line the next one starts just behind it; its start is the first passed.
          · obtain ⟨c, hc, eq⟩ := ih (i + 1) (i + 1) m (line + 1) (Nat.le_refl _) hm'
            refine ⟨c + 1, hc.cons (by omega), ?_⟩
            rw [show i + 1 - (i + 1) + 1 = 1 by omega] at eq
            rw [eq, List.getD_cons_succ]
            congr 1
            omega
          · obtain ⟨c, hc, eq⟩ := ih (i + 1) s m line (by omega) hm'
            refine ⟨c, hc, ?_⟩
            rwa [show i + 1 - s + 1 = i - s + 1 + 1 by omega] at eq

/-- **The coordinates of an offset.** The line is the number of line starts up to the offset, the
character the distance from the last of them. -/
theorem exists_cut_coordinates {source : List UInt8} {k : Nat} (hk : k ≤ source.length) :
    ∃ c, Cut (lineStarts source) k c ∧ 0 < c ∧
      coordinates source k = (c, k - (lineStarts source).getD (c - 1) 0 + 1) := by
  obtain ⟨c, hc, eq⟩ := exists_cut_scan source 0 0 k 1 (Nat.le_refl 0) hk
  rw [Nat.zero_add k] at hc eq
  refine ⟨c + 1, hc.cons (Nat.zero_le k), Nat.succ_pos c, ?_⟩
  rw [Nat.add_sub_cancel, Nat.add_comm c 1]
  exact eq

/-- The offset of the end of the `n`-th line, counted from one, among lines that start at `ts`. -/
def lineStop (ts : List Nat) (size n : Nat) : Nat :=
  if n < ts.length then ts.getD n 0 - 1 else size

theorem le_lineStop_iff {ts : List Nat} {size n k : Nat} (inc : ts.Pairwise (· < ·)) (hn : 0 < n)
    (hk : k ≤ size) : k ≤ lineStop ts size n ↔ (n < ts.length → k < ts.getD n 0) := by
  unfold lineStop
  split
  · rename_i h
    have : 0 < ts.getD n 0 := Nat.lt_of_le_of_lt (Nat.zero_le _) (getD_lt_getD inc hn h)
    constructor
    · intro _ _; omega
    · intro h'; have := h' h; omega
  · rename_i h
    exact ⟨fun _ h' => absurd h' h, fun _ => hk⟩

/-- **The offsets with given coordinates.** A line that exists and a character from one on are
the coordinates of the offset that lies that far behind the start of the line, unless the line
ends before. -/
theorem coordinates_eq_iff {source : List UInt8} {k n c : Nat} (hk : k ≤ source.length) :
    coordinates source k = (n, c) ↔
      0 < n ∧ n ≤ (lineStarts source).length ∧ 0 < c ∧
        (lineStarts source).getD (n - 1) 0 + c = k + 1 ∧
        k ≤ lineStop (lineStarts source) source.length n := by
  have inc := lineStarts_increasing source
  obtain ⟨n', cut, pos, eq⟩ := exists_cut_coordinates hk
  have below := cut.below (n' - 1) (by omega)
  constructor
  · intro h
    obtain ⟨rfl, rfl⟩ := Prod.mk.inj (eq.symm.trans h)
    refine ⟨pos, cut.le_length, Nat.succ_pos _, by omega, ?_⟩
    exact (le_lineStop_iff inc pos hk).mpr (cut.above n' (Nat.le_refl n'))
  · rintro ⟨hn, hlen, hc, start, stop⟩
    have cut' : Cut (lineStarts source) k n :=
      Cut.of_sides inc hn hlen (by omega) ((le_lineStop_iff inc hn hk).mp stop)
    obtain rfl := cut.unique cut'
    rw [eq]
    congr 1
    omega

end SolidityLint
