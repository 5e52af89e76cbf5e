import SolidityLint.Proofs.Text.Bytes
import SolidityLint.Proofs.Library.Text.Seams
import SolidityLint.Report.Markers

/-!
# Report — the marker line

The marks are drawn stretch by stretch, from a place on that moves to the end of what is drawn.
Under a line of printable ASCII characters each mark then stands in the column of the byte it marks
(`Markers.placed_draw`), except behind the end of the line: the place does not move past the end, so
that each of the stretches that start there is drawn, one behind the other (`Markers.length_draw`).

* `Markers.Arranged.draw_eq_nil_iff`: there are no marks exactly when no range starts on the line.
* `markers_under_ranges_iff`: the marks stand under the ranges, and take one column more than the
  line at most, exactly when at most one range starts at the end of the line.
-/

namespace SolidityLint

open Grapheme

/-! ### Pieces of a line of printable characters -/

/-- The byte is a printable character of ASCII. -/
def PrintableByte (b : UInt8) : Prop := 0x20 ≤ b ∧ b < 0x7F

instance : DecidablePred PrintableByte := fun _ => inferInstanceAs (Decidable (_ ∧ _))

theorem PrintableByte.low {b : UInt8} (h : PrintableByte b) : b < 0x80 :=
  UInt8.lt_of_lt_of_le h.2 (by decide)

theorem PrintableByte.char {b : UInt8} (h : PrintableByte b) :
    PrintableAscii (Char.ofNat b.toNat) := by
  have low : 32 ≤ b.toNat := by simpa using UInt8.le_iff_toNat_le.mp h.1
  have high : b.toNat < 127 := by simpa using UInt8.lt_iff_toNat_lt.mp h.2
  have value := toNat_char_of_ascii h.low
  exact ⟨value.symm ▸ low, value.symm ▸ high⟩

theorem decode_of_printable {bytes : List UInt8} (h : ∀ b ∈ bytes, PrintableByte b) :
    ∃ cs, Utf8.decode bytes = cs ∧ cs.length = bytes.length ∧ ∀ c ∈ cs, PrintableAscii c := by
  refine ⟨_, Utf8.decode_of_ascii fun b hb => (h b hb).low, List.length_map _, fun c hc => ?_⟩
  obtain ⟨b, hb, rfl⟩ := List.mem_map.mp hc
  exact (h b hb).char

theorem completePart_of_printable {bytes : List UInt8} (h : ∀ b ∈ bytes, PrintableByte b) :
    completePart bytes 0 = bytes := by
  induction bytes with
  | nil => rfl
  | cons b bytes ih =>
      obtain ⟨first, rest⟩ := List.forall_mem_cons.mp h
      have one : announcedLength b = 1 := by
        have low : b.toNat < 128 := by simpa using UInt8.lt_iff_toNat_lt.mp first.low
        simp only [announcedLength, Bool.and_eq_true, decide_eq_true_eq, UInt8.le_iff_toNat_le,
          UInt8.lt_iff_toNat_lt, UInt8.reduceToNat]
        rw [if_neg (by omega), if_neg (by omega), if_neg (by omega)]
      have read : Utf8.next b bytes = (Char.ofNat b.toNat, 1) := if_pos first.low
      rw [completePart, one, read, if_neg (by omega)]
      exact congrArg (b :: ·) (ih rest)

theorem bytesWidth_of_printable {bytes : List UInt8} (h : ∀ b ∈ bytes, PrintableByte b) :
    bytesWidth bytes = bytes.length := by
  obtain ⟨cs, hcs, length, printable⟩ := decode_of_printable h
  rw [bytesWidth, completePart_of_printable h, hcs, widthOf_of_printable printable, length]
  cases bytes <;> rfl

namespace Markers

theorem padding_of_printable {bytes : List UInt8} (h : ∀ b ∈ bytes, PrintableByte b) :
    padding bytes = List.replicate bytes.length ' ' := by
  obtain ⟨cs, hcs, length, printable⟩ := decode_of_printable h
  rw [padding, hcs, ← length]
  clear hcs length
  induction cs with
  | nil => rfl
  | cons c cs ih =>
      obtain ⟨first, rest⟩ := List.forall_mem_cons.mp printable
      have noTab : (c == '\t') = false := by
        refine beq_eq_false_iff_ne.mpr ?_
        rintro rfl
        exact absurd first.1 (by decide)
      rw [List.flatMap_cons, noTab, if_neg Bool.false_ne_true, (characterLaws.printable first).2,
        ih rest]
      rfl

/-! ### The order of the stretches -/

theorem perm_insertByStart (s : Stretch) (ss : List Stretch) : (insertByStart s ss).Perm (s :: ss) := by
  induction ss with
  | nil => exact .refl _
  | cons t ss ih =>
      rw [insertByStart]
      split
      · exact (ih.cons t).trans (.swap s t ss)
      · exact .refl _

theorem pairwise_insertByStart (s : Stretch) {ss : List Stretch}
    (h : ss.Pairwise fun a b => b.start ≤ a.start) :
    (insertByStart s ss).Pairwise fun a b => b.start ≤ a.start := by
  induction ss with
  | nil => exact List.pairwise_singleton _ s
  | cons t ss ih =>
      obtain ⟨first, rest⟩ := List.pairwise_cons.mp h
      rw [insertByStart]
      split
      · rename_i before
        refine List.pairwise_cons.mpr ⟨fun u hu => ?_, ih rest⟩
        rcases List.mem_cons.mp ((perm_insertByStart s ss).mem_iff.mp hu) with rfl | hu
        · exact Nat.le_of_lt before
        · exact first u hu
      · rename_i behind
        refine List.pairwise_cons.mpr ⟨fun u hu => ?_, h⟩
        rcases List.mem_cons.mp hu with rfl | hu
        · exact Nat.not_lt.mp behind
        · exact (first u hu).trans (Nat.not_lt.mp behind)

theorem perm_foldl_insertByStart (ss acc : List Stretch) :
    (ss.foldl (fun acc s => insertByStart s acc) acc).Perm (ss ++ acc) := by
  induction ss generalizing acc with
  | nil => exact .refl _
  | cons s ss ih =>
      exact (ih _).trans (((perm_insertByStart s acc).append_left ss).trans List.perm_middle)

theorem pairwise_foldl_insertByStart (ss : List Stretch) {acc : List Stretch}
    (h : acc.Pairwise fun a b => b.start ≤ a.start) :
    (ss.foldl (fun acc s => insertByStart s acc) acc).Pairwise fun a b => b.start ≤ a.start := by
  induction ss generalizing acc with
  | nil => exact h
  | cons s ss ih => exact ih (pairwise_insertByStart s h)

/-- The order keeps all stretches. -/
theorem perm_inOrder (ss : List Stretch) : (inOrder ss).Perm ss := by
  have all := perm_foldl_insertByStart ss []
  rw [List.append_nil] at all
  exact (List.reverse_perm _).trans all

/-- The order is by the starts. -/
theorem pairwise_inOrder (ss : List Stretch) :
    (inOrder ss).Pairwise fun a b => a.start ≤ b.start :=
  List.pairwise_reverse.mpr (pairwise_foldl_insertByStart ss .nil)

/-! ### Places of characters -/

/-- Every character of a text is one that may stand at its place; the first one stands at `i`. -/
def Placed (may : Nat → Char → Prop) : Nat → List Char → Prop
  | _, [] => True
  | i, c :: cs => may i c ∧ Placed may (i + 1) cs

variable {may : Nat → Char → Prop}

theorem Placed.append {i : Nat} {front back : List Char} (hfront : Placed may i front)
    (hback : Placed may (i + front.length) back) : Placed may i (front ++ back) := by
  induction front generalizing i with
  | nil => exact hback
  | cons c front ih =>
      refine ⟨hfront.1, ih hfront.2 ?_⟩
      rw [List.length_cons, Nat.add_comm front.length, ← Nat.add_assoc] at hback
      exact hback

theorem placed_replicate {i n : Nat} {c : Char} (h : ∀ j, i ≤ j → j < i + n → may j c) :
    Placed may i (List.replicate n c) := by
  induction n generalizing i with
  | zero => trivial
  | succ n ih =>
      exact ⟨h i (Nat.le_refl i) (by omega), ih fun j low high => h j (by omega) (by omega)⟩

theorem Placed.mono {may' : Nat → Char → Prop} (le : ∀ i c, may i c → may' i c) {i : Nat}
    {text : List Char} (h : Placed may i text) : Placed may' i text := by
  induction text generalizing i with
  | nil => trivial
  | cons c text ih => exact ⟨le i c h.1, ih h.2⟩

theorem Placed.getElem? {i : Nat} {text : List Char} (h : Placed may i text) {j : Nat} {c : Char}
    (there : text[j]? = some c) : may (i + j) c := by
  induction text generalizing i j with
  | nil => exact nomatch there
  | cons d text ih =>
      cases j with
      | zero =>
          obtain rfl := Option.some.inj there
          exact h.1
      | succ j =>
          have rest := ih h.2 (j := j) there
          rwa [Nat.add_assoc, Nat.add_comm 1] at rest

/-! ### The marks of stretches -/

/-- The stretch lies in a line of `size` bytes. -/
structure Within (size : Nat) (s : Stretch) : Prop where
  ordered : s.start ≤ s.stop
  inside : s.stop ≤ size

/-- What may stand in a column: a mark of a stretch, or a blank. -/
inductive MayStand (ss : List Stretch) (i : Nat) : Char → Prop
  | caret {s : Stretch} (hs : s ∈ ss) (starts : s.start = i) : MayStand ss i '^'
  | tilde {s : Stretch} (hs : s ∈ ss) (starts : s.start ≤ i) (stops : i < s.stop) : MayStand ss i '~'
  | blank : MayStand ss i ' '

theorem MayStand.mono {ss ts : List Stretch} (subset : ss ⊆ ts) (i : Nat) (c : Char)
    (h : MayStand ss i c) : MayStand ts i c := by
  cases h with
  | caret hs starts => exact .caret (subset hs) starts
  | tilde hs starts stops => exact .tilde (subset hs) starts stops
  | blank => exact .blank

/-- Where the marks behind a stretch are drawn from. -/
def nextPlace (size : Nat) (s : Stretch) : Nat := min (max s.stop (s.start + 1)) size

theorem nextPlace_le (size : Nat) (s : Stretch) : nextPlace size s ≤ size := Nat.min_le_right ..

/-- Does the stretch start at the end of a line of `size` bytes? -/
def startsAtEnd (size : Nat) (s : Stretch) : Bool := s.start == size

theorem startsAtEnd_iff {size : Nat} {s : Stretch} : startsAtEnd size s ↔ s.start = size := beq_iff_eq

/-- What is drawn for a stretch. -/
def drawn (cursor : Nat) (s : Stretch) : List Char :=
  List.replicate (s.start - cursor) ' ' ++ '^' :: List.replicate (s.stop - s.start - 1) '~'

theorem draw_cons_of_lt {line : List UInt8} {cursor : Nat} {s : Stretch} (h : s.start < cursor)
    (ss : List Stretch) : draw line cursor (s :: ss) = draw line cursor ss := by
  rw [draw, if_pos h]

theorem draw_cons_of_le {line : List UInt8} (printable : ∀ b ∈ line, PrintableByte b) {cursor : Nat}
    {s : Stretch} (within : Within line.length s) (h : cursor ≤ s.start) (ss : List Stretch) :
    draw line cursor (s :: ss) = drawn cursor s ++ draw line (nextPlace line.length s) ss := by
  obtain ⟨ordered, inside⟩ := within
  have piece (from_ n : Nat) : ∀ b ∈ (line.drop from_).take n, PrintableByte b :=
    fun b hb => printable b (List.mem_of_mem_drop (List.mem_of_mem_take hb))
  have blanks : padding ((line.drop cursor).take (s.start - cursor)) =
      List.replicate (s.start - cursor) ' ' := by
    rw [padding_of_printable (piece _ _), List.length_take, List.length_drop, Nat.min_eq_left]
    omega
  have width : bytesWidth ((line.drop s.start).take (s.stop - s.start)) = s.stop - s.start := by
    rw [bytesWidth_of_printable (piece _ _), List.length_take, List.length_drop, Nat.min_eq_left]
    omega
  have tildes : max (s.stop - s.start) 1 - 1 = s.stop - s.start - 1 := by omega
  rw [draw, if_neg (Nat.not_lt.mpr h)]
  simp only [blanks, width, tildes]
  rfl

theorem length_drawn {cursor : Nat} {s : Stretch} (h : cursor ≤ s.start) :
    cursor + (drawn cursor s).length = max s.stop (s.start + 1) := by
  rw [drawn, List.length_append, List.length_replicate, List.length_cons, List.length_replicate]
  omega

theorem placed_drawn {cursor : Nat} {s : Stretch} (h : cursor ≤ s.start) (ss : List Stretch) :
    Placed (MayStand (s :: ss)) cursor (drawn cursor s) := by
  refine (placed_replicate fun _ _ _ => .blank).append ⟨.caret List.mem_cons_self ?_, ?_⟩
  · rw [List.length_replicate]
    omega
  · refine placed_replicate fun j low high => .tilde List.mem_cons_self ?_ ?_
    all_goals
      rw [List.length_replicate] at low high
      omega

/-- Only carets, tildes and blanks are drawn. -/
theorem mem_draw {line : List UInt8} (printable : ∀ b ∈ line, PrintableByte b) {ss : List Stretch}
    (within : ∀ s ∈ ss, Within line.length s) {cursor : Nat} {c : Char}
    (h : c ∈ draw line cursor ss) : c = '^' ∨ c = '~' ∨ c = ' ' := by
  induction ss generalizing cursor with
  | nil => exact absurd h List.not_mem_nil
  | cons s ss ih =>
      obtain ⟨own, others⟩ := List.forall_mem_cons.mp within
      rcases Nat.lt_or_ge s.start cursor with passed | ahead
      · rw [draw_cons_of_lt passed] at h
        exact ih others h
      · rw [draw_cons_of_le printable own ahead, List.mem_append] at h
        rcases h with h | h
        · simp only [drawn, List.mem_append, List.mem_cons, List.mem_replicate] at h
          tauto
        · exact ih others h

/-- Stretches by their starts, of which only one starts at the end of the line, are drawn with each
mark under the byte it marks, and take one column more than the line at most. -/
theorem placed_draw {line : List UInt8} (printable : ∀ b ∈ line, PrintableByte b) {ss : List Stretch}
    (within : ∀ s ∈ ss, Within line.length s) (sorted : ss.Pairwise fun a b => a.start ≤ b.start)
    (once : ss.countP (startsAtEnd line.length) ≤ 1) {cursor : Nat} (h : cursor ≤ line.length) :
    Placed (MayStand ss) cursor (draw line cursor ss) ∧
      cursor + (draw line cursor ss).length ≤ line.length + 1 := by
  induction ss generalizing cursor with
  | nil => exact ⟨trivial, Nat.le_succ_of_le h⟩
  | cons s ss ih =>
      obtain ⟨own, others⟩ := List.forall_mem_cons.mp within
      obtain ⟨first, rest⟩ := List.pairwise_cons.mp sorted
      have fewer : ss.countP (startsAtEnd line.length) ≤ 1 :=
        ((List.sublist_cons_self s ss).countP_le).trans once
      have later (t : List Char) (i : Nat) : Placed (MayStand ss) i t → Placed (MayStand (s :: ss)) i t :=
        Placed.mono (MayStand.mono (List.subset_cons_self s ss))
      rcases Nat.lt_or_ge s.start cursor with passed | ahead
      · rw [draw_cons_of_lt passed]
        obtain ⟨placed, short⟩ := ih others rest fewer h
        exact ⟨later _ _ placed, short⟩
      rw [draw_cons_of_le printable own ahead]
      have length := length_drawn ahead
      have inside := own.ordered.trans own.inside
      by_cases atEnd : s.start = line.length
      · -- all others would start there as well
        rw [List.countP_cons_of_pos (startsAtEnd_iff.mpr atEnd)] at once
        have none : ss = [] := by
          refine List.eq_nil_iff_forall_not_mem.mpr fun t ht => ?_
          have behind := first t ht
          have within := others t ht
          have same : t.start = line.length := by
            have := within.ordered.trans within.inside
            omega
          have counted : 0 < ss.countP (startsAtEnd line.length) :=
            List.countP_pos_iff.mpr ⟨t, ht, startsAtEnd_iff.mpr same⟩
          omega
        subst none
        rw [draw, List.append_nil]
        refine ⟨placed_drawn ahead [], ?_⟩
        have := own.inside
        omega
      · have next : nextPlace line.length s = cursor + (drawn cursor s).length := by
          have := own.inside
          rw [nextPlace, length]
          omega
        obtain ⟨placed, short⟩ := ih others rest fewer (nextPlace_le line.length s)
        rw [next] at placed short ⊢
        refine ⟨(placed_drawn ahead ss).append (later _ _ placed), ?_⟩
        rw [List.length_append]
        omega

/-- The stretches that start at the end of the line are drawn one behind the other. -/
theorem le_length_draw {line : List UInt8} (printable : ∀ b ∈ line, PrintableByte b)
    {ss : List Stretch} (within : ∀ s ∈ ss, Within line.length s) {cursor : Nat}
    (h : cursor ≤ line.length) (some : 0 < ss.countP (startsAtEnd line.length)) :
    line.length + ss.countP (startsAtEnd line.length) ≤ cursor + (draw line cursor ss).length := by
  induction ss generalizing cursor with
  | nil => exact absurd some (Nat.lt_irrefl 0)
  | cons s ss ih =>
      obtain ⟨own, others⟩ := List.forall_mem_cons.mp within
      have inside := own.ordered.trans own.inside
      rcases Nat.lt_or_ge s.start cursor with passed | ahead
      · have before : ¬ startsAtEnd line.length s := fun atEnd => by
          have := startsAtEnd_iff.mp atEnd
          omega
        rw [List.countP_cons_of_neg before] at some ⊢
        rw [draw_cons_of_lt passed]
        exact ih others h some
      have length := length_drawn ahead
      rw [draw_cons_of_le printable own ahead, List.length_append]
      have next := nextPlace_le line.length s
      by_cases atEnd : s.start = line.length
      · rw [List.countP_cons_of_pos (startsAtEnd_iff.mpr atEnd)] at some ⊢
        rcases Nat.eq_zero_or_pos (ss.countP (startsAtEnd line.length)) with none | more
        · omega
        · have rest := ih others next more
          rw [nextPlace] at rest next ⊢
          omega
      · rw [List.countP_cons_of_neg fun h => atEnd (startsAtEnd_iff.mp h)] at some ⊢
        have rest := ih others next some
        have := own.inside
        rw [nextPlace] at rest next ⊢
        omega

end Markers

/-! ### Ranges on a line -/

/-- The column of a position, counted from zero. -/
def Position.column (p : Position) : Int := p.character.toInt - 1

/-- The column of a position in a line of `size` columns or at its end; one outside is moved to the
nearer of the two. -/
def Position.columnIn (size : Nat) (p : Position) : Nat := min p.column.toNat size

/-- The range starts on the line and covers one of its columns. -/
structure Range.CoversColumn (r : Range) (number : Int64) (i : Nat) : Prop where
  line : r.start.line = number
  starts : r.start.column ≤ i
  stops : number < r.stop.line ∨ number = r.stop.line ∧ (i : Int) < r.stop.column

/-- The range does not end on an earlier line than it starts, and the characters that its columns
are counted from are not the least integer. -/
structure Range.RunsForward (r : Range) : Prop where
  start : Int64.minValue < r.start.character
  stop : r.start.line < r.stop.line ∨
    r.start.line = r.stop.line ∧ Int64.minValue < r.stop.character

namespace Markers

theorem place_le (character : Int64) (low size : Nat) : place character low size ≤ size :=
  Nat.min_le_right ..

theorem le_place (character : Int64) {low size : Nat} (h : low ≤ size) :
    low ≤ place character low size :=
  Nat.le_min.mpr ⟨Nat.le_max_right .., h⟩

theorem toInt_sub_one {character : Int64} (h : Int64.minValue < character) :
    (character - 1).toInt = character.toInt - 1 := by
  have low : Int64.minValue.toInt < character.toInt := Int64.lt_iff_toInt_lt.mp h
  have high := character.toInt_lt
  rw [Int64.toInt_minValue] at low
  rw [Int64.toInt_sub, Int64.toInt_one, Int.bmod_eq_of_le (by omega) (by omega)]

theorem stretch?_eq_some_iff {size : Nat} {number : Int64} {r : Range} {s : Stretch} :
    stretch? size number r = some s ↔ r.start.line = number ∧
      s.start = place r.start.character 0 size ∧
      s.stop = if r.stop.line = number then place r.stop.character s.start size else size := by
  obtain ⟨start, stop⟩ := s
  rw [stretch?]
  by_cases line : r.start.line = number
  · rw [if_pos (beq_iff_eq.mpr line), Option.some_inj, Stretch.mk.injEq, and_iff_right line]
    simp only [beq_iff_eq]
    exact ⟨fun ⟨h, h'⟩ => ⟨h.symm, h ▸ h'.symm⟩, fun ⟨h, h'⟩ => ⟨h.symm, h ▸ h'.symm⟩⟩
  · rw [if_neg fun h => line (beq_iff_eq.mp h)]
    exact iff_of_false nofun fun h => line h.1

theorem within_of_stretch? {size : Nat} {number : Int64} {r : Range} {s : Stretch}
    (h : stretch? size number r = some s) : Within size s := by
  obtain ⟨-, start, stop⟩ := stretch?_eq_some_iff.mp h
  have inside : s.start ≤ size := start ▸ place_le _ _ _
  refine ⟨?_, ?_⟩
  · rw [stop]
    split
    · exact le_place _ inside
    · exact inside
  · rw [stop]
    split
    · exact place_le _ _ _
    · exact Nat.le_refl size

theorem start_of_stretch? {size : Nat} {number : Int64} {r : Range} {s : Stretch}
    (forward : r.RunsForward) (h : stretch? size number r = some s) :
    s.start = r.start.columnIn size := by
  obtain ⟨-, start, -⟩ := stretch?_eq_some_iff.mp h
  rw [start, place, toInt_sub_one forward.start, Nat.max_zero]
  rfl

theorem covers_of_stretch? {size : Nat} {number : Int64} {r : Range} {s : Stretch}
    (forward : r.RunsForward) (h : stretch? size number r = some s) {i : Nat} (starts : s.start ≤ i)
    (stops : i < s.stop) : i < size ∧ r.CoversColumn number i := by
  obtain ⟨line, -, stop⟩ := stretch?_eq_some_iff.mp h
  have start := start_of_stretch? forward h
  have inside : i < size := Nat.lt_of_lt_of_le stops (within_of_stretch? h).inside
  rw [Position.columnIn] at start
  refine ⟨inside, line, by omega, ?_⟩
  rcases forward.stop with later | ⟨same, positive⟩
  · exact .inl (line ▸ later)
  · have same : r.stop.line = number := same.symm.trans line
    rw [if_pos same, place, toInt_sub_one positive] at stop
    exact .inr ⟨same.symm, by rw [Position.column]; omega⟩

end Markers

/-! ### The marker line -/

/-- What a marker line has to be: at most one column longer than its line, with a caret only in the
column where a range starts and a tilde only in a column that a range covers. -/
structure UnderRanges (size : Nat) (number : Int64) (ranges : List Range) (text : List Char) :
    Prop where
  short : text.length ≤ size + 1
  caret : ∀ i, text[i]? = some '^' →
    ∃ r ∈ ranges, r.start.line = number ∧ r.start.columnIn size = i
  tilde : ∀ i, text[i]? = some '~' → i < size ∧ ∃ r ∈ ranges, r.CoversColumn number i

open Markers

theorem stretch?_eq_none_iff {size : Nat} {number : Int64} {r : Range} :
    stretch? size number r = none ↔ r.start.line ≠ number := by
  rw [stretch?]
  by_cases line : r.start.line = number
  · rw [if_pos (beq_iff_eq.mpr line)]
    exact iff_of_false nofun fun other => other line
  · rw [if_neg fun h => line (beq_iff_eq.mp h)]
    exact iff_of_true rfl line

namespace Markers

variable {line : List UInt8} {number : Int64} {ranges : List Range} {size : Nat}

/-- The stretches of the ranges that start on a line, by their starts.  Among those of one start any
order will do. -/
structure Arranged (size : Nat) (number : Int64) (ranges : List Range) (ss : List Stretch) : Prop where
  perm : ss.Perm (ranges.filterMap (stretch? size number))
  sorted : ss.Pairwise fun a b => a.start ≤ b.start

theorem arranged_inOrder (size : Nat) (number : Int64) (ranges : List Range) :
    Arranged size number ranges (inOrder (ranges.filterMap (stretch? size number))) :=
  ⟨perm_inOrder _, pairwise_inOrder _⟩

variable {ss : List Stretch}

theorem Arranged.mem_iff (h : Arranged size number ranges ss) {s : Stretch} :
    s ∈ ss ↔ ∃ r ∈ ranges, stretch? size number r = some s :=
  h.perm.mem_iff.trans List.mem_filterMap

theorem Arranged.within (h : Arranged size number ranges ss) : ∀ s ∈ ss, Within size s := by
  intro s hs
  obtain ⟨r, -, eq⟩ := h.mem_iff.mp hs
  exact within_of_stretch? eq

theorem Arranged.eq_nil_iff (h : Arranged size number ranges ss) :
    ss = [] ↔ ∀ r ∈ ranges, r.start.line ≠ number := by
  have none (r : Range) : r.start.line ≠ number ↔ ∀ s, stretch? size number r ≠ some s := by
    rw [← Option.eq_none_iff_forall_ne_some]
    exact stretch?_eq_none_iff.symm
  rw [List.eq_nil_iff_forall_not_mem]
  simp only [h.mem_iff, none]
  exact ⟨fun h r hr s hs => h s ⟨r, hr, hs⟩, fun h s ⟨r, hr, hs⟩ => h r hr s hs⟩

/-- The number of ranges that start at the end of a line of `size` bytes or behind it. -/
def endStarts (size : Nat) (number : Int64) (ranges : List Range) : Nat :=
  ranges.countP fun r => r.start.line = number ∧ r.start.columnIn size = size

theorem Arranged.countP_eq (h : Arranged size number ranges ss)
    (forward : ∀ r ∈ ranges, r.start.line = number → r.RunsForward) :
    ss.countP (startsAtEnd size) = endStarts size number ranges := by
  rw [h.perm.countP_eq, List.countP_filterMap, endStarts]
  refine List.countP_congr fun r hr => ?_
  cases eq : stretch? size number r with
  | none =>
      have other := stretch?_eq_none_iff.mp eq
      simp [other]
  | some s =>
      have line := (stretch?_eq_some_iff.mp eq).1
      have start := start_of_stretch? (forward r hr line) eq
      simp [startsAtEnd_iff, line, start]

/-- Nothing is drawn exactly when no range starts on the line. -/
theorem Arranged.draw_eq_nil_iff (h : Arranged line.length number ranges ss) :
    draw line 0 ss = [] ↔ ∀ r ∈ ranges, r.start.line ≠ number := by
  rw [← h.eq_nil_iff]
  cases ss with
  | nil => exact iff_of_true rfl rfl
  | cons s ss =>
      refine iff_of_false (fun none => ?_) (List.cons_ne_nil s ss)
      rw [draw, if_neg (Nat.not_lt_zero _)] at none
      simp at none

/-- The marks of ranges that run forward stand under them, and take one column more than the line at
most, exactly when at most one of them starts at the end of the line. -/
theorem Arranged.draw_under_ranges_iff (h : Arranged line.length number ranges ss)
    (printable : ∀ b ∈ line, PrintableByte b)
    (forward : ∀ r ∈ ranges, r.start.line = number → r.RunsForward) :
    UnderRanges line.length number ranges (draw line 0 ss) ↔
      endStarts line.length number ranges ≤ 1 := by
  rw [← h.countP_eq forward]
  constructor
  · intro under
    by_contra more
    have some : 0 < ss.countP (startsAtEnd line.length) := by omega
    have long := le_length_draw printable h.within (Nat.zero_le _) some
    have short := under.short
    omega
  · intro once
    obtain ⟨placed, short⟩ := placed_draw printable h.within h.sorted once (Nat.zero_le _)
    refine ⟨by omega, fun i there => ?_, fun i there => ?_⟩
    · cases placed.getElem? there with
      | caret hs starts =>
          obtain ⟨r, hr, eq⟩ := h.mem_iff.mp hs
          have onLine := (stretch?_eq_some_iff.mp eq).1
          have start := start_of_stretch? (forward r hr onLine) eq
          exact ⟨r, hr, onLine, by omega⟩
    · cases placed.getElem? there with
      | tilde hs starts stops =>
          obtain ⟨r, hr, eq⟩ := h.mem_iff.mp hs
          have onLine := (stretch?_eq_some_iff.mp eq).1
          obtain ⟨inside, covers⟩ := covers_of_stretch? (forward r hr onLine) eq starts stops
          rw [Nat.zero_add] at inside covers
          exact ⟨inside, r, hr, covers⟩

end Markers

/-- **The marker line.**  Under a line of printable ASCII characters there are only carets, tildes
and blanks, and nothing exactly when no range starts on the line.  The marks of ranges that run
forward stand under them, and take one column more than the line at most, exactly when at most one
of them starts at the end of the line. -/
theorem markers_under_ranges_iff {line : List UInt8} (printable : ∀ b ∈ line, PrintableByte b)
    (number : Int64) (ranges : List Range) :
    (∀ c ∈ (markers line number ranges).toList, c = '^' ∨ c = '~' ∨ c = ' ') ∧
    (markers line number ranges = "" ↔ ∀ r ∈ ranges, r.start.line ≠ number) ∧
    ((∀ r ∈ ranges, r.start.line = number → r.RunsForward) →
      (UnderRanges line.length number ranges (markers line number ranges).toList ↔
        endStarts line.length number ranges ≤ 1)) := by
  have arranged := arranged_inOrder line.length number ranges
  rw [← String.toList_eq_nil_iff, markers, String.toList_ofList]
  exact ⟨fun c hc => mem_draw printable arranged.within hc, arranged.draw_eq_nil_iff,
    arranged.draw_under_ranges_iff printable⟩

/-- Three ranges of `x = y;`, unsorted: one goes on behind the line, one lies in it, and one stands
at its end. -/
def threeRanges : List Range :=
  [⟨⟨3, 7⟩, ⟨3, 7⟩⟩, ⟨⟨3, 5⟩, ⟨3, 6⟩⟩, ⟨⟨3, 1⟩, ⟨4, 2⟩⟩]

theorem markers_under_ranges_iff_threeRanges :
    let line := "x = y;".toUTF8.data.toList
    (∀ b ∈ line, PrintableByte b) ∧ (∀ r ∈ threeRanges, r.start.line = 3 → r.RunsForward) ∧
      markers line 3 threeRanges = "^~~~~~^" ∧
      UnderRanges line.length 3 threeRanges (markers line 3 threeRanges).toList := by
  have printable : ∀ b ∈ "x = y;".toUTF8.data.toList, PrintableByte b := by decide +kernel
  have forward : ∀ r ∈ threeRanges, r.start.line = 3 → r.RunsForward := by
    intro r hr _
    simp only [threeRanges, List.mem_cons, List.not_mem_nil, or_false] at hr
    rcases hr with rfl | rfl | rfl <;> exact ⟨by decide, by decide⟩
  exact ⟨printable, forward, rfl,
    ((markers_under_ranges_iff printable 3 threeRanges).2.2 forward).mpr (by decide)⟩

/-- **Carets behind the line**: of two empty ranges at the end of `x;` the second is marked one column
behind it. -/
theorem second_caret_behind_line :
    let line := "x;".toUTF8.data.toList
    let atEnd : Range := ⟨⟨3, 3⟩, ⟨3, 3⟩⟩
    markers line 3 [atEnd, atEnd] = "  ^^" ∧
      ¬ UnderRanges line.length 3 [atEnd, atEnd] (markers line 3 [atEnd, atEnd]).toList := by
  intro line atEnd
  have text : markers line 3 [atEnd, atEnd] = "  ^^" := by decide +kernel
  refine ⟨text, fun under => ?_⟩
  rw [text] at under
  exact absurd under.short (by decide)

end SolidityLint
