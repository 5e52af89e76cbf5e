import SolidityLint.Position.Basic
import SolidityLint.Proofs.Text.Bytes
import SolidityLint.Proofs.Text.Parts

/-!
# Text — reading bytes that may be no text

Bytes are read sequence by sequence: a byte below 128, a byte with the tails that belong to it
(`Utf8.Sequence`), or a byte that starts no sequence and counts alone.

* `Utf8.decode_encoded`: a text is read back from its bytes.
* `Utf8.decode_append_newline`: a line feed ends what stands before it, cut off or not, so the lines
  of bytes are read as the lines of the text (`Utf8.splitOn_decode`).
* `Utf8.length_le_of_decode`: no text is shorter than the bytes that it is read from.
-/

namespace SolidityLint

namespace Utf8

/-! ### Sequences -/

/-- A byte behind the first one of a sequence. -/
def Tail (b : UInt8) : Prop := 0x80 ≤ b.toNat ∧ b.toNat < 0xC0

/-- A first byte and the tails that stand for a character beyond 127 with it. -/
inductive Sequence : UInt8 → List UInt8 → Char → Prop where
  | two {b c : UInt8} (hb : 0xC2 ≤ b.toNat ∧ b.toNat < 0xE0) (hc : Tail c) :
      Sequence b [c] (Char.ofNat (b.toNat % 32 * 64 + c.toNat % 64))
  | three {b c d : UInt8} (hb : 0xE0 ≤ b.toNat ∧ b.toNat < 0xF0) (hc : Tail c) (hd : Tail d)
      (low : b.toNat = 0xE0 → 0xA0 ≤ c.toNat) (high : b.toNat = 0xED → c.toNat < 0xA0) :
      Sequence b [c, d] (Char.ofNat ((b.toNat % 16 * 64 + c.toNat % 64) * 64 + d.toNat % 64))
  | four {b c d e : UInt8} (hb : 0xF0 ≤ b.toNat ∧ b.toNat < 0xF5) (hc : Tail c) (hd : Tail d)
      (he : Tail e) (low : b.toNat = 0xF0 → 0x90 ≤ c.toNat) (high : b.toNat = 0xF4 → c.toNat < 0x90) :
      Sequence b [c, d, e] (Char.ofNat
        (((b.toNat % 8 * 64 + c.toNat % 64) * 64 + d.toNat % 64) * 64 + e.toNat % 64))

theorem isTail_iff {b : UInt8} : isTail b = true ↔ Tail b := by
  simp [isTail, Tail, UInt8.lt_iff_toNat_lt, UInt8.le_iff_toNat_le]

theorem toNat_ofNat {v : Nat} (valid : v < 0xD800 ∨ 0xDFFF < v ∧ v < 0x110000) :
    (Char.ofNat v).toNat = v := by
  have ok : v.isValidChar := valid
  rw [Char.ofNat, dif_pos ok]
  rfl

theorem le_utf8Size (c : Char) : (0x80 ≤ c.toNat → 2 ≤ c.utf8Size) ∧
    (0x800 ≤ c.toNat → 3 ≤ c.utf8Size) ∧ (0x10000 ≤ c.toNat → 4 ≤ c.utf8Size) := by
  have value : c.toNat = c.val.toNat := rfl
  have bounds : (127 : UInt32).toNat = 127 ∧ (2047 : UInt32).toNat = 2047 ∧
      (65535 : UInt32).toNat = 65535 := by decide
  have one := (Char.utf8Size_eq_one_iff (c := c)).mp
  have two := (Char.utf8Size_eq_two_iff (c := c)).mp
  have three := (Char.utf8Size_eq_three_iff (c := c)).mp
  simp only [UInt32.le_iff_toNat_le, UInt32.lt_iff_toNat_lt, ← value, bounds] at one two three
  have some := c.utf8Size_pos
  omega

namespace Sequence

variable {b : UInt8} {tail : List UInt8} {c : Char}

theorem tails (h : Sequence b tail c) : ∀ t ∈ tail, Tail t := by
  cases h with
  | two _ hc => simpa using hc
  | three _ hc hd => simpa using ⟨hc, hd⟩
  | four _ hc hd he => simpa using ⟨hc, hd, he⟩

/-- A sequence stands for a character beyond 127, of which it has all bytes. -/
theorem size (h : Sequence b tail c) : 0x80 ≤ c.toNat ∧ tail.length + 1 ≤ c.utf8Size := by
  cases h with
  | @two c hb hc =>
      obtain ⟨_, _⟩ := hc
      have value := toNat_ofNat (v := b.toNat % 32 * 64 + c.toNat % 64) (by omega)
      exact ⟨by omega, (le_utf8Size _).1 (by omega)⟩
  | @three c d hb hc hd low high =>
      obtain ⟨_, _⟩ := hc
      obtain ⟨_, _⟩ := hd
      have value := toNat_ofNat (v := (b.toNat % 16 * 64 + c.toNat % 64) * 64 + d.toNat % 64) (by omega)
      exact ⟨by omega, (le_utf8Size _).2.1 (by omega)⟩
  | @four c d e hb hc hd he low high =>
      obtain ⟨_, _⟩ := hc
      obtain ⟨_, _⟩ := hd
      obtain ⟨_, _⟩ := he
      have value := toNat_ofNat (v := ((b.toNat % 8 * 64 + c.toNat % 64) * 64 + d.toNat % 64) * 64
        + e.toNat % 64) (by omega)
      exact ⟨by omega, (le_utf8Size _).2.2 (by omega)⟩

end Sequence

/-! ### What is read at the front -/

section Next

variable {b : UInt8} {tail rest : List UInt8} {c : Char}

theorem next_of_low (hb : b.toNat < 0x80) : next b rest = (Char.ofNat b.toNat, 1) :=
  if_pos (UInt8.lt_iff_toNat_lt.mpr hb)

theorem toNat_and (b : UInt8) : (b &&& 0x1F).toNat = b.toNat % 32 ∧
    (b &&& 0x0F).toNat = b.toNat % 16 ∧ (b &&& 0x07).toNat = b.toNat % 8 ∧
    (b &&& 0x3F).toNat = b.toNat % 64 := by
  simp only [UInt8.toNat_and]
  exact ⟨Nat.and_two_pow_sub_one_eq_mod _ 5, Nat.and_two_pow_sub_one_eq_mod _ 4,
    Nat.and_two_pow_sub_one_eq_mod _ 3, Nat.and_two_pow_sub_one_eq_mod _ 6⟩

/-- After some first bytes the second one is bound to a part of the tails. -/
theorem second_iff {b c : UInt8} (x y low high : UInt8) (hl : 0x80 ≤ low.toNat)
    (hh : high.toNat ≤ 0xC0) :
    (decide ((if b == x then low else 0x80) ≤ c) && decide (c < if b == y then high else 0xC0)) = true ↔
      Tail c ∧ (b.toNat = x.toNat → low.toNat ≤ c.toNat) ∧ (b.toNat = y.toNat → c.toNat < high.toNat) := by
  simp only [Bool.and_eq_true, decide_eq_true_eq, UInt8.le_iff_toNat_le, UInt8.lt_iff_toNat_lt,
    beq_iff_eq, Tail, ← UInt8.toNat_inj]
  split <;> split <;> simp_all <;> omega

theorem lead_iff (x y : UInt8) : (decide (x ≤ b) && decide (b < y)) = true ↔
    x.toNat ≤ b.toNat ∧ b.toNat < y.toNat := by
  simp [UInt8.lt_iff_toNat_lt, UInt8.le_iff_toNat_le]

/-- A sequence is read as its character. -/
theorem next_of_sequence (h : Sequence b tail c) : next b (tail ++ rest) = (c, tail.length + 1) := by
  obtain ⟨lead, lead', lead'', -⟩ := toNat_and b
  have above (hb : 0xC2 ≤ b.toNat) : ¬ b < 0x80 := by
    simp only [UInt8.lt_iff_toNat_lt, UInt8.reduceToNat]
    omega
  have further (x y : UInt8) (hb : y.toNat ≤ b.toNat) : ¬ (decide (x ≤ b) && decide (b < y)) = true := by
    rw [lead_iff]
    omega
  cases h with
  | @two c hb hc =>
      obtain ⟨-, -, -, low⟩ := toNat_and c
      rw [← lead, ← low, List.singleton_append, next, if_neg (above hb.1),
        if_pos ((lead_iff 0xC2 0xE0).mpr hb)]
      exact if_pos (isTail_iff.mpr hc)
  | @three c d hb hc hd low high =>
      obtain ⟨-, -, -, low'⟩ := toNat_and c
      obtain ⟨-, -, -, low''⟩ := toNat_and d
      have second := (second_iff 0xE0 0xED 0xA0 0xA0 (by decide) (by decide)).mpr
        ⟨hc, low, high⟩
      rw [← lead', ← low', ← low'', List.cons_append, List.singleton_append, next,
        if_neg (above (by omega)), if_neg (further 0xC2 0xE0 hb.1), if_pos ((lead_iff 0xE0 0xF0).mpr hb)]
      exact if_pos (Bool.and_eq_true_iff.mpr ⟨second, isTail_iff.mpr hd⟩)
  | @four c d e hb hc hd he low high =>
      obtain ⟨-, -, -, low'⟩ := toNat_and c
      obtain ⟨-, -, -, low''⟩ := toNat_and d
      obtain ⟨-, -, -, low'''⟩ := toNat_and e
      have second := (second_iff 0xF0 0xF4 0x90 0x90 (by decide) (by decide)).mpr
        ⟨hc, low, high⟩
      rw [← lead'', ← low', ← low'', ← low''', List.cons_append, List.cons_append,
        List.singleton_append, next, if_neg (above (by omega)),
        if_neg (further 0xC2 0xE0 (show 0xE0 ≤ b.toNat by omega)), if_neg (further 0xE0 0xF0 hb.1),
        if_pos ((lead_iff 0xF0 0xF5).mpr hb)]
      exact if_pos (Bool.and_eq_true_iff.mpr ⟨Bool.and_eq_true_iff.mpr ⟨second, isTail_iff.mpr hd⟩,
        isTail_iff.mpr he⟩)

/-- A byte that starts no sequence counts alone. -/
theorem next_of_none (above : 0x80 ≤ b.toNat)
    (none : ∀ tail after c, rest = tail ++ after → ¬ Sequence b tail c) :
    next b rest = (replacement, 1) := by
  unfold next
  rw [if_neg (by simp only [UInt8.lt_iff_toNat_lt, UInt8.reduceToNat]; omega)]
  split
  · next lead =>
    split
    · next c after =>
      refine if_neg fun hc => ?_
      exact none [c] after _ rfl (.two ((lead_iff 0xC2 0xE0).mp lead) (isTail_iff.mp hc))
    · rfl
  split
  · next lead =>
    split
    · next c d after =>
      refine if_neg fun tails => ?_
      obtain ⟨second, hd⟩ := Bool.and_eq_true_iff.mp tails
      obtain ⟨hc, low, high⟩ := (second_iff 0xE0 0xED 0xA0 0xA0 (by decide) (by decide)).mp second
      exact none [c, d] after _ rfl
        (.three ((lead_iff 0xE0 0xF0).mp lead) hc (isTail_iff.mp hd) low high)
    · rfl
  split
  · next lead =>
    split
    · next c d e after =>
      refine if_neg fun tails => ?_
      obtain ⟨tails, he⟩ := Bool.and_eq_true_iff.mp tails
      obtain ⟨second, hd⟩ := Bool.and_eq_true_iff.mp tails
      obtain ⟨hc, low, high⟩ := (second_iff 0xF0 0xF4 0x90 0x90 (by decide) (by decide)).mp second
      exact none [c, d, e] after _ rfl
        (.four ((lead_iff 0xF0 0xF5).mp lead) hc (isTail_iff.mp hd) (isTail_iff.mp he) low high)
    · rfl
  · rfl

end Next

/-! ### What is read -/

section Decode

variable {b : UInt8} {tail rest : List UInt8} {c : Char}

theorem decode_cons (b : UInt8) (rest : List UInt8) :
    decode (b :: rest) = (next b rest).1 :: decode (rest.drop ((next b rest).2 - 1)) := by
  have skip (bytes : List UInt8) (k : Nat) : decodeSized.go bytes k = decodeSized (bytes.drop k) := by
    induction bytes generalizing k with
    | nil => cases k <;> simp [decodeSized, decodeSized.go]
    | cons b bytes ih =>
        cases k with
        | zero => rfl
        | succ k => rw [decodeSized.go, ih, List.drop_succ_cons]
  rw [decode, decodeSized, decodeSized.go]
  simp only [skip, List.map_cons]
  rfl

theorem decode_of_low (hb : b.toNat < 0x80) :
    decode (b :: rest) = Char.ofNat b.toNat :: decode rest := by
  rw [decode_cons, next_of_low hb]
  rfl

theorem decode_of_sequence (h : Sequence b tail c) :
    decode (b :: (tail ++ rest)) = c :: decode rest := by
  rw [decode_cons, next_of_sequence h, Nat.add_sub_cancel, List.drop_left]

/-- The byte starts no sequence with those behind it. -/
def Alone (b : UInt8) (rest : List UInt8) : Prop :=
  0x80 ≤ b.toNat ∧ ∀ tail after c, rest = tail ++ after → ¬ Sequence b tail c

theorem decode_of_alone (h : Alone b rest) : decode (b :: rest) = replacement :: decode rest := by
  rw [decode_cons, next_of_none h.1 h.2]
  rfl

/-- Bytes are read from the front on. -/
@[elab_as_elim]
theorem reading_induction {motive : List UInt8 → Prop} (bytes : List UInt8) (nil : motive [])
    (low : ∀ b rest, b.toNat < 0x80 → motive rest → motive (b :: rest))
    (alone : ∀ b rest, Alone b rest → motive rest → motive (b :: rest))
    (sequence : ∀ b tail c rest, Sequence b tail c → motive rest → motive (b :: (tail ++ rest))) :
    motive bytes := by
  induction hn : bytes.length using Nat.strongRecOn generalizing bytes with
  | ind n ih =>
      subst hn
      cases bytes with
      | nil => exact nil
      | cons b rest =>
          have behind := ih rest.length (by simp) rest rfl
          by_cases small : b.toNat < 0x80
          · exact low b rest small behind
          by_cases some : ∃ tail after c, rest = tail ++ after ∧ Sequence b tail c
          · obtain ⟨tail, after, c, rfl, h⟩ := some
            have shorter : after.length < (b :: (tail ++ after)).length := by
              rw [List.length_cons, List.length_append]
              omega
            exact sequence b tail c after h (ih after.length shorter after rfl)
          · have none : ∀ tail after c, rest = tail ++ after → ¬ Sequence b tail c :=
              fun tail after c split h => some ⟨tail, after, c, split, h⟩
            exact alone b rest ⟨by omega, none⟩ behind

end Decode

/-! ### Texts -/

/-- A byte below 128 is written for itself, and the other characters are sequences. -/
theorem encoded_cases (c : Char) :
    (∃ b : UInt8, b.toNat < 0x80 ∧ String.utf8EncodeChar c = [b] ∧ c = Char.ofNat b.toNat) ∨
      ∃ b tail, String.utf8EncodeChar c = b :: tail ∧ Sequence b tail c := by
  have value : c.val.toNat = c.toNat := rfl
  have whole : Char.ofNat c.toNat = c := Char.ofNat_toNat c
  have valid : c.toNat < 0xD800 ∨ 0xDFFF < c.toNat ∧ c.toNat < 0x110000 := c.valid
  rw [String.utf8EncodeChar, value]
  generalize c.toNat = v at whole valid ⊢
  have small (n : Nat) (hn : n < 256) : (UInt8.ofNat n).toNat = n := by
    rw [UInt8.toNat_ofNat']
    exact Nat.mod_eq_of_lt hn
  have follows (n : Nat) : (UInt8.ofNat (n % 0x40 + 0x80)).toNat = n % 0x40 + 0x80 := small _ (by omega)
  have tail (n : Nat) : Tail (UInt8.ofNat (n % 0x40 + 0x80)) := by
    rw [Tail, follows]
    omega
  split
  · have own := small v (by omega)
    exact .inl ⟨_, by omega, rfl, by rw [own, whole]⟩
  refine .inr ?_
  split
  · have lead := small (v / 64 % 0x20 + 0xC0) (by omega)
    refine ⟨_, _, rfl, ?_⟩
    have read := Sequence.two (b := UInt8.ofNat (v / 64 % 0x20 + 0xC0)) (by omega) (tail v)
    rwa [lead, follows, show (v / 64 % 0x20 + 0xC0) % 32 * 64 + (v % 0x40 + 0x80) % 64 = v by omega,
      whole] at read
  split
  · have lead := small (v / 4096 % 0x10 + 0xE0) (by omega)
    have second := follows (v / 64)
    refine ⟨_, _, rfl, ?_⟩
    have read := Sequence.three (b := UInt8.ofNat (v / 4096 % 0x10 + 0xE0)) (by omega) (tail (v / 64))
      (tail v) (by omega) (by omega)
    rwa [lead, follows, follows, show ((v / 4096 % 0x10 + 0xE0) % 16 * 64 + (v / 64 % 0x40 + 0x80) % 64)
      * 64 + (v % 0x40 + 0x80) % 64 = v by omega, whole] at read
  · have lead := small (v / 262144 % 0x08 + 0xF0) (by omega)
    have second := follows (v / 4096)
    refine ⟨_, _, rfl, ?_⟩
    have read := Sequence.four (b := UInt8.ofNat (v / 262144 % 0x08 + 0xF0)) (by omega)
      (tail (v / 4096)) (tail (v / 64)) (tail v) (by omega) (by omega)
    rwa [lead, follows, follows, follows, show (((v / 262144 % 0x08 + 0xF0) % 8 * 64
      + (v / 4096 % 0x40 + 0x80) % 64) * 64 + (v / 64 % 0x40 + 0x80) % 64) * 64
      + (v % 0x40 + 0x80) % 64 = v by omega, whole] at read

/-- **A text is read back** from its bytes. -/
theorem decode_encoded (cs : List Char) : decode (cs.flatMap String.utf8EncodeChar) = cs := by
  induction cs with
  | nil => rfl
  | cons c cs ih =>
      rw [List.flatMap_cons]
      rcases encoded_cases c with ⟨b, low, encoded, rfl⟩ | ⟨b, tail, encoded, h⟩
      · rw [encoded, List.singleton_append, decode_of_low low, ih]
      · rw [encoded, List.cons_append, decode_of_sequence h, ih]

/-- No text is shorter than the bytes that it is read from. -/
theorem length_le_of_decode (bytes : List UInt8) :
    bytes.length ≤ (String.ofList (decode bytes)).utf8ByteSize := by
  have one (c : Char) (cs : List Char) :
      (String.ofList (c :: cs)).utf8ByteSize = c.utf8Size + (String.ofList cs).utf8ByteSize := by
    rw [← List.singleton_append, String.ofList_append, String.utf8ByteSize_append,
      ← String.singleton_eq_ofList, String.utf8ByteSize_singleton]
  induction bytes using reading_induction with
  | nil => exact Nat.zero_le _
  | low b rest small ih =>
      have some := (Char.ofNat b.toNat).utf8Size_pos
      rw [decode_of_low small, one, List.length_cons]
      omega
  | alone b rest h ih =>
      have some := replacement.utf8Size_pos
      rw [decode_of_alone h, one, List.length_cons]
      omega
  | sequence b tail c rest h ih =>
      have size := h.size.2
      rw [decode_of_sequence h, one, List.length_cons, List.length_append]
      omega

/-! ### Lines -/

theorem newline_not_mem_of_tails {tail : List UInt8} (h : ∀ t ∈ tail, Tail t) : newline ∉ tail :=
  fun mem => absurd (h newline mem).1 (by decide)

/-- What a line feed follows is no better a sequence than what ends there. -/
theorem Alone.append_newline {b : UInt8} {rest : List UInt8} (h : Alone b rest) (after : List UInt8) :
    Alone b (rest ++ newline :: after) := by
  refine ⟨h.1, fun tail more c split sequence => ?_⟩
  obtain ⟨between, whole, ends⟩ | ⟨between, whole, -⟩ := List.append_eq_append_iff.mp split
  · cases between with
    | nil => exact h.2 tail [] c (by simp [whole]) sequence
    | cons x between =>
        obtain ⟨rfl, -⟩ := List.cons.inj ends
        exact newline_not_mem_of_tails sequence.tails (by simp [whole])
  · exact h.2 tail between c whole sequence

/-- **A line feed ends** what stands before it, be it cut off or not. -/
theorem decode_append_newline (before after : List UInt8) :
    decode (before ++ newline :: after) = decode before ++ '\n' :: decode after := by
  induction before using reading_induction with
  | nil => exact decode_of_low (b := newline) (by decide)
  | low b rest small ih =>
      rw [List.cons_append, decode_of_low small, decode_of_low small, ih, List.cons_append]
  | alone b rest h ih =>
      rw [List.cons_append, decode_of_alone h, decode_of_alone (h.append_newline after), ih,
        List.cons_append]
  | sequence b tail c rest h ih =>
      rw [List.cons_append, List.append_assoc, decode_of_sequence h, decode_of_sequence h, ih,
        List.cons_append]

theorem newline_not_mem_decode {bytes : List UInt8} (clear : newline ∉ bytes) :
    '\n' ∉ decode bytes := by
  induction bytes using reading_induction with
  | nil => exact List.not_mem_nil
  | low b rest small ih =>
      rw [List.mem_cons, not_or] at clear
      rw [decode_of_low small, List.mem_cons, not_or]
      refine ⟨fun same => clear.1 ?_, ih clear.2⟩
      have value : newline.toNat = (Char.ofNat b.toNat).toNat := congrArg Char.toNat same
      rw [toNat_ofNat (.inl (by omega))] at value
      exact UInt8.toNat_inj.mp value
  | alone b rest h ih =>
      rw [List.mem_cons, not_or] at clear
      rw [decode_of_alone h, List.mem_cons, not_or]
      exact ⟨by decide, ih clear.2⟩
  | sequence b tail c rest h ih =>
      rw [List.mem_cons, List.mem_append, not_or, not_or] at clear
      rw [decode_of_sequence h, List.mem_cons, not_or]
      refine ⟨?_, ih clear.2.2⟩
      rintro rfl
      exact absurd h.size.1 (by decide)

/-- **The lines of bytes** are read as the lines of the text. -/
theorem splitOn_decode (bytes : List UInt8) :
    (decode bytes).splitOn '\n' = (bytes.splitOn newline).map decode := by
  by_cases more : newline ∈ bytes
  · obtain ⟨line, rest, split, clear⟩ := List.eq_append_cons_of_mem more
    have shorter : rest.length < bytes.length := by simp [split]; omega
    rw [split, decode_append_newline, List.splitOn_append_cons_self_of_not_mem (newline_not_mem_decode clear),
      List.splitOn_append_cons_self_of_not_mem clear, List.map_cons, splitOn_decode rest]
  · rw [List.splitOn_eq_singleton more, List.splitOn_eq_singleton (newline_not_mem_decode more),
      List.map_singleton]
termination_by bytes.length

end Utf8

/-- What bytes are read as, be they a text or not. -/
theorem textOfBytes_eq (bytes : ByteArray) :
    textOfBytes bytes = String.ofList (Utf8.decode bytes.data.toList) := by
  rw [textOfBytes]
  split
  · next s read =>
    have bytes_eq : s.toByteArray = bytes := by
      rw [String.fromUTF8?] at read
      split at read
      · cases read
        rfl
      · cases read
    rw [← bytes_eq, ← String.ofList_toList (s := s), String.toByteArray_ofList, List.utf8Encode,
      List.data_toByteArray, List.toList_toArray, Utf8.decode_encoded]
  · rw [toList_bytes]

end SolidityLint
