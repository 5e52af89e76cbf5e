import SolidityLint.Proofs.Ast.Nesting
import SolidityLint.Proofs.Position.LineIndex
import SolidityLint.Proofs.Source.HeaderWords
import SolidityLint.Proofs.Text.Bytes

/-!
# Source — the spans of words

The words of a header are read from a text in which comments and literals are blanked out, at
offsets from its start, and their spans are sums of words of 64 bits.  Blanking out moves nothing
and changes a byte only into a blank (`getElem?_blankOut_cases`), which is in no word, so what is
read as a word stands in the source itself:

* `stand_words` and `pairwise_words`: the words of a text stand in it, one behind the other;
* `FindsComment.blanked`: of a comment that a search from the left finds, nothing is left;
* `headerWords_stand_in_source`: what follows for the words of a declaration.
-/

namespace SolidityLint

namespace Header

/-! ### The comments of a text -/

/-- A comment of `n` bytes leads the text: one to the end of its line, or one to the first mark that
ends it. -/
inductive LeadsComment : List UInt8 → Nat → Prop where
  | line {body rest : List UInt8} (hb : newline ∉ body) (stop : ∀ c ∈ rest.head?, c = newline) :
      LeadsComment (slash :: slash :: (body ++ rest)) (body.length + 2)
  | block {body : List UInt8} (hb : ¬ [star, slash] <:+: body) (rest : List UInt8) :
      LeadsComment (slash :: star :: (body ++ star :: slash :: rest)) (body.length + 4)

/-- A search from the left, which goes on behind each comment that it finds, finds one of `n` bytes
at offset `i`. -/
inductive FindsComment : List UInt8 → Nat → Nat → Prop where
  | here {text : List UInt8} {n : Nat} (h : LeadsComment text n) : FindsComment text 0 n
  | behind {text : List UInt8} {m i n : Nat} (h : LeadsComment text m)
      (later : FindsComment (text.drop m) i n) : FindsComment text (m + i) n
  | past {b : UInt8} {text : List UInt8} {i n : Nat} (h : ∀ m, ¬ LeadsComment (b :: text) m)
      (later : FindsComment text i n) : FindsComment (b :: text) (i + 1) n

theorem commentLength?_eq_some_iff {text : List UInt8} {n : Nat} :
    commentLength? text = some n ↔ LeadsComment text n := by
  constructor
  · intro h
    rcases exists_of_commentLength? h with ⟨rest, rfl, rfl⟩ | ⟨body, rest, rfl, hb, rfl⟩
    · have line : newline ∉ rest.takeWhile (· != newline) := fun h => by
        simpa using List.mem_takeWhile_imp h
      have stop : ∀ c ∈ (rest.dropWhile (· != newline)).head?, c = newline := fun c hc => by
        have ends := List.head?_dropWhile_not (· != newline) rest
        rw [Option.mem_def.mp hc] at ends
        simpa using ends
      simpa using LeadsComment.line line stop
    · exact .block hb rest
  · rintro (⟨hb, stop⟩ | ⟨hb, rest⟩)
    · exact commentLength?_line hb stop
    · exact commentLength?_block hb rest

/-- A comment in front is blanked out. -/
theorem LeadsComment.blanked {text : List UInt8} {n : Nat} (h : LeadsComment text n) :
    n ≤ text.length ∧ blankOut commentLength? text =
      List.replicate n space ++ blankOut commentLength? (text.drop n) := by
  cases h with
  | @line body rest hb stop =>
      have rest_eq : (slash :: slash :: (body ++ rest)).drop (body.length + 2) = rest := by simp
      exact ⟨by simp, rest_eq.symm ▸ blankOut_line hb stop⟩
  | @block body hb rest =>
      have rest_eq : (slash :: star :: (body ++ star :: slash :: rest)).drop (body.length + 4) =
          rest := by simp
      exact ⟨by simp, rest_eq.symm ▸ blankOut_block hb rest⟩

/-- **Comments** that are found are blanked out as a whole. -/
theorem FindsComment.blanked {text : List UInt8} {i n : Nat} (h : FindsComment text i n) :
    i + n ≤ text.length ∧
      ∀ k, i ≤ k → k < i + n → (blankOut commentLength? text)[k]? = some space := by
  induction h with
  | here h =>
      obtain ⟨fits, eq⟩ := h.blanked
      refine ⟨by omega, fun k _ hk => ?_⟩
      rw [eq, List.getElem?_append_left (by simpa using hk), List.getElem?_replicate,
        if_pos (by omega)]
  | @behind text m i n h _ ih =>
      obtain ⟨fits, eq⟩ := h.blanked
      rw [List.length_drop] at ih
      refine ⟨by omega, fun k hik hk => ?_⟩
      rw [eq, List.getElem?_append_right (by simp; omega), List.length_replicate]
      exact ih.2 (k - m) (by omega) (by omega)
  | @past b text i n h _ ih =>
      have none : commentLength? (b :: text) = none :=
        Option.eq_none_iff_forall_ne_some.mpr fun m hm => h m (commentLength?_eq_some_iff.mp hm)
      rw [List.length_cons]
      refine ⟨by omega, fun k hik hk => ?_⟩
      obtain ⟨k, rfl⟩ := Nat.exists_eq_add_one.mpr (show 0 < k by omega)
      rw [blankOut_cons none, List.getElem?_cons_succ]
      exact ih.2 k (by omega) (by omega)

/-! ### What is left where -/

section BlankOut

variable {length? : List UInt8 → Option Nat}

theorem getElem?_blankOut_go_cases {text : List UInt8} {hidden k : Nat} {b : UInt8}
    (h : (blankOut.go length? text hidden)[k]? = some b) : b = space ∨ text[k]? = some b := by
  induction text generalizing hidden k with
  | nil => cases hidden <;> exact .inr h
  | cons c text ih =>
      cases hidden with
      | zero =>
          rw [blankOut.go] at h
          split at h
          · cases k with
            | zero => exact .inl (Option.some.inj h).symm
            | succ k => exact ih h
          · cases k with
            | zero => exact .inr h
            | succ k => exact ih h
      | succ hidden =>
          rw [blankOut.go] at h
          cases k with
          | zero => exact .inl (Option.some.inj h).symm
          | succ k => exact ih h

/-- A byte that is left is a blank, or the byte that stands there. -/
theorem getElem?_blankOut_cases {text : List UInt8} {k : Nat} {b : UInt8}
    (h : (blankOut length? text)[k]? = some b) : b = space ∨ text[k]? = some b :=
  getElem?_blankOut_go_cases h

end BlankOut

theorem getElem?_bare_cases {text : List UInt8} {k : Nat} {b : UInt8}
    (h : (bare text)[k]? = some b) :
    b = space ∨ (blankOut commentLength? text)[k]? = some b ∧ text[k]? = some b := by
  rcases getElem?_blankOut_cases h with blank | left
  · exact .inl blank
  · exact (getElem?_blankOut_cases left).imp_right fun there => ⟨left, there⟩

/-! ### Words in a text -/

theorem solid_of_continuesWord {b : UInt8} (h : continuesWord b = true) : b < 0x80 ∧ b ≠ space := by
  simp only [continuesWord, startsWord, space, Bool.or_eq_true, Bool.and_eq_true, decide_eq_true_eq,
    beq_iff_eq, UInt8.le_iff_toNat_le, UInt8.lt_iff_toNat_lt, ne_eq, ← UInt8.toNat_inj] at h ⊢
  simp at h ⊢
  omega

/-- The bytes of a word stand in the text at its offset, and they are those of a word. -/
def Stands (text : List UInt8) (word : Nat × List UInt8) : Prop :=
  word.2 ≠ [] ∧ (∀ b ∈ word.2, continuesWord b = true) ∧ word.2 <+: text.drop word.1

theorem eq_of_mem_close {i depth : Nat} {word : List UInt8} {p : Nat × List UInt8}
    (h : p ∈ words.close i depth word) : word ≠ [] ∧ p = (i - word.length, word.reverse) := by
  obtain ⟨⟨-, some⟩, h⟩ := List.mem_ite_nil_right.mp h
  exact ⟨by simpa using some, List.mem_singleton.mp h⟩

theorem startsWord_continues {b : UInt8} (h : startsWord b = true) : continuesWord b = true := by
  rw [continuesWord, h, Bool.true_or]

/-- **The words of a text** stand in it.  The bytes that are still to be read are those behind the
word that is being read. -/
theorem stand_words {text bytes : List UInt8} {i depth : Nat} {word : List UInt8}
    (inWord : ∀ b ∈ word, continuesWord b = true) (read : word.length ≤ i)
    (here : text.drop (i - word.length) = word.reverse ++ bytes) :
    ∀ p ∈ words bytes i depth word, Stands text p := by
  have closed {i depth} {word bytes : List UInt8} (inWord : ∀ b ∈ word, continuesWord b = true)
      (here : text.drop (i - word.length) = word.reverse ++ bytes) :
      ∀ p ∈ words.close i depth word, Stands text p := by
    intro p hp
    obtain ⟨some, rfl⟩ := eq_of_mem_close hp
    exact ⟨by simpa using some, fun b hb => inWord b (List.mem_reverse.mp hb), ⟨bytes, here.symm⟩⟩
  induction bytes generalizing i depth word with
  | nil => exact closed inWord here
  | cons b bytes ih =>
      -- A byte behind the word is passed over.
      have pass (depth : Nat) : ∀ p ∈ words bytes (i + 1) depth [], Stands text p := by
        refine ih (fun _ h => absurd h List.not_mem_nil) (Nat.zero_le _) ?_
        have next : i + 1 = i - word.length + word.reverse.length + 1 := by
          rw [List.length_reverse]
          omega
        rw [List.length_nil, Nat.sub_zero, next, ← List.drop_drop, ← List.drop_drop, here,
          List.drop_left]
        rfl
      have join (more : continuesWord b = true) :
          ∀ p ∈ words bytes (i + 1) depth (b :: word), Stands text p := by
        refine ih (fun c hc => (List.mem_cons.mp hc).elim (· ▸ more) (inWord c)) ?_ ?_
        · rw [List.length_cons]
          omega
        · rw [List.length_cons, Nat.add_sub_add_right, here, List.reverse_cons, List.append_cons]
      rw [words]
      split
      · rename_i none
        obtain rfl : word = [] := by simpa using none
        split
        · rename_i starts
          exact join (startsWord_continues starts)
        · exact pass _
      · split
        · rename_i more
          exact join more
        · intro p hp
          exact (List.mem_append.mp hp).elim (closed inWord here p) (pass _ p)

/-- **Each word** of a text ends before the next one starts. -/
theorem pairwise_words (bytes : List UInt8) (i depth : Nat) (word : List UInt8)
    (read : word.length ≤ i) :
    (words bytes i depth word).Pairwise (fun p q => p.1 + p.2.length ≤ q.1) ∧
      ∀ p ∈ words bytes i depth word, i - word.length ≤ p.1 := by
  have alone (i depth : Nat) (word : List UInt8) :
      (words.close i depth word).Pairwise fun p q => p.1 + p.2.length ≤ q.1 := by
    unfold words.close
    split
    · exact List.pairwise_singleton ..
    · exact .nil
  induction bytes generalizing i depth word with
  | nil =>
      rw [words]
      exact ⟨alone i depth word, fun p hp => by rw [(eq_of_mem_close hp).2]⟩
  | cons b bytes ih =>
      -- What is read from here on starts behind the word being read.
      have later : ∀ {depth' word'}, word'.length ≤ word.length + 1 →
          (words bytes (i + 1) depth' word').Pairwise (fun p q => p.1 + p.2.length ≤ q.1) ∧
            ∀ p ∈ words bytes (i + 1) depth' word', i - word.length ≤ p.1 := by
        intro depth' word' longer
        have rest := ih (i + 1) depth' word' (by omega)
        exact ⟨rest.1, fun p hp => le_trans (by omega) (rest.2 p hp)⟩
      rw [words]
      split
      · split
        · exact later (Nat.le_add_left 1 _)
        · exact later (Nat.zero_le _)
      · split
        · exact later (Nat.le_refl _)
        · have rest := ih (i + 1) (words.step b depth) [] (Nat.zero_le _)
          refine ⟨List.pairwise_append.mpr ⟨alone i depth word, rest.1, ?_⟩, ?_⟩
          · intro p hp q hq
            have := rest.2 q hq
            rw [(eq_of_mem_close hp).2, List.length_reverse]
            simp only [List.length_nil] at this
            omega
          · intro p hp
            rcases List.mem_append.mp hp with hp | hp
            · rw [(eq_of_mem_close hp).2]
            · exact (later (Nat.zero_le _)).2 p hp

/-- The words that are left of a text stand in the text. -/
theorem Stands.of_bare {text : List UInt8} {word : Nat × List UInt8} (h : Stands (bare text) word) :
    Stands text word := by
  obtain ⟨some, solid, there⟩ := h
  refine ⟨some, solid, List.prefix_iff_getElem?.mpr fun k hk => ?_⟩
  have left := List.prefix_iff_getElem?.mp there k hk
  rw [List.getElem?_drop] at left ⊢
  have not_blank := (solid_of_continuesWord (solid _ (List.getElem_mem hk))).2
  exact ((getElem?_bare_cases left).resolve_left not_blank).2

/-- They are apart from the comments of the text. -/
theorem Stands.apart {text : List UInt8} {word : Nat × List UInt8} (h : Stands (bare text) word)
    {i n k : Nat} (found : FindsComment text i n) (hk : k < word.2.length) :
    ¬ (i ≤ word.1 + k ∧ word.1 + k < i + n) := by
  rintro ⟨low, high⟩
  obtain ⟨-, solid, there⟩ := h
  have left := List.prefix_iff_getElem?.mp there k hk
  rw [List.getElem?_drop] at left
  have not_blank := (solid_of_continuesWord (solid _ (List.getElem_mem hk))).2
  have kept := ((getElem?_bare_cases left).resolve_left not_blank).1
  rw [found.blanked.2 _ low high] at kept
  exact not_blank (Option.some.inj kept).symm

end Header

/-! ### Spans in a source -/

namespace SourceFile

theorem toList_slice (f : SourceFile) (s : Span) :
    (f.slice s).toList =
      between f.lines.source (clampOffset s.offset f.lines.size)
        (max (clampOffset s.offset f.lines.size) (clampOffset s.stop f.lines.size)) := by
  rw [toList_bytes, slice, LineIndex.slice_eq, List.toList_data_toByteArray]

section

variable {f : SourceFile} {s : Span} {word : Nat × List UInt8}

/-- The span of a word is the sum that it is written as, and ends before the stretch that the word
was read from does. -/
theorem toInt_wordAt (proper : s.Proper) (h : Header.Stands (f.slice s).toList word) :
    (wordAt s word).span.offset.toInt = s.offset.toInt + word.1 ∧
      (wordAt s word).span.length.toInt = word.2.length ∧
      (wordAt s word).span.stop.toInt = s.offset.toInt + word.1 + word.2.length ∧
      s.offset.toInt + word.1 + word.2.length ≤ s.stop.toInt ∧
      s.offset.toInt + word.1 + word.2.length ≤ f.lines.size := by
  obtain ⟨some, -, there⟩ := h
  have solid := List.length_pos_iff.mpr some
  have fits := there.length_le
  rw [toList_slice, between, List.length_drop, List.length_drop, List.length_take] at fits
  have size : f.lines.source.length = f.lines.size := rfl
  obtain ⟨start, -, -⟩ := proper.toInt_stop
  have bound := s.stop.toInt_lt
  have inside : s.offset.toInt + word.1 + word.2.length ≤ s.stop.toInt ∧
      s.offset.toInt + word.1 + word.2.length ≤ f.lines.size := by
    unfold clampOffset at fits
    omega
  have offset : (s.offset + Int64.ofNat word.1).toInt = s.offset.toInt + word.1 := by
    rw [Int64.toInt_add, Int64.toInt_ofNat_of_lt (by omega), Int.bmod_eq_of_le (by omega) (by omega)]
  have length : (Int64.ofNat word.2.length).toInt = word.2.length :=
    Int64.toInt_ofNat_of_lt (by omega)
  refine ⟨offset, length, ?_, inside⟩
  change (s.offset + Int64.ofNat word.1 + Int64.ofNat word.2.length).toInt = _
  rw [Int64.toInt_add, offset, length, Int.bmod_eq_of_le (by omega) (by omega)]

/-- The bytes under the span of a word are those of the word. -/
theorem slice_wordAt (proper : s.Proper) (h : Header.Stands (f.slice s).toList word) :
    (f.slice (wordAt s word).span).toList = word.2 := by
  obtain ⟨offset, -, stop, -, fits⟩ := toInt_wordAt proper h
  obtain ⟨start, -, -⟩ := proper.toInt_stop
  obtain ⟨-, -, there⟩ := h
  have first : clampOffset (wordAt s word).span.offset f.lines.size = s.offset.toInt.toNat + word.1 := by
    unfold clampOffset
    omega
  have last : clampOffset (wordAt s word).span.stop f.lines.size =
      s.offset.toInt.toNat + word.1 + word.2.length := by
    unfold clampOffset
    omega
  have here : clampOffset s.offset f.lines.size = s.offset.toInt.toNat := by
    unfold clampOffset
    omega
  rw [toList_slice, between, here, List.drop_drop, List.drop_take] at there
  have prefixed := there.trans (List.take_prefix _ _)
  rw [toList_slice, first, last, Nat.max_eq_right (Nat.le_add_right _ _), between, List.drop_take,
    Nat.add_sub_cancel_left]
  exact (List.prefix_iff_eq_take.mp prefixed).symm

/-- The text of a word is the one under its span, byte for byte. -/
theorem text_wordAt (proper : s.Proper) (h : Header.Stands (f.slice s).toList word) :
    f.slice (wordAt s word).span = (wordAt s word).text.toUTF8 ∧
      f.sliceText (wordAt s word).span = (wordAt s word).text := by
  have ascii : ∀ b ∈ word.2, b < 0x80 := fun b hb =>
    (Header.solid_of_continuesWord (h.2.1 b hb)).1
  have bytes : f.slice (wordAt s word).span = (wordAt s word).text.toUTF8 := by
    have same := slice_wordAt proper h
    rw [toList_bytes] at same
    rw [wordAt, toUTF8_ofList_decode ascii]
    apply ByteArray.ext
    rw [← Array.toList_inj, List.toList_data_toByteArray]
    exact same
  exact ⟨bytes, by rw [sliceText, bytes, textOfBytes_toUTF8]⟩

end

/-- The header of a declaration is a proper span, if it has one. -/
theorem proper_headerSpan {n : Node} (valid : (headerSpan n).isValid) : (headerSpan n).Proper := by
  unfold headerSpan stretchBetween at valid ⊢
  split
  · rename_i none
    rw [if_pos none] at valid
    exact absurd valid (by decide)
  · rename_i ordered
    simp only [Bool.or_eq_true, decide_eq_true_eq, not_or, Int64.not_lt] at ordered
    refine ⟨ordered.1, ?_⟩
    rw [Span.stop, Int64.add_comm, Int64.sub_add_cancel]
    exact ordered.2

/-- The words of a header are words that are left of its text, one behind the other; a declaration
without a header has none. -/
theorem exists_words (f : SourceFile) (n : Node) :
    ∃ ws : List (Nat × List UInt8), f.headerWords n = ws.map (wordAt (headerSpan n)) ∧
      (∀ word ∈ ws, (headerSpan n).isValid ∧
        Header.Stands (Header.bare (f.slice (headerSpan n)).toList) word) ∧
      ws.Pairwise fun v w => v.1 + v.2.length ≤ w.1 := by
  refine ⟨_, headerWords_eq f n, fun word hword => ⟨?_, ?_⟩, ?_⟩
  · cases valid : (headerSpan n).isValid with
    | true => rfl
    | false =>
        rw [headerSpan_eq_none valid, slice_none] at hword
        exact absurd hword List.not_mem_nil
  · exact Header.stand_words (i := 0) (fun _ h => absurd h List.not_mem_nil) (Nat.le_refl 0) rfl
      word hword
  · exact (Header.pairwise_words _ 0 0 [] (Nat.zero_le _)).1

section

variable {f : SourceFile} {n : Node} {w : Word}

/-- A word of a header is one that is left of its text. -/
theorem exists_of_mem_headerWords (h : w ∈ f.headerWords n) :
    ∃ word, w = wordAt (headerSpan n) word ∧ (headerSpan n).isValid ∧
      Header.Stands (Header.bare (f.slice (headerSpan n)).toList) word := by
  obtain ⟨ws, eq, stand, -⟩ := exists_words f n
  obtain ⟨word, hword, rfl⟩ := List.mem_map.mp (eq ▸ h)
  exact ⟨word, rfl, stand word hword⟩

theorem text_of_mem_headerWords (h : w ∈ f.headerWords n) :
    f.slice w.span = w.text.toUTF8 ∧ f.sliceText w.span = w.text := by
  obtain ⟨word, rfl, valid, left⟩ := exists_of_mem_headerWords h
  exact text_wordAt (proper_headerSpan valid) left.of_bare

/-- A word takes some of the header. -/
theorem inside_of_mem_headerWords (h : w ∈ f.headerWords n) :
    0 < w.span.length ∧ w.span.Inside (headerSpan n) := by
  obtain ⟨word, rfl, valid, left⟩ := exists_of_mem_headerWords h
  obtain ⟨offset, length, stop, inside, -⟩ :=
    toInt_wordAt (proper_headerSpan valid) left.of_bare
  have solid := List.length_pos_iff.mpr left.1
  have zero : (0 : Int64).toInt = 0 := rfl
  simp only [Span.Inside, Int64.le_iff_toInt_le, Int64.lt_iff_toInt_lt]
  omega

/-- No byte of a word is one of a comment. -/
theorem apart_of_mem_headerWords (h : w ∈ f.headerWords n) {i k : Nat}
    (found : Header.FindsComment (f.slice (headerSpan n)).toList i k) {o : Int64}
    (within : w.span.contains o) :
    ¬ ((headerSpan n).offset.toInt + i ≤ o.toInt ∧
      o.toInt < (headerSpan n).offset.toInt + i + k) := by
  obtain ⟨word, rfl, valid, left⟩ := exists_of_mem_headerWords h
  obtain ⟨offset, -, stop, -⟩ := toInt_wordAt (proper_headerSpan valid) left.of_bare
  simp only [Span.contains, Bool.and_eq_true, decide_eq_true_eq, Int64.le_iff_toInt_le,
    Int64.lt_iff_toInt_lt, offset, stop] at within
  -- The byte of the word that stands there.
  obtain ⟨j, hj⟩ := Int.eq_ofNat_of_zero_le (Int.sub_nonneg.mpr within.1)
  have outside := left.apart found (k := j) (by omega)
  omega

/-- **The words of a header** stand in the source one behind the other. -/
theorem pairwise_headerWords (f : SourceFile) (n : Node) :
    (f.headerWords n).Pairwise fun v w =>
      v.span.offset < w.span.offset ∧ v.span.stop ≤ w.span.offset := by
  obtain ⟨ws, eq, stand, apart⟩ := exists_words f n
  rw [eq]
  refine List.pairwise_map.mpr (apart.imp_of_mem fun {v w} hv hw before => ?_)
  have proper := proper_headerSpan (stand v hv).1
  obtain ⟨offset, -, stop, -⟩ := toInt_wordAt proper (stand v hv).2.of_bare
  obtain ⟨offset', -⟩ := toInt_wordAt proper (stand w hw).2.of_bare
  have solid := List.length_pos_iff.mpr (stand v hv).2.1
  rw [Int64.lt_iff_toInt_lt, Int64.le_iff_toInt_le]
  omega

end

/-- **The words of a header stand in the source.**  The text of each is what stands under its span,
byte for byte; its span takes some of the header and lies inside it, behind the spans of the words
before; and no byte of a word is one of a comment that a search of the header finds. -/
theorem headerWords_stand_in_source (f : SourceFile) (n : Node) :
    (∀ w ∈ f.headerWords n,
      (f.slice w.span = w.text.toUTF8 ∧ f.sliceText w.span = w.text) ∧
      (0 < w.span.length ∧ w.span.Inside (headerSpan n)) ∧
      ∀ i k, Header.FindsComment (f.slice (headerSpan n)).toList i k →
        ∀ o, w.span.contains o → ¬ ((headerSpan n).offset.toInt + i ≤ o.toInt ∧
          o.toInt < (headerSpan n).offset.toInt + i + k)) ∧
    (f.headerWords n).Pairwise fun v w =>
      v.span.offset < w.span.offset ∧ v.span.stop ≤ w.span.offset :=
  ⟨fun _ hw => ⟨text_of_mem_headerWords hw, inside_of_mem_headerWords hw,
    fun _ _ found _ within => apart_of_mem_headerWords hw found within⟩, pairwise_headerWords f n⟩

end SourceFile

/-! ### A keyword in a comment -/

/-- A header with a visibility in a comment. -/
def commentedHeader : SourceFile × Node := functionWith " onlyOwner /* public */ view "

/-- A search passes over bytes that are no slashes. -/
theorem Header.FindsComment.pass {front text : List UInt8} {i n : Nat}
    (h : ∀ b ∈ front, b ≠ slash) (later : FindsComment text i n) :
    FindsComment (front ++ text) (front.length + i) n := by
  induction front with
  | nil => simpa using later
  | cons b front ih =>
      have rest := ih fun c hc => h c (List.mem_cons_of_mem b hc)
      rw [List.cons_append, List.length_cons, Nat.add_right_comm]
      refine .past (fun m leads => ?_) rest
      have none := commentLength?_of_ne (h b List.mem_cons_self) (front ++ text)
      rw [commentLength?_eq_some_iff.mpr leads] at none
      cases none

/-- The comment in the header is found, and the word behind it is not part of it. -/
theorem headerWords_stand_in_source_commented :
    let header := (commentedHeader.1.slice (SourceFile.headerSpan commentedHeader.2)).toList
    ∃ w ∈ commentedHeader.1.headerWords commentedHeader.2, w = ⟨"view", ⟨36, 4, 0⟩⟩ ∧
      commentedHeader.1.sliceText w.span = "view" ∧ Header.FindsComment header 11 12 ∧
      ∀ o, w.span.contains o → ¬ (12 + 11 ≤ o.toInt ∧ o.toInt < 12 + 11 + 12) := by
  intro header
  have word : (⟨"view", ⟨36, 4, 0⟩⟩ : Word) ∈ commentedHeader.1.headerWords commentedHeader.2 := by
    decide +kernel
  have text : header = [0x20, 0x6F, 0x6E, 0x6C, 0x79, 0x4F, 0x77, 0x6E, 0x65, 0x72, 0x20] ++
      (Header.slash :: Header.star :: ([0x20, 0x70, 0x75, 0x62, 0x6C, 0x69, 0x63, 0x20] ++
        Header.star :: Header.slash :: [0x20, 0x76, 0x69, 0x65, 0x77, 0x20])) := by
    decide +kernel
  have found : Header.FindsComment header 11 12 := by
    rw [text]
    exact Header.FindsComment.pass (i := 0) (by decide +kernel) (.here (.block (by decide) _))
  have all := (SourceFile.headerWords_stand_in_source commentedHeader.1 commentedHeader.2).1 _ word
  exact ⟨_, word, rfl, all.1.2, found, all.2.2 11 12 found⟩

end SolidityLint
