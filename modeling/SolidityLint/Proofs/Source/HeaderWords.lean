import SolidityLint.Proofs.Source.Blanking

/-!
# Source — the words of a header

`words_blanked` reads the words of a header off what is left when its comments and literals are
blanked out: they are the words of the reading outside parentheses.  `headerWords_of_reading` is
what follows for the words and the visibility of a declaration.
-/

namespace SolidityLint

namespace Header

/-! ### The words that are left -/

theorem not_startsWord {b : UInt8} (h : continuesWord b = false) : startsWord b = false :=
  (Bool.or_eq_false_iff.mp h).1

theorem words_cons {b : UInt8} (h : startsWord b = false) (rest : List UInt8) (i depth : Nat) :
    words (b :: rest) i depth [] = words rest (i + 1) (words.step b depth) [] := by
  rw [words]
  simp [h]

/-- A word that has begun goes on to its end. -/
theorem words_append {w rest : List UInt8} (hw : ∀ c ∈ w, continuesWord c = true)
    (stop : ∀ c ∈ rest.head?, continuesWord c = false) (depth : Nat) :
    ∀ (i : Nat) {read : List UInt8}, read ≠ [] →
      words (w ++ rest) i depth read =
        words.close (i + w.length) depth (w.reverse ++ read) ++
          words rest (i + w.length) depth [] := by
  induction w with
  | nil =>
      intro i read hread
      have begun : read.isEmpty = false := by simpa using hread
      cases rest with
      | nil => simp [words, words.close]
      | cons c rest =>
          have hc := stop c rfl
          rw [List.nil_append, words, words_cons (not_startsWord hc)]
          simp [begun, hc]
  | cons b w ih =>
      intro i read hread
      have begun : read.isEmpty = false := by simpa using hread
      have hb := hw b List.mem_cons_self
      have go := ih (fun c hc => hw c (List.mem_cons_of_mem b hc)) (i + 1) (List.cons_ne_nil b read)
      rw [List.cons_append, words]
      simp only [begun, hb, Bool.false_eq_true, if_false, if_true, go]
      simp [Nat.add_assoc, Nat.add_comm 1]

/-- A whole word is read at once. -/
theorem words_word {b : UInt8} {w rest : List UInt8} (hb : startsWord b = true)
    (hw : ∀ c ∈ w, continuesWord c = true) (stop : ∀ c ∈ rest.head?, continuesWord c = false)
    (i depth : Nat) :
    words (b :: (w ++ rest)) i depth [] =
      (if depth = 0 then [(i, b :: w)] else []) ++ words rest (i + (w.length + 1)) depth [] := by
  rw [words]
  simp only [List.isEmpty_nil, if_true, hb]
  rw [words_append hw stop depth (i + 1) (List.cons_ne_nil b [])]
  have next : i + 1 + w.length = i + (w.length + 1) := by omega
  by_cases h : depth = 0
  · simp [words.close, h, next]
  · simp [words.close, h, next]

/-- Bytes that start no word and are no parentheses are passed over. -/
theorem words_pass {bytes : List UInt8}
    (h : ∀ b ∈ bytes, startsWord b = false ∧ b ≠ 0x28 ∧ b ≠ 0x29) (rest : List UInt8) :
    ∀ (i depth : Nat),
      words (bytes ++ rest) i depth [] = words rest (i + bytes.length) depth [] := by
  induction bytes with
  | nil => intro i depth; rfl
  | cons b bytes ih =>
      intro i depth
      obtain ⟨word, opening, closing⟩ := h b List.mem_cons_self
      have same : words.step b depth = depth := by simp [words.step, opening, closing]
      rw [List.cons_append, words_cons word, same,
        ih fun c hc => h c (List.mem_cons_of_mem b hc), List.length_cons, Nat.add_assoc,
        Nat.add_comm 1]

theorem blank_passes {b : UInt8} (h : isBlank b = true) :
    startsWord b = false ∧ b ≠ 0x28 ∧ b ≠ 0x29 := by
  grind [isBlank, startsWord, space]

theorem mark_passes {b : UInt8} (h : isMark b = true) :
    startsWord b = false ∧ b ≠ 0x28 ∧ b ≠ 0x29 := by
  simp only [isMark, Bool.and_eq_true, Bool.not_eq_true', bne_iff_ne] at h
  exact ⟨not_startsWord h.1.1.1.2, h.1.2, h.2⟩

/-- What follows a token starts as before, or with a blank. -/
theorem head?_blanked {text : List UInt8} {ts : List Token} (h : Reads text ts) :
    (ts.flatMap Token.blanked).head? = text.head? ∨
      (ts.flatMap Token.blanked).head? = some space := by
  cases h with
  | nil => exact Or.inl rfl
  | blank _ _ | mark _ _ _ | opening _ | closing _ | word _ _ _ _ => exact Or.inl rfl
  | line _ _ _ | block _ _ | literal _ _ _ => exact Or.inr rfl

/-- **The words of a reading.**  What is left when comments and literals are blanked out has the
words of the reading outside parentheses. -/
theorem words_blanked {text : List UInt8} {ts : List Token} (h : Reads text ts) :
    ∀ (i depth : Nat), words (ts.flatMap Token.blanked) i depth [] = outside ts i depth := by
  have blanks : ∀ n, ∀ b ∈ List.replicate n space, startsWord b = false ∧ b ≠ 0x28 ∧ b ≠ 0x29 := by
    intro n b hb
    rw [List.eq_of_mem_replicate hb]
    decide
  induction h with
  | nil => intro i depth; simp [words, words.close, outside]
  | @blank b rest ts hb _ ih =>
      intro i depth
      have passes : ∀ c ∈ [b], startsWord c = false ∧ c ≠ 0x28 ∧ c ≠ 0x29 := by
        simpa using blank_passes hb
      exact (words_pass passes _ i depth).trans (ih _ _)
  | @mark b rest ts hb _ _ ih =>
      intro i depth
      have passes : ∀ c ∈ [b], startsWord c = false ∧ c ≠ 0x28 ∧ c ≠ 0x29 := by
        simpa using mark_passes hb
      exact (words_pass passes _ i depth).trans (ih _ _)
  | opening _ ih | closing _ ih =>
      intro i depth
      exact (words_cons rfl _ i depth).trans (ih _ _)
  | @word b w rest ts hb hw stop h ih =>
      intro i depth
      have stop' : ∀ c ∈ (ts.flatMap Token.blanked).head?, continuesWord c = false := by
        intro c hc
        rcases head?_blanked h with eq | eq
        · exact stop c (eq ▸ hc)
        · rw [eq] at hc
          cases hc
          rfl
      exact (words_word hb hw stop' i depth).trans (by rw [ih]; rfl)
  | line _ _ _ ih | block _ _ ih =>
      intro i depth
      rw [List.flatMap_cons, Token.blanked, words_pass (blanks _), ih, List.length_replicate]
      rfl
  | literal _ _ _ ih =>
      intro i depth
      rw [List.flatMap_cons, Token.blanked, words_pass (blanks _), ih, List.length_replicate]
      simp [outside, Token.bytes]

end Header

namespace SourceFile

/-- A word of a header that starts at an offset from the start of the header. -/
def wordAt (span : Span) (word : Nat × List UInt8) : Word :=
  { text := String.ofList (Utf8.decode word.2)
    span := ⟨span.offset + Int64.ofNat word.1, Int64.ofNat word.2.length, span.file⟩ }

theorem isValid_between {start stop : Int64} (file : Int64) (hs : ¬ start < 0)
    (h : ¬ stop < start) : Span.isValid ⟨start, stop - start, file⟩ = true := by
  have low := Int64.not_lt.mp hs
  have order := Int64.not_lt.mp h
  have length : 0 ≤ stop - start := by
    rw [Int64.le_iff_toInt_le] at low order ⊢
    have bound := stop.toInt_lt
    have low' : (0 : Int64).toInt = 0 := rfl
    rw [low'] at low ⊢
    rw [Int64.toInt_sub, Int.bmod_eq_of_le (by omega) (by omega)]
    omega
  simp [Span.isValid, low, length]

theorem headerSpan_eq_none {n : Node} (h : (headerSpan n).isValid = false) :
    headerSpan n = .none := by
  unfold headerSpan stretchBetween at h ⊢
  split
  · rfl
  · rename_i ordered
    rw [if_neg ordered] at h
    simp only [Bool.or_eq_true, decide_eq_true_eq, not_or] at ordered
    rw [isValid_between n.src.file ordered.1 ordered.2] at h
    cases h

theorem slice_none (f : SourceFile) : (f.slice .none).toList = [] := by
  have start : clampOffset Span.none.offset f.lines.size = 0 := Nat.zero_min _
  have stop : clampOffset Span.none.stop f.lines.size = 0 := Nat.zero_min _
  rw [slice, start, stop]
  simp [LineIndex.slice]

theorem headerWords_eq (f : SourceFile) (n : Node) :
    f.headerWords n =
      (Header.words (Header.bare (f.slice (headerSpan n)).toList) 0 0 []).map
        (wordAt (headerSpan n)) := by
  unfold headerWords wordsIn
  cases valid : (headerSpan n).isValid with
  | true => rw [if_pos rfl]; rfl
  | false =>
      rw [headerSpan_eq_none valid, slice_none]
      rfl

/-- **The words of a header.**  Let a header read as tokens.  If the literals among them are
sealed, the words found are the words outside parentheses, in order and in their places, and the
visibility is the first of them that is a visibility keyword.  If not, a comment marker in a literal
was taken for a comment: the closing quote of that literal is blanked out. -/
theorem headerWords_of_reading (f : SourceFile) (n : Node) {ts : List Header.Token}
    (h : Header.Reads (f.slice (headerSpan n)).toList ts) :
    (Header.Sealed ts →
      f.headerWords n = (Header.outside ts 0 0).map (wordAt (headerSpan n)) ∧
      f.explicitVisibility n =
        ((((Header.outside ts 0 0).map (wordAt (headerSpan n))).map Word.text).find?
          isVisibility).getD "") ∧
    (¬ Header.Sealed ts → Header.LosesQuote (f.slice (headerSpan n)).toList ts) := by
  refine ⟨fun sealed => ?_, Header.losesQuote h⟩
  have words : f.headerWords n = (Header.outside ts 0 0).map (wordAt (headerSpan n)) := by
    rw [headerWords_eq, Header.bare_eq h sealed, Header.words_blanked h]
  refine ⟨words, ?_⟩
  rw [explicitVisibility, words, List.find?_map (f := Word.text)]
  rfl

end SourceFile

/-! ### Two headers -/

/-- A function with the given header between its parameters and its body. -/
def functionWith (header : String) : SourceFile × Node :=
  let stop := 12 + Int64.ofNat header.utf8ByteSize
  (.ofBytes "/t.sol" ("function f()" ++ header ++ "\x7b\x7d").toUTF8 none,
    .mk ⟨1, "FunctionDefinition", ⟨0, stop + 2, 0⟩, [],
        [("parameters", [some 0]), ("body", [some 1])]⟩
      [.mk ⟨2, "ParameterList", ⟨10, 2, 0⟩, [], []⟩ [], .mk ⟨3, "Block", ⟨stop, 2, 0⟩, [], []⟩ []])

/-- A header with a parenthesis in a literal and a quote in a comment. -/
def sealedHeader : SourceFile × Node := functionWith " m(')')/*\"*/ public "

/-- A header with a comment marker in a literal. -/
def unsealedHeader : SourceFile × Node := functionWith " m(\"//\") public "

namespace Header

/-- The word `public` between blanks. -/
def publicTokens : List Token :=
  [.blank 0x20, .word [0x70, 0x75, 0x62, 0x6C, 0x69, 0x63], .blank 0x20]

theorem reads_publicTokens :
    Reads [0x20, 0x70, 0x75, 0x62, 0x6C, 0x69, 0x63, 0x20] publicTokens :=
  .blank rfl (.word (w := [0x75, 0x62, 0x6C, 0x69, 0x63]) rfl (List.all_eq_true.mp rfl)
    (by rintro c ⟨⟩; rfl) (.blank rfl .nil))

/-- The tokens of ` m(` with a literal behind it, a parenthesis and more. -/
theorem reads_modifier (quote : UInt8) (body : List UInt8) {rest : List UInt8} {ts : List Token}
    (hq : isQuote quote = true) (hb : LiteralBody quote false body) (h : Reads rest ts) :
    Reads (0x20 :: 0x6D :: 0x28 :: quote :: (body ++ quote :: 0x29 :: rest))
      (.blank 0x20 :: .word [0x6D] :: .opening :: .literal quote body :: .closing :: ts) :=
  .blank rfl (.word (w := []) rfl (List.all_eq_true.mp rfl) (by rintro c ⟨⟩; rfl)
    (.opening (.literal hq hb (.closing h))))

/-- The tokens of the sealed header. -/
def sealedTokens : List Token :=
  .blank 0x20 :: .word [0x6D] :: .opening :: .literal 0x27 [0x29] :: .closing ::
    .comment [0x2F, 0x2A, 0x22, 0x2A, 0x2F] :: publicTokens

/-- The tokens of the other header. -/
def unsealedTokens : List Token :=
  .blank 0x20 :: .word [0x6D] :: .opening :: .literal 0x22 [0x2F, 0x2F] :: .closing :: publicTokens

theorem sealed_sealedTokens : Sealed sealedTokens := by
  refine ⟨.byte ?_ .nil, trivial⟩
  rintro (⟨rest, eq⟩ | ⟨body, rest, eq⟩)
  · exact absurd (List.cons.inj eq).1 (by decide)
  · exact absurd (List.cons.inj eq).1 (by decide)

end Header

/-- The words of the sealed header are those outside the parenthesis, the literal and the
comment. -/
theorem headerWords_of_reading_sealedHeader :
    Header.Reads (sealedHeader.1.slice (SourceFile.headerSpan sealedHeader.2)).toList
      Header.sealedTokens ∧
    Header.Sealed Header.sealedTokens ∧
    (sealedHeader.1.headerWords sealedHeader.2).map Word.text = ["m", "public"] ∧
    sealedHeader.1.explicitVisibility sealedHeader.2 = "public" := by
  have text : (sealedHeader.1.slice (SourceFile.headerSpan sealedHeader.2)).toList =
      [0x20, 0x6D, 0x28, 0x27, 0x29, 0x27, 0x29, 0x2F, 0x2A, 0x22, 0x2A, 0x2F,
        0x20, 0x70, 0x75, 0x62, 0x6C, 0x69, 0x63, 0x20] := by decide +kernel
  have reads : Header.Reads (sealedHeader.1.slice (SourceFile.headerSpan sealedHeader.2)).toList
      Header.sealedTokens := by
    rw [text]
    exact Header.reads_modifier 0x27 [0x29] rfl ⟨by decide, by decide, rfl⟩
      (@Header.Reads.block [0x22] _ _ (by decide) Header.reads_publicTokens)
  obtain ⟨words, visibility⟩ :=
    (SourceFile.headerWords_of_reading _ _ reads).1 Header.sealed_sealedTokens
  refine ⟨reads, Header.sealed_sealedTokens, ?_, ?_⟩
  · rw [words]; rfl
  · rw [visibility]; rfl

/-- **A marker that is no comment.**  The slashes in the literal hide the rest of the line: of the
words outside parentheses only the first is found, and the visibility is missed. -/
theorem marker_in_literal_hides_visibility :
    Header.Reads (unsealedHeader.1.slice (SourceFile.headerSpan unsealedHeader.2)).toList
      Header.unsealedTokens ∧
    ((Header.outside Header.unsealedTokens 0 0).map
      (SourceFile.wordAt (SourceFile.headerSpan unsealedHeader.2))).map Word.text =
        ["m", "public"] ∧
    (unsealedHeader.1.headerWords unsealedHeader.2).map Word.text = ["m"] ∧
    unsealedHeader.1.explicitVisibility unsealedHeader.2 = "" := by
  have text : (unsealedHeader.1.slice (SourceFile.headerSpan unsealedHeader.2)).toList =
      [0x20, 0x6D, 0x28, 0x22, 0x2F, 0x2F, 0x22, 0x29,
        0x20, 0x70, 0x75, 0x62, 0x6C, 0x69, 0x63, 0x20] := by decide +kernel
  refine ⟨?_, by decide +kernel, by decide +kernel, by decide +kernel⟩
  rw [text]
  exact Header.reads_modifier 0x22 [0x2F, 0x2F] rfl
    ⟨by decide, by decide, by decide, by decide, rfl⟩ Header.reads_publicTokens

end SolidityLint
