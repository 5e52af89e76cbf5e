import SolidityLint.Proofs.Source.Tokens

/-!
# Source — blanking out comments and literals

The words of a header are looked for in what `bare` leaves of it: comments are blanked out first,
and then string literals.  The first pass does not know of literals, so a comment marker inside one
is taken for a comment.

* `bare_eq`: on a reading whose literals are sealed, the two passes blank out exactly its comments
  and its literals.
* `losesQuote`: if a literal is not sealed, the first pass blanks out the closing quote of one.
-/

namespace SolidityLint

namespace Header

/-! ### Blanking out -/

section BlankOut

variable {length? : List UInt8 → Option Nat}

/-- A byte at which nothing is found stays. -/
theorem blankOut_cons {b : UInt8} {rest : List UInt8} (h : length? (b :: rest) = none) :
    blankOut length? (b :: rest) = b :: blankOut length? rest := by
  rw [blankOut, blankOut.go, h]
  rfl

/-- Bytes at which nothing is ever found stay. -/
theorem blankOut_stays {bytes : List UInt8}
    (h : ∀ b ∈ bytes, ∀ rest, length? (b :: rest) = none) (rest : List UInt8) :
    blankOut length? (bytes ++ rest) = bytes ++ blankOut length? rest := by
  induction bytes with
  | nil => rfl
  | cons b bytes ih =>
      rw [List.cons_append, blankOut_cons (h b List.mem_cons_self _),
        ih fun c hc => h c (List.mem_cons_of_mem b hc)]
      rfl

theorem blankOut_go_append (bytes rest : List UInt8) :
    blankOut.go length? (bytes ++ rest) bytes.length =
      List.replicate bytes.length space ++ blankOut length? rest := by
  induction bytes with
  | nil => rfl
  | cons b bytes ih =>
      rw [List.cons_append, List.length_cons, blankOut.go, ih]
      rfl

/-- A stretch that is found is blanked out as a whole. -/
theorem blankOut_append {b : UInt8} {bytes rest : List UInt8}
    (h : length? (b :: (bytes ++ rest)) = some (bytes.length + 1)) :
    blankOut length? (b :: (bytes ++ rest)) =
      List.replicate (bytes.length + 1) space ++ blankOut length? rest := by
  rw [blankOut, blankOut.go, h]
  exact congrArg (List.cons space) (blankOut_go_append bytes rest)

theorem getElem?_blankOut_go (bytes : List UInt8) : ∀ {i hidden : Nat}, i < hidden →
    i < bytes.length → (blankOut.go length? bytes hidden)[i]? = some space := by
  induction bytes with
  | nil => intro i hidden _ h; exact absurd h (Nat.not_lt_zero i)
  | cons b bytes ih =>
      intro i hidden hi h
      cases hidden with
      | zero => exact absurd hi (Nat.not_lt_zero i)
      | succ hidden =>
          rw [blankOut.go]
          cases i with
          | zero => rfl
          | succ i => exact ih (Nat.lt_of_succ_lt_succ hi) (Nat.lt_of_succ_lt_succ h)

/-- All bytes of a stretch that is found are blank. -/
theorem getElem?_blankOut {text : List UInt8} {i n : Nat} (h : length? text = some n) (hi : i < n)
    (hlen : i < text.length) : (blankOut length? text)[i]? = some space := by
  cases text with
  | nil => exact absurd hlen (Nat.not_lt_zero i)
  | cons b rest =>
      cases n with
      | zero => exact absurd hi (Nat.not_lt_zero i)
      | succ n =>
          rw [blankOut, blankOut.go, h]
          cases i with
          | zero => rfl
          | succ i =>
              exact getElem?_blankOut_go rest (Nat.lt_of_succ_lt_succ hi)
                (Nat.lt_of_succ_lt_succ hlen)

end BlankOut

/-! ### Comments -/

theorem star_ne_slash : star ≠ slash := by decide

theorem commentLength?_of_ne {b : UInt8} (h : b ≠ slash) (rest : List UInt8) :
    commentLength? (b :: rest) = none := by
  cases rest with
  | nil => rfl
  | cons c rest => simp [commentLength?, h]

theorem commentLength?_of_apart {b : UInt8} {rest : List UInt8}
    (apart : b = slash → ∀ c ∈ rest.head?, c ≠ slash ∧ c ≠ star) :
    commentLength? (b :: rest) = none := by
  by_cases h : b = slash
  · cases rest with
    | nil => rfl
    | cons c rest =>
        obtain ⟨line, block⟩ := apart h c rfl
        simp [commentLength?, line, block]
  · exact commentLength?_of_ne h rest

/-- The first end of a block comment. -/
theorem blockEnd?_append {body : List UInt8} (h : ¬ [star, slash] <:+: body)
    (rest : List UInt8) :
    blockEnd? (body ++ star :: slash :: rest) = some (body.length + 2) := by
  induction body with
  | nil => rfl
  | cons b body ih =>
      have ih := ih fun inside => h (List.infix_cons inside)
      cases body with
      | nil =>
          simp [blockEnd?, star_ne_slash]
      | cons c body =>
          have ends : ¬ (b = star ∧ c = slash) := by
            rintro ⟨rfl, rfl⟩
            exact h ⟨[], body, rfl⟩
          rw [List.cons_append, List.cons_append, blockEnd?]
          rw [List.cons_append] at ih
          simp only [Bool.and_eq_true, beq_iff_eq, ends, if_false, ih, Option.map_some,
            List.length_cons]

theorem exists_of_blockEnd? {bytes : List UInt8} {n : Nat} (h : blockEnd? bytes = some n) :
    ∃ body rest, bytes = body ++ star :: slash :: rest ∧ ¬ [star, slash] <:+: body ∧
      n = body.length + 2 := by
  induction bytes generalizing n with
  | nil => cases h
  | cons a bytes ih =>
      cases bytes with
      | nil => cases h
      | cons b bytes =>
          rw [blockEnd?] at h
          split at h
          · rename_i ends
            obtain ⟨rfl, rfl⟩ : a = star ∧ b = slash := by simpa using ends
            cases h
            exact ⟨[], bytes, rfl, by simp, rfl⟩
          · rename_i ends
            obtain ⟨m, hm, rfl⟩ := Option.map_eq_some_iff.mp h
            obtain ⟨body, rest, eq, inside, rfl⟩ := ih hm
            refine ⟨a :: body, rest, by rw [eq]; rfl, fun later => ?_, by simp⟩
            rcases List.infix_cons_iff.mp later with front | later
            · cases body with
              | nil => simp at front
              | cons c body =>
                  simp only [List.cons_append, List.cons.injEq] at eq
                  simp only [List.cons_prefix_cons] at front
                  exact ends (by simp [← front.1, eq.1, ← front.2.1])
            · exact inside later

theorem commentLength?_line {body rest : List UInt8} (hb : newline ∉ body)
    (stop : ∀ c ∈ rest.head?, c = newline) :
    commentLength? (slash :: slash :: (body ++ rest)) = some (body.length + 2) := by
  have inside : ∀ c ∈ body, (c != newline) = true := fun c hc =>
    bne_iff_ne.mpr fun eq => hb (eq ▸ hc)
  have outside : rest.takeWhile (· != newline) = [] := by
    cases rest with
    | nil => rfl
    | cons c rest => simp [stop c rfl]
  simp only [commentLength?, beq_self_eq_true, Bool.and_self, if_true,
    List.takeWhile_append_of_pos inside, outside, List.append_nil, Nat.add_comm]

theorem commentLength?_block {body : List UInt8} (hb : ¬ [star, slash] <:+: body)
    (rest : List UInt8) :
    commentLength? (slash :: star :: (body ++ star :: slash :: rest)) = some (body.length + 4) := by
  simp [commentLength?, star_ne_slash, blockEnd?_append hb]

theorem blankOut_line {body rest : List UInt8} (hb : newline ∉ body)
    (stop : ∀ c ∈ rest.head?, c = newline) :
    blankOut commentLength? (slash :: slash :: (body ++ rest)) =
      List.replicate (body.length + 2) space ++ blankOut commentLength? rest :=
  @blankOut_append commentLength? slash (slash :: body) rest (commentLength?_line hb stop)

theorem blankOut_block {body : List UInt8} (hb : ¬ [star, slash] <:+: body) (rest : List UInt8) :
    blankOut commentLength? (slash :: star :: (body ++ star :: slash :: rest)) =
      List.replicate (body.length + 4) space ++ blankOut commentLength? rest := by
  have found : commentLength? (slash :: ((star :: (body ++ [star, slash])) ++ rest)) =
      some ((star :: (body ++ [star, slash])).length + 1) := by
    simpa using commentLength?_block hb rest
  simpa using blankOut_append found

/-- What is found is a comment, to the end of its line or to its first end mark. -/
theorem exists_of_commentLength? {text : List UInt8} {n : Nat} (h : commentLength? text = some n) :
    (∃ rest, text = slash :: slash :: rest ∧ n = (rest.takeWhile (· != newline)).length + 2) ∨
      ∃ body rest, text = slash :: star :: (body ++ star :: slash :: rest) ∧
        ¬ [star, slash] <:+: body ∧ n = body.length + 4 := by
  match text with
  | [] | [_] => cases h
  | a :: b :: rest =>
      rw [commentLength?] at h
      split at h
      · rename_i line
        obtain ⟨rfl, rfl⟩ : a = slash ∧ b = slash := by simpa using line
        cases h
        exact Or.inl ⟨rest, rfl, Nat.add_comm _ _⟩
      · split at h
        · rename_i block
          obtain ⟨rfl, rfl⟩ : a = slash ∧ b = star := by simpa using block
          obtain ⟨m, hm, rfl⟩ := Option.map_eq_some_iff.mp h
          obtain ⟨body, after, rfl, inside, rfl⟩ := exists_of_blockEnd? hm
          exact Or.inr ⟨body, after, rfl, inside, rfl⟩
        · cases h

/-- Where no comment starts none is found. -/
theorem commentLength?_eq_none {text : List UInt8} (h : ¬ OpensComment text) :
    commentLength? text = none := by
  cases found : commentLength? text with
  | none => rfl
  | some n =>
      rcases exists_of_commentLength? found with ⟨rest, rfl, -⟩ | ⟨body, rest, rfl, -, -⟩
      · exact absurd (Or.inl (List.prefix_append [slash, slash] rest)) h
      · exact absurd (Or.inr ⟨body, rest, by simp⟩) h

theorem exists_blockEnd? (body rest : List UInt8) :
    ∃ n, blockEnd? (body ++ star :: slash :: rest) = some n := by
  induction body with
  | nil => exact ⟨2, rfl⟩
  | cons b body ih =>
      obtain ⟨n, hn⟩ := ih
      cases body with
      | nil => exact ⟨3, by simp [blockEnd?, star_ne_slash]⟩
      | cons c body =>
          rw [List.cons_append] at hn
          rw [List.cons_append, List.cons_append, blockEnd?]
          split
          · exact ⟨2, rfl⟩
          · exact ⟨n + 1, by rw [hn]; rfl⟩

/-- A comment that starts is found. -/
theorem commentLength?_ne_none {text : List UInt8} (h : OpensComment text) :
    commentLength? text ≠ none := by
  rcases h with ⟨rest, rfl⟩ | ⟨body, rest, rfl⟩
  · simp [commentLength?]
  · obtain ⟨n, hn⟩ := exists_blockEnd? body rest
    simp [commentLength?, star_ne_slash, hn]

/-! ### Literals -/

theorem stringLength?_of_not_quote {b : UInt8} (h : isQuote b = false) (rest : List UInt8) :
    stringLength? (b :: rest) = none := by
  simp only [isQuote] at h
  simp [stringLength?, h]

theorem isQuote_ne {quote b : UInt8} (hq : isQuote quote = true) (hb : isQuote b = false) :
    b ≠ quote := by
  rintro rfl
  rw [hq] at hb
  cases hb

theorem stringEnd?_quote (quote : UInt8) (rest : List UInt8) :
    stringEnd? quote (quote :: rest) = some 1 := by
  unfold stringEnd?
  simp

theorem stringEnd?_plain {quote b : UInt8} (hq : b ≠ quote) (hb : b ≠ backslash)
    (rest : List UInt8) :
    stringEnd? quote (b :: rest) = (stringEnd? quote rest).map (· + 1) := by
  rw [stringEnd?.eq_def]
  simp [hq, hb]

theorem stringEnd?_escape {quote b : UInt8} (hq : backslash ≠ quote) (hb : b ≠ newline)
    (rest : List UInt8) :
    stringEnd? quote (backslash :: b :: rest) = (stringEnd? quote rest).map (· + 2) := by
  rw [stringEnd?.eq_def]
  simp [hq, hb]

/-- The quote that closes a literal is found. -/
theorem stringEnd?_append {quote : UInt8} (rest : List UInt8) :
    ∀ {body : List UInt8}, LiteralBody quote false body →
      stringEnd? quote (body ++ quote :: rest) = some (body.length + 1)
  | [], _ => stringEnd?_quote quote rest
  | [b], h => by
      have last : (b == backslash) = false := h.2.2
      rw [List.cons_append, stringEnd?_plain h.2.1 (beq_eq_false_iff_ne.mp last),
        List.nil_append, stringEnd?_quote]
      rfl
  | b :: c :: body, h => by
      obtain ⟨-, ne, h⟩ := h
      by_cases hb : b = backslash
      · -- The backslash takes `c` along; what follows is not escaped.
        subst hb
        obtain ⟨hc, h⟩ : c ≠ newline ∧ LiteralBody quote false body := h
        rw [List.cons_append, List.cons_append, stringEnd?_escape ne hc, stringEnd?_append rest h]
        rfl
      · rw [beq_eq_false_iff_ne.mpr hb] at h
        rw [List.cons_append, stringEnd?_plain ne hb, stringEnd?_append rest h]
        rfl

/-- A literal is blanked out with its quotes. -/
theorem blankOut_literal {quote : UInt8} (hq : isQuote quote = true) {body : List UInt8}
    (hb : LiteralBody quote false body) (rest : List UInt8) :
    blankOut stringLength? (quote :: (body ++ quote :: rest)) =
      List.replicate (body.length + 2) space ++ blankOut stringLength? rest := by
  have found : stringLength? (quote :: ((body ++ [quote]) ++ rest)) =
      some ((body ++ [quote]).length + 1) := by
    have quotes : (quote == 0x22 || quote == 0x27) = true := hq
    have closing := stringEnd?_append rest hb
    simp [stringLength?, quotes, closing]
  have blanked := blankOut_append found
  simpa using blanked

/-! ### The search for comments inside a literal -/

/-- Behind its first byte a literal goes on, escaped or not. -/
theorem LiteralBody.uncons {quote b : UInt8} {escaped : Bool} {rest : List UInt8}
    (h : LiteralBody quote escaped (b :: rest)) :
    b ≠ newline ∧ ∃ escaped', LiteralBody quote escaped' rest := by
  cases escaped with
  | true => exact ⟨h.1, false, h.2⟩
  | false => exact ⟨h.1, _, h.2.2⟩

theorem literalBody_append_block {quote : UInt8} (body : List UInt8) {bytes : List UInt8} :
    ∀ {escaped : Bool}, LiteralBody quote escaped (body ++ star :: slash :: bytes) →
      LiteralBody quote false bytes := by
  have starred : (star == backslash) = false := rfl
  have slashed : (slash == backslash) = false := rfl
  induction body with
  | nil =>
      intro escaped h
      cases escaped with
      | true => exact slashed ▸ h.2.2.2
      | false =>
          have h := starred ▸ h.2.2
          exact slashed ▸ h.2.2
  | cons b body ih =>
      intro escaped h
      obtain ⟨-, _, h⟩ := h.uncons
      exact ih h

theorem literalBody_blanks {quote : UInt8} (hq : isQuote quote = true) {bytes : List UInt8}
    (h : LiteralBody quote false bytes) (n : Nat) :
    ∀ escaped, LiteralBody quote escaped (List.replicate (n + 1) space ++ bytes) := by
  have line : space ≠ newline := by decide
  have quoted : space ≠ quote := isQuote_ne hq rfl
  have plain : (space == backslash) = false := rfl
  induction n with
  | zero =>
      intro escaped
      cases escaped with
      | true => exact ⟨line, h⟩
      | false => exact ⟨line, quoted, plain.symm ▸ h⟩
  | succ n ih =>
      intro escaped
      cases escaped with
      | true => exact ⟨line, ih false⟩
      | false => exact ⟨line, quoted, plain.symm ▸ ih false⟩

/-- **Through a sealed literal.**  The search for comments leaves a literal of the same length in
the place of one that is sealed, and goes on behind it. -/
theorem blankOut_contained {quote : UInt8} (hq : isQuote quote = true) {after body : List UInt8}
    (h : Contained after body) : ∀ {escaped : Bool}, LiteralBody quote escaped body →
      ∃ body', blankOut commentLength? (body ++ after) = body' ++ blankOut commentLength? after ∧
        body'.length = body.length ∧ LiteralBody quote escaped body' := by
  induction h with
  | nil => exact fun {escaped} hb => ⟨[], rfl, rfl, hb⟩
  | @byte b bytes opens h ih =>
      intro escaped hb
      have kept := blankOut_cons (commentLength?_eq_none opens)
      cases escaped with
      | true =>
          obtain ⟨body', eq, length, hb'⟩ := ih hb.2
          exact ⟨b :: body', by rw [List.cons_append, kept, eq]; rfl, by simp [length], hb.1, hb'⟩
      | false =>
          obtain ⟨body', eq, length, hb'⟩ := ih hb.2.2
          exact ⟨b :: body', by rw [List.cons_append, kept, eq]; rfl, by simp [length], hb.1,
            hb.2.1, hb'⟩
  | @block body bytes inside h ih =>
      intro escaped hb
      have rest : LiteralBody quote false bytes :=
        literalBody_append_block (slash :: star :: body) hb
      obtain ⟨body', eq, length, hb'⟩ := ih rest
      refine ⟨List.replicate (body.length + 4) space ++ body', ?_, by simp [length]; omega,
        literalBody_blanks hq hb' _ _⟩
      have blanked := blankOut_block inside (bytes ++ after)
      rw [eq] at blanked
      simpa using blanked

/-! ### The two passes -/

/-- What is left of a text when comments are blanked out, and then literals. -/
def bare (text : List UInt8) : List UInt8 :=
  blankOut stringLength? (blankOut commentLength? text)

/-- A byte that starts neither a comment nor a literal. -/
def isBare (b : UInt8) : Bool := b != slash && !isQuote b

/-- A class of bytes without slashes and quotes. -/
theorem isBare_of_class {p : UInt8 → Bool} (hs : p slash = false) (hd : p 0x22 = false)
    (hq : p 0x27 = false) {b : UInt8} (h : p b = true) : isBare b = true := by
  have ne : ∀ c, p c = false → b ≠ c := by
    rintro c hc rfl
    rw [h] at hc
    cases hc
  simp [isBare, isQuote, ne slash hs, ne 0x22 hd, ne 0x27 hq]

theorem isBare_of_word {b : UInt8} {w : List UInt8} (hb : startsWord b = true)
    (hw : ∀ c ∈ w, continuesWord c = true) : ∀ c ∈ b :: w, isBare c = true := by
  intro c hc
  rcases List.mem_cons.mp hc with rfl | hc
  · exact isBare_of_class rfl rfl rfl hb
  · exact isBare_of_class rfl rfl rfl (hw c hc)

/-- The first pass leaves bare bytes. -/
theorem blankOut_comment_stays {bytes : List UInt8} (h : ∀ b ∈ bytes, isBare b = true)
    (rest : List UInt8) :
    blankOut commentLength? (bytes ++ rest) = bytes ++ blankOut commentLength? rest := by
  refine blankOut_stays (fun b hb rest => commentLength?_of_ne ?_ rest) rest
  have := h b hb
  simp only [isBare, Bool.and_eq_true, bne_iff_ne] at this
  exact this.1

/-- So does the second. -/
theorem blankOut_string_stays {bytes : List UInt8} (h : ∀ b ∈ bytes, isBare b = true)
    (rest : List UInt8) :
    blankOut stringLength? (bytes ++ rest) = bytes ++ blankOut stringLength? rest := by
  refine blankOut_stays (fun b hb rest => stringLength?_of_not_quote ?_ rest) rest
  have := h b hb
  simp only [isBare, Bool.and_eq_true, Bool.not_eq_true'] at this
  exact this.2

theorem bare_stays {bytes : List UInt8} (h : ∀ b ∈ bytes, isBare b = true) (rest : List UInt8) :
    bare (bytes ++ rest) = bytes ++ bare rest := by
  rw [bare, blankOut_comment_stays h, blankOut_string_stays h]
  rfl

/-- A mark stays, and so does a slash that starts no comment. -/
theorem bare_mark {b : UInt8} (hb : isMark b = true) {rest : List UInt8}
    (apart : b = slash → ∀ c ∈ rest.head?, c ≠ slash ∧ c ≠ star) :
    bare (b :: rest) = b :: bare rest := by
  have literal : isQuote b = false := by
    simp only [isMark, Bool.and_eq_true, Bool.not_eq_true'] at hb
    exact hb.1.1.2
  rw [bare, blankOut_cons (commentLength?_of_apart apart),
    blankOut_cons (stringLength?_of_not_quote literal _)]
  rfl

/-- A comment is blanked out. -/
theorem bare_comment {text rest : List UInt8} {n : Nat}
    (h : blankOut commentLength? text = List.replicate n space ++ blankOut commentLength? rest) :
    bare text = List.replicate n space ++ bare rest := by
  have blanks : ∀ b ∈ List.replicate n space, isBare b = true := fun b hb => by
    rw [List.eq_of_mem_replicate hb]
    rfl
  rw [bare, h, blankOut_string_stays blanks]
  rfl

/-- A sealed literal is blanked out. -/
theorem bare_literal {quote : UInt8} (hq : isQuote quote = true) {body rest : List UInt8}
    (hb : LiteralBody quote false body) (h : Contained (quote :: rest) body) :
    bare (quote :: (body ++ quote :: rest)) =
      List.replicate (body.length + 2) space ++ bare rest := by
  have ne : quote ≠ slash := (isQuote_ne hq rfl).symm
  obtain ⟨body', eq, length, hb'⟩ := blankOut_contained hq h hb
  rw [bare, blankOut_cons (commentLength?_of_ne ne _), eq,
    blankOut_cons (commentLength?_of_ne ne _), blankOut_literal hq hb', length]
  rfl

/-- **The two passes.**  Where the literals are sealed, the comments and the literals are blanked
out and all else stays. -/
theorem bare_eq {text : List UInt8} {ts : List Token} (h : Reads text ts) (sealed : Sealed ts) :
    bare text = ts.flatMap Token.blanked := by
  induction h with
  | nil => rfl
  | @blank b _ _ hb _ ih =>
      have stays : ∀ c ∈ [b], isBare c = true := by simpa using isBare_of_class rfl rfl rfl hb
      exact (bare_stays stays _).trans (by rw [ih sealed]; rfl)
  | opening _ ih | closing _ ih =>
      exact (bare_stays (List.forall_mem_singleton.mpr rfl) _).trans (by rw [ih sealed]; rfl)
  | word hb hw _ _ ih =>
      exact (bare_stays (isBare_of_word hb hw) _).trans (by rw [ih sealed]; rfl)
  | line hb stop _ ih =>
      rw [bare_comment (blankOut_line hb stop), ih sealed]
      rfl
  | block hb _ ih =>
      rw [bare_comment (blankOut_block hb _), ih sealed]
      simp [Token.blanked]
  | literal hq hb h ih =>
      rw [bare_literal hq hb (h.text_eq ▸ sealed.1), ih sealed.2]
      rfl
  | mark hb apart _ ih =>
      rw [bare_mark hb apart, ih sealed]
      rfl

/-! ### Literals that are not sealed -/

theorem newline_not_mem {quote : UInt8} {body : List UInt8} :
    ∀ {escaped : Bool}, LiteralBody quote escaped body → newline ∉ body := by
  induction body with
  | nil => exact fun _ => List.not_mem_nil
  | cons b body ih =>
      intro escaped h hb
      obtain ⟨ne, _, h⟩ := h.uncons
      rcases List.mem_cons.mp hb with eq | hb
      · exact ne eq.symm
      · exact ih h hb

/-- A comment to the end of the line reaches out of every literal. -/
theorem lt_of_line {quote : UInt8} (hq : isQuote quote = true) {b : UInt8}
    {body rest after : List UInt8} (line : newline ∉ body)
    (eq : b :: (body ++ quote :: rest) = slash :: slash :: after) :
    body.length + 1 < (after.takeWhile (· != newline)).length + 2 := by
  cases body with
  | nil =>
      simp only [List.nil_append, List.cons.injEq] at eq
      exact absurd eq.2.1.symm (isQuote_ne hq rfl)
  | cons c body =>
      simp only [List.cons_append, List.cons.injEq] at eq
      have inside : ∀ c ∈ body ++ [quote], (c != newline) = true := by
        intro c hc
        rcases List.mem_append.mp hc with hc | hc
        · exact bne_iff_ne.mpr fun eq => line (eq ▸ List.mem_cons_of_mem _ hc)
        · exact bne_iff_ne.mpr fun eq' => isQuote_ne hq (b := newline) rfl
            (eq' ▸ List.mem_singleton.mp hc)
      have split : after = (body ++ [quote]) ++ rest := by simp [← eq.2.2]
      rw [split, List.takeWhile_append_of_pos inside]
      simp

/-- Where the closing quote of a literal is not blanked out, the literal is sealed. -/
theorem contained_of_quote {quote : UInt8} (hq : isQuote quote = true) (rest : List UInt8) :
    ∀ {body : List UInt8} {escaped : Bool}, LiteralBody quote escaped body →
      (blankOut commentLength? (body ++ quote :: rest))[body.length]? ≠ some space →
      Contained (quote :: rest) body
  | [], _, _, _ => .nil
  | b :: body, escaped, hb, kept => by
      cases found : commentLength? (b :: (body ++ quote :: rest)) with
      | none =>
          have opens : ¬ OpensComment (b :: (body ++ quote :: rest)) := fun h =>
            commentLength?_ne_none h found
          rw [List.cons_append, blankOut_cons found, List.length_cons,
            List.getElem?_cons_succ] at kept
          obtain ⟨-, _, hb⟩ := hb.uncons
          exact .byte opens (contained_of_quote hq rest hb kept)
      | some n =>
          -- The comment ends before the quote, so it is a block comment inside the literal.
          have short : n ≤ body.length + 1 := by
            refine Nat.le_of_not_lt fun long => kept (getElem?_blankOut found long ?_)
            simp
          rcases exists_of_commentLength? found with
            ⟨after, eq, rfl⟩ | ⟨mid, after, eq, inside, rfl⟩
          · have line : newline ∉ body := fun h => newline_not_mem hb (List.mem_cons_of_mem b h)
            exact absurd (lt_of_line hq line eq) (Nat.not_lt.mpr short)
          · have front : slash :: star :: (mid ++ [star, slash]) <+: b :: body := by
              have whole :
                  slash :: star :: (mid ++ [star, slash]) <+: b :: (body ++ quote :: rest) :=
                ⟨after, by rw [eq]; simp⟩
              refine List.prefix_of_prefix_length_le whole ⟨quote :: rest, rfl⟩ ?_
              simp
              omega
            obtain ⟨bytes, split⟩ := front
            have split : b :: body = slash :: star :: (mid ++ star :: slash :: bytes) := by
              simp [← split]
            have shorter : bytes.length < body.length + 1 := by
              have := congrArg List.length split
              simp at this
              omega
            rw [split] at hb kept ⊢
            refine .block inside (contained_of_quote hq rest
              (literalBody_append_block (slash :: star :: mid) hb) fun quoted => kept ?_)
            have blanked := blankOut_block inside (bytes ++ quote :: rest)
            simp only [List.cons_append, List.append_assoc] at blanked ⊢
            rw [blanked, List.getElem?_append_right (by simp)]
            simpa [Nat.add_sub_add_left, Nat.add_assoc] using quoted
termination_by body => body.length

/-- The search for comments blanks out the closing quote of a literal. -/
def LosesQuote (text : List UInt8) (ts : List Token) : Prop :=
  ∃ before quote body after, ts = before ++ .literal quote body :: after ∧
    (blankOut commentLength? text)[(textOf before).length + (body.length + 1)]? = some space

/-- A literal behind a token that the search goes through. -/
theorem LosesQuote.later {text rest : List UInt8} {ts : List Token} (h : LosesQuote rest ts)
    {t : Token} (front : List UInt8) (length : front.length = t.bytes.length)
    (through : blankOut commentLength? text = front ++ blankOut commentLength? rest) :
    LosesQuote text (t :: ts) := by
  obtain ⟨before, quote, body, after, rfl, lost⟩ := h
  refine ⟨t :: before, quote, body, after, rfl, ?_⟩
  have place : (textOf (t :: before)).length + (body.length + 1) =
      front.length + ((textOf before).length + (body.length + 1)) := by
    simp [textOf, length, Nat.add_assoc]
  rw [through, place, List.getElem?_append_right (Nat.le_add_right _ _), Nat.add_sub_cancel_left]
  exact lost

/-- **A literal that is not sealed.**  If a comment that starts in some literal reaches out of it,
the search for comments blanks out the closing quote of one. -/
theorem losesQuote {text : List UInt8} {ts : List Token} (h : Reads text ts)
    (unsealed : ¬ Sealed ts) : LosesQuote text ts := by
  induction h with
  | nil => exact absurd trivial unsealed
  | @blank b _ _ hb _ ih =>
      have stays : ∀ c ∈ [b], isBare c = true := by simpa using isBare_of_class rfl rfl rfl hb
      exact (ih unsealed).later [b] rfl (blankOut_comment_stays stays _)
  | opening _ ih | closing _ ih =>
      exact (ih unsealed).later [_] rfl
        (blankOut_comment_stays (List.forall_mem_singleton.mpr rfl) _)
  | @word b w _ _ hb hw _ _ ih =>
      exact (ih unsealed).later (b :: w) rfl (blankOut_comment_stays (isBare_of_word hb hw) _)
  | line hb stop _ ih =>
      exact (ih unsealed).later _ (by simp [Token.bytes]) (blankOut_line hb stop)
  | block hb _ ih =>
      exact (ih unsealed).later _ (by simp [Token.bytes]) (blankOut_block hb _)
  | @mark b _ _ _ apart _ ih =>
      exact (ih unsealed).later [b] rfl (blankOut_cons (commentLength?_of_apart apart))
  | @literal quote body rest ts hq hb h ih =>
      have ne : quote ≠ slash := (isQuote_ne hq rfl).symm
      have opening := blankOut_cons (commentLength?_of_ne ne (body ++ quote :: rest))
      by_cases contained : Contained (quote :: rest) body
      · -- This literal is sealed, so a later one is not.
        have later : ¬ Sealed ts := fun s => unsealed ⟨h.text_eq.symm ▸ contained, s⟩
        obtain ⟨body', eq, length, -⟩ := blankOut_contained hq contained hb
        refine (ih later).later (quote :: (body' ++ [quote])) (by simp [Token.bytes, length]) ?_
        rw [opening, eq, blankOut_cons (commentLength?_of_ne ne _)]
        simp
      · refine ⟨[], quote, body, ts, rfl, ?_⟩
        rw [opening]
        simp only [textOf, List.flatMap_nil, List.length_nil, Nat.zero_add, List.getElem?_cons_succ]
        exact Decidable.of_not_not fun kept => contained (contained_of_quote hq rest hb kept)

end Header

end SolidityLint
