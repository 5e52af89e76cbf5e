import SolidityLint.Proofs.Json.RoundTrip

/-!
# Json — the reader and the grammar

`Written v cs` says that the text `cs` is the value `v` by the grammar of JSON: no leading zeros, no
control characters in strings, white space between units only.  It knows nothing of the reader.

* `Written.lexes` and `written_of_lex`: a text of the grammar is cut into the units of its value, and
  a text that begins with the units of a value begins with a text of the grammar.
-/

namespace SolidityLint

namespace Json

/-! ### The grammar -/

/-- White space, or nothing. -/
def Blanks (cs : List Char) : Prop := ∀ c ∈ cs, isBlank c = true

/-- One digit or more. -/
def Digits (cs : List Char) : Prop := cs ≠ [] ∧ ∀ c ∈ cs, c.isDigit = true

/-- An integral part has no leading zero. -/
inductive Integral : List Char → Prop where
  | zero : Integral ['0']
  | digits {c : Char} {cs : List Char} (first : c ≠ '0') (h : Digits (c :: cs)) : Integral (c :: cs)

inductive Fraction : List Char → Prop where
  | none : Fraction []
  | point {ds : List Char} (h : Digits ds) : Fraction ('.' :: ds)

inductive Exponent : List Char → Prop where
  | none : Exponent []
  | mark {e : Char} {sign ds : List Char} (he : e = 'e' ∨ e = 'E')
      (hs : sign = [] ∨ sign = ['+'] ∨ sign = ['-']) (h : Digits ds) : Exponent (e :: (sign ++ ds))

inductive Number : List Char → Prop where
  | mk {sign i f e : List Char} (hs : sign = [] ∨ sign = ['-']) (hi : Integral i) (hf : Fraction f)
      (he : Exponent e) : Number (sign ++ (i ++ (f ++ e)))

/-- The characters that a backslash and a letter stand for. -/
def shortEscapes : List (Char × Char) :=
  [('"', '"'), ('\\', '\\'), ('/', '/'), ('b', '\x08'), ('f', '\x0c'), ('n', '\n'), ('r', '\r'),
    ('t', '\t')]

/-- What stands between the quotes of a string. -/
inductive Body : List Char → List Piece → Prop where
  | nil : Body [] []
  | char {c : Char} {cs : List Char} {ps : List Piece} (high : 0x20 ≤ c.toNat) (quote : c ≠ '"')
      (slash : c ≠ '\\') (h : Body cs ps) : Body (c :: cs) (.char c :: ps)
  | short {e c : Char} {cs : List Char} {ps : List Piece} (he : (e, c) ∈ shortEscapes)
      (h : Body cs ps) : Body ('\\' :: e :: cs) (.char c :: ps)
  | code {a b c d : Char} {n : Nat} {cs : List Char} {ps : List Piece} (hn : hex4? a b c d = some n)
      (h : Body cs ps) : Body ('\\' :: 'u' :: a :: b :: c :: d :: cs) (.unit n :: ps)

/-- A string in its quotes. -/
inductive Quotes : List Char → String → Prop where
  | mk {body : List Char} {ps : List Piece} (h : Body body ps) :
      Quotes ('"' :: (body ++ ['"'])) (String.ofList (joinPieces ps))

mutual

/-- The text is the value, with no white space around it. -/
inductive Written : Json → List Char → Prop where
  | null : Written .null "null".toList
  | true : Written (.bool true) "true".toList
  | false : Written (.bool false) "false".toList
  | num {cs : List Char} (h : Number cs) : Written (.num (String.ofList cs)) cs
  | str {s : String} {cs : List Char} (h : Quotes cs s) : Written (.str s) cs
  | emptyArr {b : List Char} (hb : Blanks b) : Written (.arr []) ('[' :: (b ++ [']']))
  | arr {items : List Json} {cs : List Char} (h : WrittenItems items cs) :
      Written (.arr items) ('[' :: (cs ++ [']']))
  | emptyObj {b : List Char} (hb : Blanks b) : Written (.obj []) ('\x7b' :: (b ++ ['\x7d']))
  | obj {members : List (String × Json)} {cs : List Char} (h : WrittenMembers members cs) :
      Written (.obj members) ('\x7b' :: (cs ++ ['\x7d']))

/-- The text is one item or more, with commas between them. -/
inductive WrittenItems : List Json → List Char → Prop where
  | last {b b' cs : List Char} {v : Json} (hb : Blanks b) (h : Written v cs) (hb' : Blanks b') :
      WrittenItems [v] (b ++ (cs ++ b'))
  | cons {b b' cs cs' : List Char} {v : Json} {vs : List Json} (hb : Blanks b) (h : Written v cs)
      (hb' : Blanks b') (hs : WrittenItems vs cs') :
      WrittenItems (v :: vs) (b ++ (cs ++ (b' ++ ',' :: cs')))

/-- The text is one member or more, with commas between them. -/
inductive WrittenMembers : List (String × Json) → List Char → Prop where
  | last {b₁ b₂ b₃ b₄ key cs : List Char} {k : String} {v : Json} (hb₁ : Blanks b₁)
      (hk : Quotes key k) (hb₂ : Blanks b₂) (hb₃ : Blanks b₃) (h : Written v cs) (hb₄ : Blanks b₄) :
      WrittenMembers [(k, v)] (b₁ ++ (key ++ (b₂ ++ ':' :: (b₃ ++ (cs ++ b₄)))))
  | cons {b₁ b₂ b₃ b₄ key cs cs' : List Char} {k : String} {v : Json} {ms : List (String × Json)}
      (hb₁ : Blanks b₁) (hk : Quotes key k) (hb₂ : Blanks b₂) (hb₃ : Blanks b₃) (h : Written v cs)
      (hb₄ : Blanks b₄) (hs : WrittenMembers ms cs') :
      WrittenMembers ((k, v) :: ms)
        (b₁ ++ (key ++ (b₂ ++ ':' :: (b₃ ++ (cs ++ (b₄ ++ ',' :: cs'))))))

end

/-! ### Numbers -/

/-- A reader of a part of a number takes texts of the grammar off the front. -/
theorem digits1?_sound {cs ds rest : List Char} (h : digits1? cs = some (ds, rest)) :
    cs = ds ++ rest ∧ Digits ds := by
  unfold digits1? at h
  split at h
  · cases h
  · next ne =>
      cases h
      exact ⟨(List.takeWhile_append_dropWhile ..).symm, ne, fun c hc => List.mem_takeWhile_imp hc⟩

theorem integral?_sound {cs taken rest : List Char} (h : integral? cs = some (taken, rest)) :
    cs = taken ++ rest ∧ Integral taken := by
  unfold integral? at h
  split at h
  · cases h
    exact ⟨rfl, .zero⟩
  · next zero =>
      obtain ⟨rfl, ne, digits⟩ := digits1?_sound h
      cases taken with
      | nil => exact absurd rfl ne
      | cons c ds => exact ⟨rfl, .digits (fun h => zero (ds ++ rest) (h ▸ rfl)) ⟨ne, digits⟩⟩

theorem fraction?_sound {cs taken rest : List Char} (h : fraction? cs = some (taken, rest)) :
    cs = taken ++ rest ∧ Fraction taken := by
  unfold fraction? at h
  split at h
  · obtain ⟨⟨ds, rest'⟩, hds, he⟩ := Option.map_eq_some_iff.mp h
    cases he
    obtain ⟨rfl, digits⟩ := digits1?_sound hds
    exact ⟨rfl, .point digits⟩
  · cases h
    exact ⟨rfl, .none⟩

theorem signed?_sound {cs taken rest : List Char} (h : exponent?.signed? cs = some (taken, rest)) :
    ∃ sign ds, taken = sign ++ ds ∧ cs = taken ++ rest ∧
      (sign = [] ∨ sign = ['+'] ∨ sign = ['-']) ∧ Digits ds := by
  unfold exponent?.signed? at h
  split at h
  · obtain ⟨⟨ds, rest'⟩, hds, he⟩ := Option.map_eq_some_iff.mp h
    cases he
    obtain ⟨rfl, digits⟩ := digits1?_sound hds
    exact ⟨['+'], ds, rfl, rfl, by simp, digits⟩
  · obtain ⟨⟨ds, rest'⟩, hds, he⟩ := Option.map_eq_some_iff.mp h
    cases he
    obtain ⟨rfl, digits⟩ := digits1?_sound hds
    exact ⟨['-'], ds, rfl, rfl, by simp, digits⟩
  · obtain ⟨rfl, digits⟩ := digits1?_sound h
    exact ⟨[], taken, rfl, rfl, by simp, digits⟩

theorem exponent?_sound {cs taken rest : List Char} (h : exponent? cs = some (taken, rest)) :
    cs = taken ++ rest ∧ Exponent taken := by
  unfold exponent? at h
  split at h
  · obtain ⟨⟨ds, rest'⟩, hds, he⟩ := Option.map_eq_some_iff.mp h
    cases he
    obtain ⟨sign, digits, rfl, rfl, hs, hd⟩ := signed?_sound hds
    exact ⟨rfl, .mark (.inl rfl) hs hd⟩
  · obtain ⟨⟨ds, rest'⟩, hds, he⟩ := Option.map_eq_some_iff.mp h
    cases he
    obtain ⟨sign, digits, rfl, rfl, hs, hd⟩ := signed?_sound hds
    exact ⟨rfl, .mark (.inr rfl) hs hd⟩
  · cases h
    exact ⟨rfl, .none⟩

theorem unsigned?_sound {cs taken rest : List Char} (h : unsigned? cs = some (taken, rest)) :
    ∃ i f e, taken = i ++ (f ++ e) ∧ cs = taken ++ rest ∧ Integral i ∧ Fraction f ∧ Exponent e := by
  simp only [unsigned?, Option.bind_eq_bind, Option.bind_eq_some_iff, Option.pure_def,
    Option.some.injEq, Prod.mk.injEq] at h
  obtain ⟨⟨i, cs₁⟩, hi, ⟨f, cs₂⟩, hf, ⟨e, cs₃⟩, he, rfl, rfl⟩ := h
  obtain ⟨rfl, integral⟩ := integral?_sound hi
  obtain ⟨rfl, fraction⟩ := fraction?_sound hf
  obtain ⟨rfl, exponent⟩ := exponent?_sound he
  exact ⟨i, f, e, List.append_assoc .., by simp, integral, fraction, exponent⟩

/-- What is read as a number is one. -/
theorem number?_sound {cs taken rest : List Char} (h : number? cs = some (taken, rest)) :
    cs = taken ++ rest ∧ Number taken := by
  unfold number? at h
  split at h
  · obtain ⟨⟨ds, rest'⟩, hds, he⟩ := Option.map_eq_some_iff.mp h
    cases he
    obtain ⟨i, f, e, rfl, rfl, hi, hf, he⟩ := unsigned?_sound hds
    exact ⟨rfl, .mk (.inr rfl) hi hf he⟩
  · obtain ⟨i, f, e, rfl, rfl, hi, hf, he⟩ := unsigned?_sound h
    exact ⟨rfl, .mk (.inl rfl) hi hf he⟩

/-- The text does not begin with a digit. -/
def NoDigit (cs : List Char) : Prop := ∀ c ∈ cs.head?, c.isDigit = false

theorem digits1?_complete {ds rest : List Char} (h : Digits ds) (stop : NoDigit rest) :
    digits1? (ds ++ rest) = some (ds, rest) := by
  have none : rest.takeWhile Char.isDigit = [] ∧ rest.dropWhile Char.isDigit = rest := by
    cases rest with
    | nil => exact ⟨rfl, rfl⟩
    | cons c rest => simp [stop c rfl]
  unfold digits1?
  rw [List.takeWhile_append_of_pos h.2, List.dropWhile_append_of_pos h.2, none.1, none.2,
    List.append_nil]
  cases ds with
  | nil => exact absurd rfl h.1
  | cons c ds => rfl

theorem Fraction.noDigit {f rest : List Char} (h : Fraction f) (stop : NoDigit rest) :
    NoDigit (f ++ rest) := by
  cases h with
  | none => exact stop
  | point =>
      intro c hc
      cases hc
      rfl

theorem Exponent.noDigit {e : List Char} (h : Exponent e) : NoDigit e := by
  cases h with
  | none => simp [NoDigit]
  | mark he =>
      intro c hc
      cases hc
      rcases he with rfl | rfl <;> rfl

theorem Integral.complete {i rest : List Char} (h : Integral i) (stop : NoDigit rest) :
    integral? (i ++ rest) = some (i, rest) := by
  cases h with
  | zero => rfl
  | @digits c cs first h =>
      exact (integral?_cons first _).trans (digits1?_complete h stop)

theorem Exponent.head_ne_point {e : List Char} (h : Exponent e) : '.' ∉ e.head? := by
  cases h with
  | none => simp
  | mark he => rcases he with rfl | rfl <;> simp

theorem Fraction.complete {f e : List Char} (h : Fraction f) (he : Exponent e) :
    fraction? (f ++ e) = some (f, e) := by
  cases h with
  | none =>
      have point := he.head_ne_point
      cases e with
      | nil => rfl
      | cons c e => exact fraction?_cons (fun same => point (congrArg some same)) e
  | point h => exact Option.map_eq_some_iff.mpr ⟨_, digits1?_complete h he.noDigit, rfl⟩

theorem Digits.noSign {ds : List Char} (h : Digits ds) {c : Char} (hc : c ∈ ds.head?) :
    c ≠ '+' ∧ c ≠ '-' := by
  have digit := h.2 c (List.mem_of_mem_head? hc)
  constructor <;> (rintro rfl; simp at digit)

theorem Exponent.complete {e : List Char} (h : Exponent e) : exponent? e = some (e, []) := by
  have digits {ds : List Char} (h : Digits ds) : digits1? ds = some (ds, []) := by
    have stop : NoDigit [] := by simp [NoDigit]
    have read := digits1?_complete h stop
    rwa [List.append_nil] at read
  have signed {sign ds : List Char} (hs : sign = [] ∨ sign = ['+'] ∨ sign = ['-']) (h : Digits ds) :
      exponent?.signed? (sign ++ ds) = some (sign ++ ds, []) := by
    rcases hs with rfl | rfl | rfl
    · cases ds with
      | nil => exact absurd rfl h.1
      | cons c ds =>
          obtain ⟨plus, minus⟩ := h.noSign (c := c) rfl
          exact (signed?_cons plus minus ds).trans (digits h)
    · exact Option.map_eq_some_iff.mpr ⟨_, digits h, rfl⟩
    · exact Option.map_eq_some_iff.mpr ⟨_, digits h, rfl⟩
  cases h with
  | none => rfl
  | mark he hs h =>
      rcases he with rfl | rfl <;>
        exact Option.map_eq_some_iff.mpr ⟨_, signed hs h, rfl⟩

theorem Integral.head_ne_sign {i : List Char} (h : Integral i) : i ≠ [] ∧ '-' ∉ i.head? := by
  cases h with
  | zero => simp
  | digits first h => exact ⟨h.1, fun hc => (h.noSign hc).2 rfl⟩

/-- A number of the grammar is read as it stands. -/
theorem Number.complete {cs : List Char} (h : Number cs) : number? cs = some (cs, []) := by
  obtain ⟨hs, hi, hf, he⟩ := h
  rename_i sign i f e
  have unsigned : unsigned? (i ++ (f ++ e)) = some (i ++ (f ++ e), []) := by
    simp [unsigned?, hi.complete (hf.noDigit he.noDigit), hf.complete he, he.complete]
  rcases hs with rfl | rfl
  · obtain ⟨ne, sign⟩ := hi.head_ne_sign
    cases i with
    | nil => exact absurd rfl ne
    | cons c i => exact (number?_cons (fun same => sign (congrArg some same)) _).trans unsigned
  · exact Option.map_eq_some_iff.mpr ⟨_, unsigned, rfl⟩

/-! ### Strings -/

theorem splitString_sound {cs body rest : List Char} (h : splitString cs = some (body, rest)) :
    cs = body ++ '"' :: rest := by
  fun_induction splitString cs generalizing body rest with
  | case1 => cases h
  | case2 cs => cases h; rfl
  | case3 c cs ih =>
      obtain ⟨p, hp, he⟩ := Option.map_eq_some_iff.mp h
      cases he
      rw [ih hp]
      rfl
  | case4 c cs _ _ ih =>
      obtain ⟨p, hp, he⟩ := Option.map_eq_some_iff.mp h
      cases he
      rw [ih hp]
      rfl

/-- A hexadecimal digit means nothing else in a string. -/
theorem ne_of_hexDigit? {c : Char} {n : Nat} (h : hexDigit? c = some n) : c ≠ '"' ∧ c ≠ '\\' := by
  constructor <;> (rintro rfl; simp [hexDigit?] at h)

theorem hexDigits_of_hex4? {a b c d : Char} {n : Nat} (h : hex4? a b c d = some n) :
    ∀ x ∈ [a, b, c, d], x ≠ '"' ∧ x ≠ '\\' := by
  simp only [hex4?, Option.bind_eq_bind, Option.bind_eq_some_iff] at h
  obtain ⟨_, ha, _, hb, _, hc, _, hd, -⟩ := h
  simp only [List.mem_cons, List.not_mem_nil, or_false]
  rintro x (rfl | rfl | rfl | rfl)
  · exact ne_of_hexDigit? ha
  · exact ne_of_hexDigit? hb
  · exact ne_of_hexDigit? hc
  · exact ne_of_hexDigit? hd

theorem splitString_code {a b c d : Char} {n : Nat} (h : hex4? a b c d = some n) (rest : List Char) :
    splitString ('\\' :: 'u' :: a :: b :: c :: d :: rest) =
      (splitString rest).map fun (body, after) => ('\\' :: 'u' :: a :: b :: c :: d :: body, after) := by
  have plain := hexDigits_of_hex4? h
  simp only [List.mem_cons, List.not_mem_nil, or_false, forall_eq_or_imp, forall_eq] at plain
  obtain ⟨ha, hb, hc, hd⟩ := plain
  simp only [splitString, splitString_cons ha.1 ha.2, splitString_cons hb.1 hb.2,
    splitString_cons hc.1 hc.2, splitString_cons hd.1 hd.2, Option.map_map]
  rfl

theorem Body.splitString {body : List Char} {ps : List Piece} (h : Body body ps) (rest : List Char) :
    splitString (body ++ '"' :: rest) = some (body, rest) := by
  induction h with
  | nil => simp [Json.splitString]
  | char high quote slash h ih => simp [splitString_cons quote slash, ih]
  | short he h ih => simp [Json.splitString, ih]
  | code hn h ih =>
      simp only [List.cons_append]
      rw [splitString_code hn, ih]
      rfl

/-- A body of the grammar gives its pieces. -/
theorem Body.pieces {body : List Char} {ps : List Piece} (h : Body body ps) :
    pieces? body = some ps := by
  induction h with
  | nil => simp [pieces?]
  | @char c cs ps high quote slash h ih =>
      have low : ¬ c.toNat < 0x20 := by omega
      simp [pieces?, slash, low, ih]
  | @short e c cs ps he h ih =>
      simp only [shortEscapes, List.mem_cons, Prod.mk.injEq, List.not_mem_nil, or_false] at he
      rcases he with ⟨rfl, rfl⟩ | ⟨rfl, rfl⟩ | ⟨rfl, rfl⟩ | ⟨rfl, rfl⟩ | ⟨rfl, rfl⟩ | ⟨rfl, rfl⟩ |
        ⟨rfl, rfl⟩ | ⟨rfl, rfl⟩ <;> simp [pieces?, ih]
  | code hn h ih => simp [pieces?, hn, ih]

/-- The pieces of a body without a bare quote. -/
theorem body_of_pieces? {body rest : List Char} {ps : List Piece} (h : pieces? body = some ps)
    (closed : splitString (body ++ '"' :: rest) = some (body, rest)) : Body body ps := by
  have behind (front : List Char) {cs : List Char}
      (split : (splitString (cs ++ '"' :: rest)).map (fun (body, after) => (front ++ body, after)) =
        some (front ++ cs, rest)) : splitString (cs ++ '"' :: rest) = some (cs, rest) := by
    obtain ⟨⟨body, after⟩, hp, he⟩ := Option.map_eq_some_iff.mp split
    simp only [Prod.mk.injEq, List.append_cancel_left_eq] at he
    rw [hp, he.1, he.2]
  have short {e c : Char} (he : (e, c) ∈ shortEscapes) {cs : List Char} {ps : List Piece}
      (ih : ∀ {ps}, pieces? cs = some ps → splitString (cs ++ '"' :: rest) = some (cs, rest) →
        Body cs ps)
      (h : (do let c ← some c; return .char c :: (← pieces? cs)) = some ps)
      (closed : splitString ('\\' :: e :: (cs ++ '"' :: rest)) = some ('\\' :: e :: cs, rest)) :
      Body ('\\' :: e :: cs) ps := by
    simp only [Option.bind_eq_bind, Option.bind_some, Option.bind_eq_some_iff, Option.pure_def,
      Option.some.injEq] at h
    obtain ⟨ps', hps, rfl⟩ := h
    rw [splitString] at closed
    exact .short he (ih hps (behind ['\\', e] closed))
  fun_induction pieces? body generalizing ps with
  | case1 => cases h; exact .nil
  | case2 a b c d cs ih =>
      simp only [Option.bind_eq_bind, Option.bind_eq_some_iff, Option.pure_def, Option.some.injEq] at h
      obtain ⟨n, hn, ps', hps, rfl⟩ := h
      simp only [List.cons_append] at closed
      rw [splitString_code hn] at closed
      exact .code hn (ih hps (behind ['\\', 'u', a, b, c, d] closed))
  | case3 cs | case4 cs | case5 cs | case6 cs | case7 cs | case8 cs | case9 cs | case10 cs =>
      rename_i ih
      exact short (by simp [shortEscapes]) ih h closed
  | case11 e cs => cases h
  | case12 c cs _ _ bad => cases h
  | case13 c cs _ _ good ih =>
      obtain ⟨ps', hps, rfl⟩ := Option.map_eq_some_iff.mp h
      simp only [Bool.or_eq_true, decide_eq_true_eq, beq_iff_eq, not_or] at good
      have quote : c ≠ '"' := by
        rintro rfl
        simp [splitString] at closed
      rw [List.cons_append, splitString_cons quote good.2] at closed
      exact .char (by omega) quote good.2 (ih hps (behind [c] closed))

/-! ### Units -/

/-- The unit is spelled by the text. -/
inductive Token.Spelled : Token → List Char → Prop where
  | openArr : Spelled .openArr ['[']
  | closeArr : Spelled .closeArr [']']
  | openObj : Spelled .openObj ['\x7b']
  | closeObj : Spelled .closeObj ['\x7d']
  | colon : Spelled .colon [':']
  | comma : Spelled .comma [',']
  | null : Spelled .null "null".toList
  | true : Spelled (.bool true) "true".toList
  | false : Spelled (.bool false) "false".toList
  | num {cs : List Char} (h : Number cs) : Spelled (.num (String.ofList cs)) cs
  | str {s : String} {cs : List Char} (h : Quotes cs s) : Spelled (.str s) cs

theorem Token.Spelled.quotes {s : String} {cs : List Char} (h : Spelled (.str s) cs) :
    Quotes cs s := by
  cases h with
  | str quotes => exact quotes

/-- A unit that is read off the front is spelled there. -/
theorem spelled_of_unit {c : Char} {cs rest : List Char} {t : Token} (h : unit c cs = (t, rest))
    (good : t ≠ .bad) : ∃ text, c :: cs = text ++ rest ∧ t.Spelled text := by
  have refused {t : Token} {rest : List Char} (h : (Token.bad, []) = (t, rest)) : t = .bad :=
    (congrArg Prod.fst h).symm
  unfold unit at h
  split at h
  · cases h; exact ⟨_, rfl, .openArr⟩
  · cases h; exact ⟨_, rfl, .closeArr⟩
  · cases h; exact ⟨_, rfl, .openObj⟩
  · cases h; exact ⟨_, rfl, .closeObj⟩
  · cases h; exact ⟨_, rfl, .colon⟩
  · cases h; exact ⟨_, rfl, .comma⟩
  · split at h
    · exact absurd (refused h) good
    · next body after split =>
        split at h
        · exact absurd (refused h) good
        · next s text =>
            cases h
            obtain rfl := splitString_sound split
            obtain ⟨ps, pieces, rfl⟩ := Option.map_eq_some_iff.mp text
            exact ⟨'"' :: (body ++ ['"']), by simp, .str (.mk (body_of_pieces? pieces split))⟩
  · split at h
    · cases h; exact ⟨_, rfl, .null⟩
    · exact absurd (refused h) good
  · split at h
    · cases h; exact ⟨_, rfl, .true⟩
    · exact absurd (refused h) good
  · split at h
    · cases h; exact ⟨_, rfl, .false⟩
    · exact absurd (refused h) good
  · split at h
    · exact absurd (refused h) good
    · next text after number =>
        split at h
        · cases h
          obtain ⟨eq, written⟩ := number?_sound number
          exact ⟨text, eq, .num written⟩
        · exact absurd (refused h) good

/-- **One unit.**  The first unit of a text is spelled behind white space. -/
theorem spelled_of_lex {cs : List Char} {t : Token} {ts : List Token} (h : lex cs = t :: ts)
    (good : t ≠ .bad) :
    ∃ b text rest, cs = b ++ (text ++ rest) ∧ Blanks b ∧ t.Spelled text ∧ lex rest = ts := by
  fun_induction lex cs with
  | case1 => cases h
  | case2 c cs blank ih =>
      obtain ⟨b, text, rest, rfl, hb, spelled, hrest⟩ := ih h
      exact ⟨c :: b, text, rest, rfl, List.forall_mem_cons.mpr ⟨blank, hb⟩, spelled, hrest⟩
  | case3 c cs blank shorter ih =>
      cases h
      obtain ⟨text, eq, spelled⟩ := spelled_of_unit rfl good
      exact ⟨[], text, _, eq, by simp [Blanks], spelled, rfl⟩

/-! ### Texts of the grammar are cut into the units of their values -/

theorem Blanks.stops {b rest : List Char} (hb : Blanks b) (h : Stops rest) : Stops (b ++ rest) := by
  cases b with
  | nil => exact h
  | cons c b =>
      have blank := hb c List.mem_cons_self
      simp only [isBlank, Bool.or_eq_true, beq_iff_eq] at blank
      rcases blank with ((rfl | rfl) | rfl) | rfl <;> simp [continuesNumber]

theorem lexes_blanks {b : List Char} (hb : Blanks b) : Lexes b [] := by
  have := lexes_nil.blanks hb
  rwa [List.append_nil] at this

/-- A string is the unit that holds it, whatever follows. -/
theorem Quotes.lex {cs : List Char} {s : String} (h : Quotes cs s) (rest : List Char) :
    lex (cs ++ rest) = .str s :: lex rest := by
  obtain ⟨body⟩ := h
  rename_i text ps
  have text' : unescape? text = some (String.ofList (joinPieces ps)) := by
    rw [unescape?, body.pieces]
    rfl
  rw [List.cons_append, List.append_assoc, List.singleton_append, lex_cons rfl]
  simp [unit, body.splitString, text']

theorem Number.lexes {cs : List Char} (h : Number cs) : Lexes cs [.num (String.ofList cs)] := by
  have numeral : Numeral (String.ofList cs) := by
    rw [Numeral, String.toList_ofList]
    exact h.complete
  have := lexes_number numeral
  rwa [String.toList_ofList] at this

mutual

/-- **A text of the grammar** is cut into the units of its value. -/
theorem Written.lexes {v : Json} {cs : List Char} : Written v cs → Lexes cs v.tokens
  | .null => lexes_null
  | .true => lexes_true
  | .false => lexes_false
  | .num h => h.lexes
  | .str h => fun rest _ => h.lex rest
  | .emptyArr hb => (lexes_blanks hb).bracketed marks_openArr marks_closeArr
  | .arr h => h.lexes.bracketed marks_openArr marks_closeArr
  | .emptyObj hb => (lexes_blanks hb).bracketed marks_openObj marks_closeObj
  | .obj h => h.lexes.bracketed marks_openObj marks_closeObj

theorem WrittenItems.lexes {vs : List Json} {cs : List Char} :
    WrittenItems vs cs → Lexes cs ([Token.comma].intercalate (itemTokens vs))
  | .last hb h hb' => by
      have item := (h.lexes.append (lexes_blanks hb') (by simpa using hb'.stops stops_nil)).blanks hb
      simpa [itemTokens] using item
  | .cons hb h hb' hs => by
      have others := (hs.lexes.mark marks_comma).blanks hb'
      have item := (h.lexes.append others (hb'.stops (by simp [continuesNumber]))).blanks hb
      cases hs <;> simpa [itemTokens, List.intercalate_cons_cons] using item

theorem WrittenMembers.lexes {ms : List (String × Json)} {cs : List Char} :
    WrittenMembers ms cs → Lexes cs ([Token.comma].intercalate (memberTokens ms))
  | .last hb₁ hk hb₂ hb₃ h hb₄ => by
      have value := (h.lexes.append (lexes_blanks hb₄) (by simpa using hb₄.stops stops_nil)).blanks hb₃
      have key : Lexes _ [Token.str _] := fun rest _ => hk.lex rest
      have member := (key.append ((value.mark marks_colon).blanks hb₂)
        (hb₂.stops (by simp [continuesNumber]))).blanks hb₁
      simpa [memberTokens] using member
  | .cons hb₁ hk hb₂ hb₃ h hb₄ hs => by
      have others := (hs.lexes.mark marks_comma).blanks hb₄
      have value := (h.lexes.append others (hb₄.stops (by simp [continuesNumber]))).blanks hb₃
      have key : Lexes _ [Token.str _] := fun rest _ => hk.lex rest
      have member := (key.append ((value.mark marks_colon).blanks hb₂)
        (hb₂.stops (by simp [continuesNumber]))).blanks hb₁
      cases hs <;> simpa [memberTokens, List.intercalate_cons_cons] using member

end

/-- Only a number needs to know what follows it. -/
theorem Written.lex_append {v : Json} {cs : List Char} (h : Written v cs)
    (hv : ∀ text, v ≠ .num text) (rest : List Char) : lex (cs ++ rest) = v.tokens ++ lex rest := by
  have bracketed {left right : Char} {t t' : Token} (hl : Marks left t) (hr : Marks right t')
      {cs : List Char} {ts : List Token} (h : Lexes cs ts) :
      lex (left :: (cs ++ [right]) ++ rest) = t :: (ts ++ [t']) ++ lex rest := by
    have inner := h (right :: rest) (by simp [hr.stops])
    simp only [List.cons_append, List.append_assoc, List.nil_append]
    rw [lex_cons hl.blank, hl.unit, inner, lex_cons hr.blank, hr.unit]
  cases h with
  | null => simp [lex_cons, isBlank, unit, tokens]
  | true => simp [lex_cons, isBlank, unit, tokens]
  | false => simp [lex_cons, isBlank, unit, tokens]
  | num => exact absurd rfl (hv _)
  | str h => exact h.lex rest
  | emptyArr hb => exact bracketed marks_openArr marks_closeArr (lexes_blanks hb)
  | arr h => exact bracketed marks_openArr marks_closeArr h.lexes
  | emptyObj hb => exact bracketed marks_openObj marks_closeObj (lexes_blanks hb)
  | obj h => exact bracketed marks_openObj marks_closeObj h.lexes

/-! ### Texts that begin with the units of a value begin with a text of the grammar -/

theorem WrittenItems.append_blanks {vs : List Json} {cs : List Char} (h : WrittenItems vs cs)
    {b : List Char} (hb : Blanks b) : WrittenItems vs (cs ++ b) := by
  induction vs generalizing cs with
  | nil => cases h
  | cons v vs ih =>
      cases h with
      | last hb₁ h hb₂ =>
          have := WrittenItems.last hb₁ h (List.forall_mem_append.mpr ⟨hb₂, hb⟩)
          simpa using this
      | cons hb₁ h hb₂ hs =>
          have := WrittenItems.cons hb₁ h hb₂ (ih hs)
          simpa using this

theorem WrittenMembers.append_blanks {ms : List (String × Json)} {cs : List Char}
    (h : WrittenMembers ms cs) {b : List Char} (hb : Blanks b) : WrittenMembers ms (cs ++ b) := by
  induction ms generalizing cs with
  | nil => cases h
  | cons m ms ih =>
      cases h with
      | last hb₁ hk hb₂ hb₃ h hb₄ =>
          have := WrittenMembers.last hb₁ hk hb₂ hb₃ h (List.forall_mem_append.mpr ⟨hb₄, hb⟩)
          simpa using this
      | cons hb₁ hk hb₂ hb₃ h hb₄ hs =>
          have := WrittenMembers.cons hb₁ hk hb₂ hb₃ h hb₄ (ih hs)
          simpa using this

/-- A mark at the front of the units. -/
theorem mark_of_lex {c : Char} {t : Token} (hc : ∀ {text}, t.Spelled text → text = [c])
    (good : t ≠ .bad) {cs : List Char} {ts : List Token} (h : lex cs = t :: ts) :
    ∃ b rest, cs = b ++ c :: rest ∧ Blanks b ∧ lex rest = ts := by
  obtain ⟨b, text, rest, rfl, hb, spelled, hrest⟩ := spelled_of_lex h good
  exact ⟨b, rest, by rw [hc spelled]; rfl, hb, hrest⟩

mutual

/-- **The front of a text.**  What is cut into the units of a value is a text of the grammar. -/
theorem written_of_lex : ∀ (v : Json) {cs : List Char} {ts : List Token}, lex cs = v.tokens ++ ts →
    ∃ b body rest, cs = b ++ (body ++ rest) ∧ Blanks b ∧ Written v body ∧ lex rest = ts
  | .null, cs, ts, h => by
      obtain ⟨b, text, rest, rfl, hb, spelled, hrest⟩ := spelled_of_lex h (by simp)
      cases spelled
      exact ⟨b, _, rest, rfl, hb, .null, hrest⟩
  | .bool true, cs, ts, h => by
      obtain ⟨b, text, rest, rfl, hb, spelled, hrest⟩ := spelled_of_lex h (by simp)
      cases spelled
      exact ⟨b, _, rest, rfl, hb, .true, hrest⟩
  | .bool false, cs, ts, h => by
      obtain ⟨b, text, rest, rfl, hb, spelled, hrest⟩ := spelled_of_lex h (by simp)
      cases spelled
      exact ⟨b, _, rest, rfl, hb, .false, hrest⟩
  | .num n, cs, ts, h => by
      obtain ⟨b, text, rest, rfl, hb, spelled, hrest⟩ := spelled_of_lex h (by simp)
      cases spelled with
      | num number => exact ⟨b, text, rest, rfl, hb, .num number, hrest⟩
  | .str s, cs, ts, h => by
      obtain ⟨b, text, rest, rfl, hb, spelled, hrest⟩ := spelled_of_lex h (by simp)
      exact ⟨b, text, rest, rfl, hb, .str spelled.quotes, hrest⟩
  | .arr [], cs, ts, h => by
      obtain ⟨b, rest, rfl, hb, h⟩ := mark_of_lex (by rintro _ ⟨⟩; rfl) (by simp) h
      obtain ⟨b', rest', rfl, hb', h⟩ := mark_of_lex (by rintro _ ⟨⟩; rfl) (by simp) h
      exact ⟨b, '[' :: (b' ++ [']']), rest', by simp, hb, .emptyArr hb', h⟩
  | .arr (v :: vs), cs, ts, h => by
      rw [tokens, List.cons_append, List.append_assoc] at h
      obtain ⟨b, rest, rfl, hb, h⟩ := mark_of_lex (by rintro _ ⟨⟩; rfl) (by simp) h
      obtain ⟨body, rest, rfl, items, h⟩ := writtenItems_of_lex v vs h
      obtain ⟨b', rest', rfl, hb', h⟩ := mark_of_lex (by rintro _ ⟨⟩; rfl) (by simp) h
      exact ⟨b, '[' :: ((body ++ b') ++ [']']), rest', by simp, hb, .arr (items.append_blanks hb'), h⟩
  | .obj [], cs, ts, h => by
      obtain ⟨b, rest, rfl, hb, h⟩ := mark_of_lex (by rintro _ ⟨⟩; rfl) (by simp) h
      obtain ⟨b', rest', rfl, hb', h⟩ := mark_of_lex (by rintro _ ⟨⟩; rfl) (by simp) h
      exact ⟨b, '\x7b' :: (b' ++ ['\x7d']), rest', by simp, hb, .emptyObj hb', h⟩
  | .obj (m :: ms), cs, ts, h => by
      rw [tokens, List.cons_append, List.append_assoc] at h
      obtain ⟨b, rest, rfl, hb, h⟩ := mark_of_lex (by rintro _ ⟨⟩; rfl) (by simp) h
      obtain ⟨body, rest, rfl, members, h⟩ := writtenMembers_of_lex m ms h
      obtain ⟨b', rest', rfl, hb', h⟩ := mark_of_lex (by rintro _ ⟨⟩; rfl) (by simp) h
      exact ⟨b, '\x7b' :: ((body ++ b') ++ ['\x7d']), rest', by simp, hb,
        .obj (members.append_blanks hb'), h⟩
termination_by v => sizeOf v

theorem writtenItems_of_lex : ∀ (v : Json) (vs : List Json) {cs : List Char} {ts : List Token},
    lex cs = [Token.comma].intercalate (itemTokens (v :: vs)) ++ ts →
    ∃ body rest, cs = body ++ rest ∧ WrittenItems (v :: vs) body ∧ lex rest = ts
  | v, [], cs, ts, h => by
      rw [itemTokens, itemTokens, List.intercalate_singleton] at h
      obtain ⟨b, body, rest, rfl, hb, written, h⟩ := written_of_lex v h
      exact ⟨b ++ (body ++ []), rest, by simp, .last hb written (by simp [Blanks]), h⟩
  | v, w :: ws, cs, ts, h => by
      rw [itemTokens, itemTokens, List.intercalate_cons_cons, ← itemTokens, List.append_assoc,
        List.append_assoc] at h
      obtain ⟨b, body, rest, rfl, hb, written, h⟩ := written_of_lex v h
      obtain ⟨b', rest, rfl, hb', h⟩ := mark_of_lex (by rintro _ ⟨⟩; rfl) (by simp) h
      obtain ⟨others, rest, rfl, items, h⟩ := writtenItems_of_lex w ws h
      exact ⟨b ++ (body ++ (b' ++ ',' :: others)), rest, by simp, .cons hb written hb' items, h⟩
termination_by v vs => sizeOf (v :: vs)

theorem writtenMembers_of_lex : ∀ (m : String × Json) (ms : List (String × Json)) {cs : List Char}
    {ts : List Token}, lex cs = [Token.comma].intercalate (memberTokens (m :: ms)) ++ ts →
    ∃ body rest, cs = body ++ rest ∧ WrittenMembers (m :: ms) body ∧ lex rest = ts
  | (k, v), [], cs, ts, h => by
      rw [memberTokens, memberTokens, List.intercalate_singleton] at h
      obtain ⟨b₁, key, rest, rfl, hb₁, spelled, h⟩ := spelled_of_lex h (by simp)
      have quotes := spelled.quotes
      obtain ⟨b₂, rest, rfl, hb₂, h⟩ := mark_of_lex (by rintro _ ⟨⟩; rfl) (by simp) h
      obtain ⟨b₃, body, rest, rfl, hb₃, written, h⟩ := written_of_lex v h
      exact ⟨b₁ ++ (key ++ (b₂ ++ ':' :: (b₃ ++ (body ++ [])))), rest, by simp,
        .last hb₁ quotes hb₂ hb₃ written (by simp [Blanks]), h⟩
  | (k, v), m :: ms, cs, ts, h => by
      rw [memberTokens, memberTokens, List.intercalate_cons_cons, ← memberTokens, List.append_assoc,
        List.append_assoc] at h
      obtain ⟨b₁, key, rest, rfl, hb₁, spelled, h⟩ := spelled_of_lex h (by simp)
      have quotes := spelled.quotes
      obtain ⟨b₂, rest, rfl, hb₂, h⟩ := mark_of_lex (by rintro _ ⟨⟩; rfl) (by simp) h
      obtain ⟨b₃, body, rest, rfl, hb₃, written, h⟩ := written_of_lex v h
      obtain ⟨b₄, rest, rfl, hb₄, h⟩ := mark_of_lex (by rintro _ ⟨⟩; rfl) (by simp) h
      obtain ⟨others, rest, rfl, members, h⟩ := writtenMembers_of_lex m ms h
      exact ⟨b₁ ++ (key ++ (b₂ ++ ':' :: (b₃ ++ (body ++ (b₄ ++ ',' :: others))))), rest, by simp,
        .cons hb₁ quotes hb₂ hb₃ written hb₄ members, h⟩
termination_by m ms => sizeOf m + sizeOf ms

end

end Json

end SolidityLint
