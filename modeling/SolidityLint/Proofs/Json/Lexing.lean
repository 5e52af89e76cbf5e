import Mathlib.Data.List.Forall2
import SolidityLint.Json.Parser
import SolidityLint.Json.Printer

/-!
# Json — the units of a written text

`Lexes cs ts` says that the text `cs` is cut into the units `ts`, whatever follows it.  What
follows may not begin with a character that could continue a number (`Stops`): a number is the one
unit without an end mark of its own.

* `lexes_renderString`: a written string is the one unit that holds the string, for both ways of
  writing the characters that are special in a page.
* `lexes_number`: a text that is a number (`Numeral`) is the one unit that holds it.
* `lexes_intercalate`: texts between separators are cut one after the other.
-/

namespace SolidityLint

namespace Json

/-! ### What may follow a number -/

/-- Could the character continue a number? -/
def continuesNumber (c : Char) : Bool := c.isDigit || c == '.' || c == 'e' || c == 'E'

/-- The text does not begin with a character that could continue a number. -/
def Stops (cs : List Char) : Prop := ∀ c ∈ cs.head?, continuesNumber c = false

@[simp]
theorem stops_nil : Stops [] := by simp [Stops]

@[simp]
theorem stops_cons {c : Char} {cs : List Char} : Stops (c :: cs) ↔ continuesNumber c = false := by
  simp [Stops]

theorem Stops.append {cs rest : List Char} (h : Stops cs) (h' : Stops rest) : Stops (cs ++ rest) := by
  cases cs with
  | nil => exact h'
  | cons c cs => simpa using h

/-! ### Strings -/

/-- The piece stands for the character by itself. -/
inductive Piece.Means : Piece → Char → Prop where
  | char (c : Char) : Means (.char c) c
  | unit {n : Nat} (h : isSurrogate n = false) : Means (.unit n) (Char.ofNat n)

theorem joinPieces_cons {p : Piece} {c : Char} (h : p.Means c) (ps : List Piece) :
    joinPieces (p :: ps) = c :: joinPieces ps := by
  cases h with
  | char => simp [joinPieces]
  | @unit n h =>
      rcases ps with _ | ⟨_ | low, ps⟩
      · simp [joinPieces, h]
      · simp [joinPieces, h]
      · have high : ¬ (0xD800 ≤ n ∧ n < 0xDC00 ∧ 0xDC00 ≤ low ∧ low < 0xE000) := by
          simp only [isSurrogate, Bool.and_eq_false_iff, decide_eq_false_iff_not] at h
          omega
        simp [joinPieces, h, high]

/-- The text is read as the character, wherever it stands inside a string. -/
structure Spells (text : List Char) (c : Char) : Prop where
  split : ∀ rest, splitString (text ++ rest) =
    (splitString rest).map fun (body, after) => (text ++ body, after)
  piece : ∃ p : Piece, p.Means c ∧ ∀ rest, pieces? (text ++ rest) = (pieces? rest).map (p :: ·)

theorem splitString_cons {c : Char} (quote : c ≠ '"') (slash : c ≠ '\\') (rest : List Char) :
    splitString (c :: rest) = (splitString rest).map fun (body, after) => (c :: body, after) :=
  splitString.eq_4 c rest quote fun _ _ h => absurd h slash

theorem pieces?_cons {c : Char} (slash : c ≠ '\\') (high : 0x20 ≤ c.toNat) (rest : List Char) :
    pieces? (c :: rest) = (pieces? rest).map (.char c :: ·) := by
  have low : ¬ c.toNat < 0x20 := by omega
  simp [pieces?, slash, low]

theorem spells_self {c : Char} (quote : c ≠ '"') (slash : c ≠ '\\') (high : 0x20 ≤ c.toNat) :
    Spells [c] c where
  split rest := splitString_cons quote slash rest
  piece := ⟨.char c, .char c, fun rest => pieces?_cons slash high rest⟩

/-- The codes that are written by their four hexadecimal digits. -/
def spelledCodes : List Nat := List.range 0x20 ++ [0x26, 0x3C, 0x3E, 0x2028, 0x2029]

/-- The four digits are read as the code, and none of them means anything else in a string. -/
def SpellsCode (n : Nat) : List Char → Bool
  | [a, b, c, d] => hex4? a b c d == some n && [a, b, c, d].all fun x => x != '"' && x != '\\'
  | _ => false

theorem spellsCode_hex : ∀ n ∈ spelledCodes, SpellsCode n (Quoted.hex 4 n) = true := by
  decide +kernel

theorem not_isSurrogate_spelledCodes : ∀ n ∈ spelledCodes, isSurrogate n = false := by
  decide

theorem spells_hex {c : Char} (h : c.toNat ∈ spelledCodes) :
    Spells ('\\' :: 'u' :: Quoted.hex 4 c.toNat) c := by
  have digits := spellsCode_hex c.toNat h
  unfold SpellsCode at digits
  split at digits
  · next a b d e eq =>
      simp only [Bool.and_eq_true, beq_iff_eq, List.all_cons, List.all_nil, bne_iff_ne] at digits
      obtain ⟨value, ha, hb, hd, he, -⟩ := digits
      rw [eq]
      refine ⟨fun rest => ?_, .unit c.toNat, ?_, fun rest => ?_⟩
      · simp only [List.cons_append, List.nil_append, splitString, splitString_cons ha.1 ha.2,
          splitString_cons hb.1 hb.2, splitString_cons hd.1 hd.2, splitString_cons he.1 he.2,
          Option.map_map]
        rfl
      · have := Piece.Means.unit (not_isSurrogate_spelledCodes c.toNat h)
        rwa [Char.ofNat_toNat] at this
      · have read : pieces? ('\\' :: 'u' :: a :: b :: d :: e :: rest) =
            (hex4? a b d e).bind fun n => (pieces? rest).bind fun ps => some (.unit n :: ps) := rfl
        rw [List.cons_append, List.cons_append, List.cons_append, List.cons_append, List.cons_append,
          List.cons_append, List.nil_append, read, value, Option.bind_some]
        cases pieces? rest <;> rfl
  · cases digits

theorem mem_spelledCodes_of_escaped {safe : Bool} {c : Char}
    (h : c.toNat < 0x20 || c.toNat == 0x2028 || c.toNat == 0x2029
      || (safe && (c == '<' || c == '>' || c == '&'))) : c.toNat ∈ spelledCodes := by
  simp only [spelledCodes, List.mem_append, List.mem_range, List.mem_cons, List.not_mem_nil]
  simp only [Bool.or_eq_true, Bool.and_eq_true, decide_eq_true_eq, beq_iff_eq] at h
  rcases h with ((h | h) | h) | ⟨-, (rfl | rfl) | rfl⟩
  · exact .inl h
  · simp [h]
  · simp [h]
  · simp
  · simp
  · simp

/-- A character is written so that it is read back. -/
theorem spells_escapeChar (safe : Bool) (c : Char) : Spells (escapeChar safe c) c := by
  -- The seven short escapes differ only in the letter.
  have short (e c : Char) (h : ∀ rest, pieces? ('\\' :: e :: rest) =
      (pieces? rest).bind fun ps => some (.char c :: ps)) : Spells ['\\', e] c := by
    refine ⟨fun _ => rfl, .char c, .char c, fun rest => (h rest).trans ?_⟩
    cases pieces? rest <;> rfl
  unfold escapeChar
  split
  any_goals exact short _ _ fun _ => rfl
  next quote slash _ _ _ _ _ =>
    split
    · next h => exact spells_hex (mem_spelledCodes_of_escaped h)
    · next h =>
        refine spells_self quote slash ?_
        simp only [Bool.or_eq_true, decide_eq_true_eq, not_or] at h
        omega

theorem splitString_escaped (safe : Bool) (cs rest : List Char) :
    splitString (cs.flatMap (escapeChar safe) ++ '"' :: rest) =
      some (cs.flatMap (escapeChar safe), rest) := by
  induction cs with
  | nil => rfl
  | cons c cs ih =>
      rw [List.flatMap_cons, List.append_assoc, (spells_escapeChar safe c).split, ih]
      rfl

theorem pieces?_escaped (safe : Bool) (cs : List Char) :
    ∃ ps, pieces? (cs.flatMap (escapeChar safe)) = some ps ∧ joinPieces ps = cs := by
  induction cs with
  | nil => exact ⟨[], rfl, rfl⟩
  | cons c cs ih =>
      obtain ⟨ps, hps, joined⟩ := ih
      obtain ⟨p, means, hp⟩ := (spells_escapeChar safe c).piece
      refine ⟨p :: ps, ?_, ?_⟩
      · rw [List.flatMap_cons, hp, hps]
        rfl
      · rw [joinPieces_cons means, joined]

/-! ### Numbers -/

/-- The text is a number. -/
def Numeral (text : String) : Prop := number? text.toList = some (text.toList, [])

/-- The reader does not look past a place where a number stops. -/
def Halts (reader : List Char → Option (List Char × List Char)) : Prop :=
  ∀ ⦃cs taken left rest⦄, reader cs = some (taken, left) → Stops rest →
    reader (cs ++ rest) = some (taken, left ++ rest)

theorem takeWhile_isDigit_of_stops {rest : List Char} (h : Stops rest) :
    rest.takeWhile Char.isDigit = [] ∧ rest.dropWhile Char.isDigit = rest := by
  cases rest with
  | nil => simp
  | cons c rest =>
      have digit : c.isDigit = false := by
        simp only [stops_cons, continuesNumber, Bool.or_eq_false_iff] at h
        exact h.1.1.1
      simp [digit]

theorem halts_digits1? : Halts digits1? := by
  intro cs taken left rest h stops
  obtain ⟨taken', left'⟩ := takeWhile_isDigit_of_stops stops
  unfold digits1? at h ⊢
  split at h
  · cases h
  · next ne =>
      cases h
      have taken'' : (cs ++ rest).takeWhile Char.isDigit = cs.takeWhile Char.isDigit := by
        rw [List.takeWhile_append, taken', List.append_nil]
        split
        · next full =>
            exact ((List.takeWhile_prefix Char.isDigit).eq_of_length full).symm
        · rfl
      have left'' : (cs ++ rest).dropWhile Char.isDigit = cs.dropWhile Char.isDigit ++ rest := by
        rw [List.dropWhile_append, left']
        split
        · next empty => rw [List.isEmpty_iff.mp empty, List.nil_append]
        · rfl
      rw [taken'', left'']
      split
      · next nil => exact absurd nil ne
      · rfl

/-- Putting a mark in front of what a reader takes. -/
theorem Halts.marked {reader : List Char → Option (List Char × List Char)} (h : Halts reader)
    (c : Char) : Halts fun cs => (reader cs).map fun (ds, rest) => (c :: ds, rest) := by
  intro cs taken left rest read stops
  obtain ⟨⟨ds, left'⟩, hds, he⟩ := Option.map_eq_some_iff.mp read
  cases he
  exact Option.map_eq_some_iff.mpr ⟨_, h hds stops, rfl⟩

theorem integral?_cons {c : Char} (zero : c ≠ '0') (cs : List Char) :
    integral? (c :: cs) = digits1? (c :: cs) := by
  simp [integral?, zero]

theorem halts_integral? : Halts integral? := by
  intro cs taken left rest h stops
  rcases cs with _ | ⟨c, cs⟩
  · cases h
  · by_cases zero : c = '0'
    · subst zero
      cases h
      rfl
    · rw [integral?_cons zero] at h
      rw [List.cons_append, integral?_cons zero]
      exact halts_digits1? h stops

theorem fraction?_cons {c : Char} (point : c ≠ '.') (cs : List Char) :
    fraction? (c :: cs) = some ([], c :: cs) := by
  simp [fraction?, point]

theorem halts_fraction? : Halts fraction? := by
  intro cs taken left rest h stops
  rcases cs with _ | ⟨c, cs⟩
  · cases h
    rcases rest with _ | ⟨c, rest⟩
    · rfl
    · exact fraction?_cons (by rintro rfl; cases stops_cons.mp stops) rest
  · by_cases point : c = '.'
    · subst point
      exact halts_digits1?.marked '.' h stops
    · rw [fraction?_cons point] at h
      cases h
      exact fraction?_cons point (cs ++ rest)

theorem signed?_cons {c : Char} (plus : c ≠ '+') (minus : c ≠ '-') (cs : List Char) :
    exponent?.signed? (c :: cs) = digits1? (c :: cs) := by
  simp [exponent?.signed?, plus, minus]

theorem halts_signed? : Halts exponent?.signed? := by
  intro cs taken left rest h stops
  rcases cs with _ | ⟨c, cs⟩
  · cases h
  · by_cases plus : c = '+'
    · subst plus
      exact halts_digits1?.marked '+' h stops
    · by_cases minus : c = '-'
      · subst minus
        exact halts_digits1?.marked '-' h stops
      · rw [signed?_cons plus minus] at h
        rw [List.cons_append, signed?_cons plus minus]
        exact halts_digits1? h stops

theorem exponent?_cons {c : Char} (small : c ≠ 'e') (large : c ≠ 'E') (cs : List Char) :
    exponent? (c :: cs) = some ([], c :: cs) := by
  simp [exponent?, small, large]

theorem halts_exponent? : Halts exponent? := by
  intro cs taken left rest h stops
  rcases cs with _ | ⟨c, cs⟩
  · cases h
    rcases rest with _ | ⟨c, rest⟩
    · rfl
    · exact exponent?_cons (by rintro rfl; cases stops_cons.mp stops)
        (by rintro rfl; cases stops_cons.mp stops) rest
  · by_cases small : c = 'e'
    · subst small
      exact halts_signed?.marked 'e' h stops
    · by_cases large : c = 'E'
      · subst large
        exact halts_signed?.marked 'E' h stops
      · rw [exponent?_cons small large] at h
        cases h
        exact exponent?_cons small large (cs ++ rest)

theorem halts_unsigned? : Halts unsigned? := by
  intro cs taken left rest h stops
  simp only [unsigned?, Option.bind_eq_bind, Option.bind_eq_some_iff, Option.pure_def,
    Option.some.injEq, Prod.mk.injEq] at h
  obtain ⟨⟨i, cs₁⟩, hi, ⟨f, cs₂⟩, hf, ⟨e, cs₃⟩, he, rfl, rfl⟩ := h
  simp [unsigned?, halts_integral? hi stops, halts_fraction? hf stops, halts_exponent? he stops]

theorem number?_cons {c : Char} (sign : c ≠ '-') (cs : List Char) :
    number? (c :: cs) = unsigned? (c :: cs) := by
  simp [number?, sign]

theorem halts_number? : Halts number? := by
  intro cs taken left rest h stops
  rcases cs with _ | ⟨c, cs⟩
  · cases h
  · by_cases sign : c = '-'
    · subst sign
      exact halts_unsigned?.marked '-' h stops
    · rw [number?_cons sign] at h
      rw [List.cons_append, number?_cons sign]
      exact halts_unsigned? h stops

/-! ### Texts and their units -/

/-- The text is cut into the units, whatever follows it. -/
def Lexes (cs : List Char) (ts : List Token) : Prop :=
  ∀ rest, Stops rest → lex (cs ++ rest) = ts ++ lex rest

theorem lexes_nil : Lexes [] [] := fun _ _ => rfl

theorem Lexes.append {cs cs' : List Char} {ts ts' : List Token} (h : Lexes cs ts)
    (h' : Lexes cs' ts') (stops : Stops cs') : Lexes (cs ++ cs') (ts ++ ts') := by
  intro rest hrest
  rw [List.append_assoc, h _ (stops.append hrest), h' rest hrest, List.append_assoc]

theorem Lexes.eq {cs : List Char} {ts : List Token} (h : Lexes cs ts) : lex cs = ts := by
  have := h [] stops_nil
  simpa [lex] using this

theorem lex_cons {c : Char} (h : isBlank c = false) (cs : List Char) :
    lex (c :: cs) = (unit c cs).1 :: lex (unit c cs).2 := by
  rw [lex]
  simp [h]

theorem Lexes.blank {c : Char} (hc : isBlank c = true) {cs : List Char} {ts : List Token}
    (h : Lexes cs ts) : Lexes (c :: cs) ts := by
  intro rest hrest
  rw [List.cons_append, lex, if_pos hc]
  exact h rest hrest

theorem Lexes.blanks {blanks : List Char} (hb : ∀ c ∈ blanks, isBlank c = true) {cs : List Char}
    {ts : List Token} (h : Lexes cs ts) : Lexes (blanks ++ cs) ts := by
  induction blanks with
  | nil => exact h
  | cons c blanks ih =>
      obtain ⟨first, others⟩ := List.forall_mem_cons.mp hb
      exact (ih others).blank first

theorem isBlank_of_mem_indentation {n : Nat} : ∀ c ∈ (indentation n).toList, isBlank c = true := by
  intro c hc
  rw [indentation, String.toList_ofList] at hc
  rw [List.eq_of_mem_replicate hc]
  rfl

/-- The character is a unit of its own. -/
structure Marks (c : Char) (t : Token) : Prop where
  blank : isBlank c = false
  stops : continuesNumber c = false
  unit : ∀ cs, unit c cs = (t, cs)

theorem Lexes.mark {c : Char} {t : Token} (hc : Marks c t) {cs : List Char} {ts : List Token}
    (h : Lexes cs ts) : Lexes (c :: cs) (t :: ts) := by
  intro rest hrest
  rw [List.cons_append, lex_cons hc.blank, hc.unit, h rest hrest]
  rfl

theorem marks_comma : Marks ',' .comma := ⟨rfl, rfl, fun _ => rfl⟩

theorem marks_colon : Marks ':' .colon := ⟨rfl, rfl, fun _ => rfl⟩

theorem marks_openArr : Marks '[' .openArr := ⟨rfl, rfl, fun _ => rfl⟩

theorem marks_closeArr : Marks ']' .closeArr := ⟨rfl, rfl, fun _ => rfl⟩

theorem marks_openObj : Marks '\x7b' .openObj := ⟨rfl, rfl, fun _ => rfl⟩

theorem marks_closeObj : Marks '\x7d' .closeObj := ⟨rfl, rfl, fun _ => rfl⟩

/-- A unit whose own characters say where it ends. -/
theorem Lexes.word {c : Char} {cs : List Char} {t : Token} (blank : isBlank c = false)
    (reads : ∀ rest, unit c (cs ++ rest) = (t, rest)) : Lexes (c :: cs) [t] := by
  intro rest _
  rw [List.cons_append, lex_cons blank, reads]
  rfl

theorem lexes_null : Lexes "null".toList [.null] := .word rfl fun _ => rfl

theorem lexes_true : Lexes "true".toList [.bool true] := .word rfl fun _ => rfl

theorem lexes_false : Lexes "false".toList [.bool false] := .word rfl fun _ => rfl

theorem unit_quote {cs body rest : List Char} {s : String}
    (split : splitString cs = some (body, rest)) (value : unescape? body = some s) :
    unit '"' cs = (.str s, rest) := by
  simp [unit, split, value]

/-- A written string is the unit that holds it. -/
theorem lexes_renderString (s : String) (safe : Bool) :
    Lexes (renderString s safe).toList [.str s] := by
  obtain ⟨ps, pieces, joined⟩ := pieces?_escaped safe s.toList
  have body : unescape? (s.toList.flatMap (escapeChar safe)) = some s := by
    rw [unescape?, pieces, Option.map_some, joined, String.ofList_toList]
  rw [renderString, String.toList_ofList, List.cons_append]
  refine .word rfl fun rest => ?_
  rw [List.append_assoc]
  exact unit_quote (splitString_escaped safe s.toList rest) body

/-- Can a number begin with the character? -/
def startsNumber (c : Char) : Bool := c == '-' || c.isDigit

theorem isBlank_of_startsNumber {c : Char} (h : startsNumber c = true) : isBlank c = false := by
  rw [Bool.eq_false_iff]
  intro blank
  simp only [isBlank, Bool.or_eq_true, beq_iff_eq] at blank
  rcases blank with ((rfl | rfl) | rfl) | rfl <;> simp [startsNumber] at h

theorem isDigit_of_digits1? {c : Char} {cs : List Char} {p : List Char × List Char}
    (h : digits1? (c :: cs) = some p) : c.isDigit = true := by
  cases digit : c.isDigit with
  | true => rfl
  | false => simp [digits1?, digit] at h

theorem startsNumber_of_number? {c : Char} {cs : List Char} {p : List Char × List Char}
    (h : number? (c :: cs) = some p) : startsNumber c = true := by
  by_cases sign : c = '-'
  · simp [startsNumber, sign]
  · by_cases zero : c = '0'
    · simp [startsNumber, zero]
    · rw [number?_cons sign, unsigned?, integral?_cons zero] at h
      simp only [Option.bind_eq_bind, Option.bind_eq_some_iff] at h
      obtain ⟨_, digits, -⟩ := h
      simp [startsNumber, isDigit_of_digits1? digits]

theorem unit_number {c : Char} (h : startsNumber c = true) {cs text rest : List Char}
    (number : number? (c :: cs) = some (text, rest)) (shorter : rest.length ≤ cs.length) :
    unit c cs = (.num (String.ofList text), rest) := by
  unfold unit
  split
  any_goals simp [startsNumber] at h
  rw [number]
  exact if_pos shorter

/-- A number is the unit that holds it. -/
theorem lexes_number {text : String} (h : Numeral text) : Lexes text.toList [.num text] := by
  intro rest stops
  have number := halts_number? h stops
  unfold Numeral at h
  cases chars : text.toList with
  | nil =>
      rw [chars] at h
      cases h
  | cons c cs =>
      rw [chars, List.nil_append, List.cons_append] at number
      rw [chars] at h
      have starts := startsNumber_of_number? h
      rw [List.cons_append, lex_cons (isBlank_of_startsNumber starts),
        unit_number starts number (by simp), ← chars, String.ofList_toList]
      rfl

/-- Texts between separators are cut into their units, with commas between them.  A separator is
a comma and blanks. -/
theorem lexes_intercalate (blanks : List Char) (hb : ∀ c ∈ blanks, isBlank c = true)
    {texts : List (List Char)} {units : List (List Token)} (h : List.Forall₂ Lexes texts units) :
    Lexes ((',' :: blanks).intercalate texts) ([Token.comma].intercalate units) := by
  induction h with
  | nil => exact lexes_nil
  | cons first others ih =>
      cases others with
      | nil => simpa using first
      | cons _ _ =>
          rw [List.intercalate_cons_cons, List.intercalate_cons_cons, List.append_assoc,
            List.append_assoc]
          exact first.append ((ih.blanks hb).mark marks_comma) (by simp [marks_comma.stops])

end Json

end SolidityLint
