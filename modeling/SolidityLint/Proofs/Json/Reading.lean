import SolidityLint.Proofs.Json.Grammar

/-!
# Json — what the readers accept

The reader keeps its open brackets on a stack.  `Stands` says which units it has taken when it waits
for the next one: those of the open brackets, outermost first, and those of what they hold.

* `tokens_of_readValue`: what is taken and what is left together are the units of the text.
* `readValue_iff`: the reader takes the units of a value off the front, and nothing else.
* `leads_of_parseFirst?` and `parseFirst?_of_leads`: the first value of a text is one that is written
  at its front, nested no deeper than the limit.
* `parse?_iff`: the texts that are one value are those of the grammar with white space around them,
  nested no deeper than the limit.
-/

namespace SolidityLint

namespace Json

/-! ### The units taken so far -/

/-- The units that an open bracket has taken before the value that it waits for. -/
def Frame.lead : Frame → List Token
  | .arr items => .openArr :: (itemTokens items.reverse).flatMap (· ++ [.comma])
  | .obj members key =>
      .openObj :: ((memberTokens members.reverse).flatMap (· ++ [.comma]) ++ [.str key, .colon])

/-- The units that the open brackets have taken, the outermost first. -/
def leads (stack : List Frame) : List Token := (stack.reverse.map Frame.lead).flatten

@[simp]
theorem leads_nil : leads [] = [] := rfl

@[simp]
theorem leads_cons (f : Frame) (stack : List Frame) : leads (f :: stack) = leads stack ++ f.lead := by
  simp [leads]

/-- Where the reader stands after the units `read`. -/
inductive Stands : Expect → List Frame → List Token → Prop where
  | value (stack : List Frame) : Stands .value stack (leads stack)
  | firstItem (stack : List Frame) : Stands .firstItem (.arr [] :: stack) (leads stack ++ [.openArr])
  | firstKey (stack : List Frame) (key : String) :
      Stands .firstKey (.obj [] key :: stack) (leads stack ++ [.openObj])
  | key (stack : List Frame) (members : List (String × Json)) (key : String) :
      Stands (.key members) (.obj members key :: stack)
        (leads stack ++ .openObj :: (memberTokens members.reverse).flatMap (· ++ [.comma]))
  | colon (stack : List Frame) (members : List (String × Json)) (k key : String) :
      Stands (.colon members k) (.obj members key :: stack)
        (leads stack ++
          .openObj :: ((memberTokens members.reverse).flatMap (· ++ [.comma]) ++ [.str k]))
  | moreItems (stack : List Frame) (items : List Json) (v : Json) :
      Stands .more (.arr (v :: items) :: stack) (leads (.arr items :: stack) ++ v.tokens)
  | moreMembers (stack : List Frame) (members : List (String × Json)) (k key : String) (v : Json) :
      Stands .more (.obj ((k, v) :: members) key :: stack)
        (leads (.obj members k :: stack) ++ v.tokens)

/-- A finished value goes into the innermost open bracket. -/
theorem stands_put (f : Frame) (stack : List Frame) (v : Json) :
    Stands .more (f.put v :: stack) (leads (f :: stack) ++ v.tokens) := by
  cases f with
  | arr items => exact .moreItems stack items v
  | obj members key => exact .moreMembers stack members key key v

/-! ### Closing a bracket -/

theorem itemTokens_append (vs ws : List Json) :
    itemTokens (vs ++ ws) = itemTokens vs ++ itemTokens ws := by
  induction vs with
  | nil => rfl
  | cons v vs ih => rw [List.cons_append, itemTokens, itemTokens, ih, List.cons_append]

theorem memberTokens_append (ms ns : List (String × Json)) :
    memberTokens (ms ++ ns) = memberTokens ms ++ memberTokens ns := by
  induction ms with
  | nil => rfl
  | cons m ms ih => rw [List.cons_append, memberTokens, memberTokens, ih, List.cons_append]

/-- A separator after each of the parts but the last. -/
theorem flatMap_append_eq_intercalate {α : Type} (sep : List α) (parts : List (List α))
    (last : List α) :
    parts.flatMap (· ++ sep) ++ last = sep.intercalate (parts ++ [last]) := by
  induction parts with
  | nil => simp
  | cons part parts ih =>
      rw [List.flatMap_cons, List.append_assoc, ih, List.append_assoc]
      cases parts with
      | nil => simp
      | cons next parts => simp [List.intercalate_cons_cons]

theorem tokens_closeArr (stack : List Frame) (items : List Json) (v : Json) :
    leads (.arr items :: stack) ++ v.tokens ++ [.closeArr] =
      leads stack ++ (Json.arr (v :: items).reverse).tokens := by
  have units := flatMap_append_eq_intercalate [Token.comma] (itemTokens items.reverse) v.tokens
  rw [List.reverse_cons, tokens, itemTokens_append, itemTokens, itemTokens, ← units, leads_cons,
    Frame.lead]
  simp

theorem tokens_closeObj (stack : List Frame) (members : List (String × Json)) (k : String) (v : Json) :
    leads (.obj members k :: stack) ++ v.tokens ++ [.closeObj] =
      leads stack ++ (Json.obj ((k, v) :: members).reverse).tokens := by
  have units := flatMap_append_eq_intercalate [Token.comma] (memberTokens members.reverse)
    (.str k :: .colon :: v.tokens)
  rw [List.reverse_cons, tokens, memberTokens_append, memberTokens, memberTokens, ← units, leads_cons,
    Frame.lead]
  simp

theorem tokens_nextItem (stack : List Frame) (items : List Json) (v : Json) :
    leads (.arr items :: stack) ++ v.tokens ++ [.comma] = leads (.arr (v :: items) :: stack) := by
  rw [leads_cons, leads_cons, Frame.lead, Frame.lead, List.reverse_cons, itemTokens_append]
  simp [itemTokens]

theorem tokens_nextMember (stack : List Frame) (members : List (String × Json)) (k : String)
    (v : Json) :
    leads (.obj members k :: stack) ++ v.tokens ++ [.comma] =
      leads stack ++
        .openObj :: (memberTokens ((k, v) :: members).reverse).flatMap (· ++ [.comma]) := by
  rw [leads_cons, Frame.lead, List.reverse_cons, memberTokens_append]
  simp [memberTokens]

/-! ### The reader takes the units of a value -/

/-- A value of one unit is read at once. -/
theorem readValue_scalar {w : Json} {t : Token} (units : w.tokens = [t]) (ts : List Token)
    (stack : List Frame) (d : Nat) :
    readValue (t :: ts) .value stack d = resume w ts stack d := by
  cases w with
  | null | bool _ | num _ | str _ =>
      cases units
      cases stack <;> simp [readValue, resume]
  | arr _ | obj _ => simp [tokens] at units

theorem readValue_item {t : Token} (open_ : t ≠ .closeArr) (ts : List Token) (stack : List Frame)
    (d : Nat) : readValue (t :: ts) .firstItem stack d = readValue (t :: ts) .value stack d := by
  cases t with
  | closeArr => exact absurd rfl open_
  | _ => simp [readValue]

/-- From wherever it stands before the units `ts`, a reader that returns `v` and leaves `rest` has lost
nothing. -/
def Keeps (ts rest : List Token) (v : Json) : Prop :=
  ∀ ⦃expect : Expect⦄ ⦃stack : List Frame⦄ ⦃d : Nat⦄ ⦃read : List Token⦄, Stands expect stack read →
    readValue ts expect stack d = some (v, rest) → read ++ ts = v.tokens ++ rest

theorem keeps_nil (rest : List Token) (v : Json) : Keeps [] rest v := by
  intro expect stack d read _ h
  simp [readValue] at h

/-! One unit more is kept at each of the places where the reader can stand. -/

namespace Keeps

variable {ts rest : List Token} {v : Json} (h : Keeps ts rest v) {t : Token} {stack : List Frame}
  {d : Nat}

include h

/-- Behind a finished value. -/
theorem finished {w : Json} (resumed : resume w ts stack d = some (v, rest)) :
    leads stack ++ w.tokens ++ ts = v.tokens ++ rest := by
  cases stack with
  | nil =>
      cases resumed
      rfl
  | cons f stack => exact h (stands_put f stack w) resumed

theorem scalar {w : Json} (units : w.tokens = [t])
    (read : readValue (t :: ts) .value stack d = some (v, rest)) :
    leads stack ++ t :: ts = v.tokens ++ rest := by
  rw [readValue_scalar units] at read
  simpa [units] using h.finished read

theorem value (read : readValue (t :: ts) .value stack d = some (v, rest)) :
    leads stack ++ t :: ts = v.tokens ++ rest := by
  cases t with
  | null => exact h.scalar (w := .null) rfl read
  | bool b => exact h.scalar (w := .bool b) rfl read
  | num n => exact h.scalar (w := .num n) rfl read
  | str s => exact h.scalar (w := .str s) rfl read
  | openArr =>
      rw [readValue_openArr] at read
      split at read
      · simpa using h (.firstItem stack) read
      · cases read
  | openObj =>
      rw [readValue_openObj] at read
      split at read
      · simpa using h (.firstKey stack "") read
      · cases read
  | closeArr | closeObj | colon | comma | bad => cases read

theorem firstItem (read : readValue (t :: ts) .firstItem (.arr [] :: stack) d = some (v, rest)) :
    leads stack ++ [.openArr] ++ t :: ts = v.tokens ++ rest := by
  by_cases close : t = .closeArr
  · subst close
    rw [readValue_closeArr_first] at read
    simpa [tokens, itemTokens] using h.finished read
  · rw [readValue_item close] at read
    simpa [Frame.lead, itemTokens] using h.value read

theorem firstKey {key : String}
    (read : readValue (t :: ts) .firstKey (.obj [] key :: stack) d = some (v, rest)) :
    leads stack ++ [.openObj] ++ t :: ts = v.tokens ++ rest := by
  cases t with
  | closeObj =>
      rw [readValue_closeObj_first] at read
      simpa [tokens, memberTokens] using h.finished read
  | str k => simpa [memberTokens] using h (.colon stack [] k key) read
  | _ => cases read

theorem key {members : List (String × Json)} {key : String}
    (read : readValue (t :: ts) (.key members) (.obj members key :: stack) d = some (v, rest)) :
    leads stack ++ .openObj :: (memberTokens members.reverse).flatMap (· ++ [.comma]) ++ t :: ts =
      v.tokens ++ rest := by
  cases t with
  | str k => simpa using h (.colon stack members k key) read
  | _ => cases read

theorem colon {members : List (String × Json)} {k key : String}
    (read : readValue (t :: ts) (.colon members k) (.obj members key :: stack) d = some (v, rest)) :
    leads stack ++ .openObj :: ((memberTokens members.reverse).flatMap (· ++ [.comma]) ++ [.str k])
        ++ t :: ts = v.tokens ++ rest := by
  cases t with
  | colon => simpa [Frame.lead] using h (.value (.obj members k :: stack)) read
  | _ => cases read

theorem moreItems {items : List Json} {w : Json}
    (read : readValue (t :: ts) .more (.arr (w :: items) :: stack) d = some (v, rest)) :
    leads (.arr items :: stack) ++ w.tokens ++ t :: ts = v.tokens ++ rest := by
  cases t with
  | comma =>
      rw [readValue_nextItem] at read
      have next := h (.value (.arr (w :: items) :: stack)) read
      rwa [← tokens_nextItem, List.append_assoc, List.singleton_append] at next
  | closeArr =>
      rw [readValue_closeArr] at read
      have next := h.finished read
      rwa [← tokens_closeArr, List.append_assoc, List.singleton_append] at next
  | _ => cases read

theorem moreMembers {members : List (String × Json)} {k key : String} {w : Json}
    (read : readValue (t :: ts) .more (.obj ((k, w) :: members) key :: stack) d = some (v, rest)) :
    leads (.obj members k :: stack) ++ w.tokens ++ t :: ts = v.tokens ++ rest := by
  cases t with
  | comma =>
      rw [readValue_nextMember] at read
      have next := h (.key stack ((k, w) :: members) key) read
      rwa [← tokens_nextMember, List.append_assoc, List.singleton_append] at next
  | closeObj =>
      rw [readValue_closeObj] at read
      have next := h.finished read
      rwa [← tokens_closeObj, List.append_assoc, List.singleton_append] at next
  | _ => cases read

theorem cons (t : Token) : Keeps (t :: ts) rest v := by
  intro expect stack d units stands read
  cases stands with
  | value => exact h.value read
  | firstItem => exact h.firstItem read
  | firstKey => exact h.firstKey read
  | key => exact h.key read
  | colon => exact h.colon read
  | moreItems => exact h.moreItems read
  | moreMembers => exact h.moreMembers read

end Keeps

/-- **Nothing is lost.**  The units that the reader has taken and those before it are the units of the
value that it returns and those that it leaves. -/
theorem tokens_of_readValue (ts rest : List Token) (v : Json) : Keeps ts rest v := by
  induction ts with
  | nil => exact keeps_nil rest v
  | cons t ts ih => exact ih.cons t

/-- **What the reader takes.**  The units of a value nested no deeper than the limit, off the front. -/
theorem readValue_iff {ts rest : List Token} {v : Json} :
    readValue ts .value [] 0 = some (v, rest) ↔ ts = v.tokens ++ rest ∧ v.depth ≤ maxDepth := by
  have read (rest : List Token) := readValue_tokens rest [] 0 (Nat.zero_le _) v
  simp only [Nat.zero_add, resume] at read
  constructor
  · intro h
    have units : ts = v.tokens ++ rest := tokens_of_readValue ts rest v (.value []) h
    rw [units, read] at h
    split at h
    · next shallow => exact ⟨units, shallow⟩
    · cases h
  · rintro ⟨rfl, shallow⟩
    rw [read, if_pos shallow]

/-! ### Texts -/

/-- The value is written at the front of the text, behind white space and before `rest`. -/
def Leads (v : Json) (cs rest : List Char) : Prop :=
  ∃ before body, cs = before ++ (body ++ rest) ∧ Blanks before ∧ Written v body

/-- The text is the value, with white space around it. -/
def Alone (v : Json) (cs : List Char) : Prop := ∃ rest, Leads v cs rest ∧ Blanks rest

/-- White space has no units, and nothing else has none. -/
theorem lex_eq_nil_iff {cs : List Char} : lex cs = [] ↔ Blanks cs := by
  fun_induction lex cs with
  | case1 => simp [Blanks]
  | case2 c cs blank ih => simpa [Blanks, blank] using ih
  | case3 c cs solid => simp [Blanks, solid]

theorem lex_append_of_blanks {b : List Char} (hb : Blanks b) (cs : List Char) :
    lex (b ++ cs) = lex cs := by
  induction b with
  | nil => rfl
  | cons c b ih =>
      obtain ⟨blank, others⟩ := List.forall_mem_cons.mp hb
      rw [List.cons_append, lex, if_pos blank]
      exact ih others

/-- The units of a text that a value leads. -/
theorem Leads.lex {v : Json} {cs rest : List Char} (h : Leads v cs rest)
    (open_ : (∀ text, v ≠ .num text) ∨ Stops rest) : lex cs = v.tokens ++ lex rest := by
  obtain ⟨before, body, rfl, blank, written⟩ := h
  rw [lex_append_of_blanks blank]
  rcases open_ with number | stops
  · exact written.lex_append number rest
  · exact written.lexes rest stops

theorem leads_of_lex {v : Json} {cs : List Char} {ts : List Token} (h : lex cs = v.tokens ++ ts) :
    ∃ rest, Leads v cs rest ∧ lex rest = ts := by
  obtain ⟨before, body, rest, rfl, blank, written, units⟩ := written_of_lex v h
  exact ⟨rest, ⟨before, body, rfl, blank, written⟩, units⟩

theorem parseFirst?_of_readValue {text : String} {v : Json} {rest : List Token}
    (h : readValue (lex text.toList) .value [] 0 = some (v, rest)) : parseFirst? text = some v := by
  rw [parseFirst?, h]
  rfl

/-- **The first value of a text** is one that leads it. -/
theorem leads_of_parseFirst? {text : String} {v : Json} (h : parseFirst? text = some v) :
    (∃ rest, Leads v text.toList rest) ∧ v.depth ≤ maxDepth := by
  obtain ⟨⟨_, ts⟩, read, rfl⟩ := Option.map_eq_some_iff.mp h
  obtain ⟨units, shallow⟩ := readValue_iff.mp read
  obtain ⟨rest, leads, -⟩ := leads_of_lex units
  exact ⟨⟨rest, leads⟩, shallow⟩

theorem parseFirst?_of_leads {text : String} {v : Json} {rest : List Char}
    (h : Leads v text.toList rest) (open_ : (∀ text, v ≠ .num text) ∨ Stops rest)
    (shallow : v.depth ≤ maxDepth) : parseFirst? text = some v :=
  parseFirst?_of_readValue (readValue_iff.mpr ⟨h.lex open_, shallow⟩)

theorem Alone.lex {v : Json} {cs : List Char} (h : Alone v cs) : lex cs = v.tokens := by
  obtain ⟨rest, leads, blank⟩ := h
  have stops : Stops rest := by simpa using blank.stops stops_nil
  rw [leads.lex (.inr stops), lex_eq_nil_iff.mpr blank, List.append_nil]

/-- **A text that is one value** is a text of the grammar with white space around it. -/
theorem parse?_iff {text : String} {v : Json} :
    parse? text = some v ↔ Alone v text.toList ∧ v.depth ≤ maxDepth := by
  constructor
  · intro h
    unfold parse? at h
    split at h
    · next read =>
        cases h
        obtain ⟨units, shallow⟩ := readValue_iff.mp read
        obtain ⟨rest, leads, none⟩ := leads_of_lex units
        exact ⟨⟨rest, leads, lex_eq_nil_iff.mp none⟩, shallow⟩
    · cases h
  · rintro ⟨alone, shallow⟩
    have read : readValue (Json.lex text.toList) .value [] 0 = some (v, []) :=
      readValue_iff.mpr ⟨by rw [alone.lex, List.append_nil], shallow⟩
    rw [parse?, read]

/-- A text is not one value if units are left behind its first one. -/
theorem not_alone_of_readValue {cs : List Char} {v : Json} {rest : List Token}
    (h : readValue (lex cs) .value [] 0 = some (v, rest)) (more : rest ≠ []) (w : Json) :
    ¬ Alone w cs := by
  intro alone
  have read := readValue_tokens [] [] 0 (Nat.zero_le _) w
  rw [List.append_nil, ← alone.lex, h] at read
  split at read
  · cases read
    exact more rfl
  · cases read

end Json

end SolidityLint
