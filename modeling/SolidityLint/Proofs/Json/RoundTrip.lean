import Mathlib.Data.List.TakeWhile
import SolidityLint.Proofs.Json.Canonical
import SolidityLint.Proofs.Json.Lexing
import SolidityLint.Proofs.Text.Integer

/-!
# Json — written values read back

`Json.tokens` is the sequence of units of a value.  Both ways of writing a value give a text of
these units (`lexes_render`, `lexes_renderIndented`), and reading the units gives the value, unless
it is nested too deeply (`readValue_tokens`).  So a value whose numbers are numbers is read back as
it was written exactly if its depth is at most `Json.maxDepth`: `parse?_of_lexes` and
`parseFirst?_of_lexes` say this of any text of its units.
-/

namespace SolidityLint

namespace Json

/-! ### The units of a value -/

mutual

/-- The units of a value. -/
def tokens : Json → List Token
  | .null => [.null]
  | .bool b => [.bool b]
  | .num text => [.num text]
  | .str s => [.str s]
  | .arr items => .openArr :: ([Token.comma].intercalate (itemTokens items) ++ [.closeArr])
  | .obj members => .openObj :: ([Token.comma].intercalate (memberTokens members) ++ [.closeObj])

/-- Item by item. -/
def itemTokens : List Json → List (List Token)
  | [] => []
  | v :: vs => tokens v :: itemTokens vs

/-- Member by member. -/
def memberTokens : List (String × Json) → List (List Token)
  | [] => []
  | (k, v) :: ms => (.str k :: .colon :: tokens v) :: memberTokens ms

end

/-- Every number of the value is one. -/
def Numerals (v : Json) : Prop := ∀ text, Within (.num text) v → Numeral text

theorem numerals_arr {items : List Json} :
    Numerals (.arr items) ↔ ∀ v ∈ items, Numerals v := by
  constructor
  · intro h v hv text inside
    exact h text (.inr ((Under.item hv).within inside))
  · rintro h text (same | inside)
    · cases same
    · rcases inside.uncons with ⟨_, same, v, hv, inside⟩ | ⟨_, same, -⟩
      · cases same
        exact h v hv text inside
      · cases same

theorem numerals_obj {members : List (String × Json)} :
    Numerals (.obj members) ↔ ∀ m ∈ members, Numerals m.2 := by
  constructor
  · intro h m hm text inside
    have under : Under m.2 (.obj members) := .member hm
    exact h text (.inr (under.within inside))
  · rintro h text (same | inside)
    · cases same
    · rcases inside.uncons with ⟨_, same, -⟩ | ⟨_, same, m, hm, inside⟩
      · cases same
      · cases same
        exact h m hm text inside

theorem numerals_num {text : String} : Numerals (.num text) ↔ Numeral text := by
  constructor
  · intro h
    exact h text (.inl rfl)
  · rintro h text' (same | inside)
    · cases same
      exact h
    · rcases inside.uncons with ⟨_, same, -⟩ | ⟨_, same, -⟩ <;> cases same

/-- A value that is no number and has nothing inside. -/
theorem numerals_of_scalar {v : Json} (h : v = .null ∨ (∃ b, v = .bool b) ∨ ∃ s, v = .str s) :
    Numerals v := by
  rintro text (rfl | inside)
  · rcases h with same | ⟨_, same⟩ | ⟨_, same⟩ <;> cases same
  · rcases inside.uncons with ⟨_, rfl, -⟩ | ⟨_, rfl, -⟩ <;>
      rcases h with same | ⟨_, same⟩ | ⟨_, same⟩ <;> cases same

theorem numerals_null : Numerals .null := numerals_of_scalar (.inl rfl)

theorem numerals_bool (b : Bool) : Numerals (.bool b) := numerals_of_scalar (.inr (.inl ⟨b, rfl⟩))

theorem numerals_str (s : String) : Numerals (.str s) := numerals_of_scalar (.inr (.inr ⟨s, rfl⟩))

theorem numerals_ofOptional {members : List (String × Option Json)}
    (h : ∀ m ∈ members, ∀ v ∈ m.2, Numerals v) : Numerals (.ofOptional members) := by
  refine numerals_obj.mpr fun m hm => ?_
  obtain ⟨⟨key, value⟩, hmember, hvalue⟩ := List.mem_filterMap.mp hm
  obtain ⟨v, hv, rfl⟩ := Option.map_eq_some_iff.mp hvalue
  exact h _ hmember v hv

/-! ### Depth -/

theorem itemsDepth_le_iff {items : List Json} {n : Nat} :
    itemsDepth items ≤ n ↔ ∀ v ∈ items, v.depth ≤ n := by
  induction items with
  | nil => simp [itemsDepth]
  | cons v vs ih => rw [itemsDepth, Nat.max_le, List.forall_mem_cons, ih]

theorem membersDepth_le_iff {members : List (String × Json)} {n : Nat} :
    membersDepth members ≤ n ↔ ∀ m ∈ members, m.2.depth ≤ n := by
  induction members with
  | nil => simp [membersDepth]
  | cons m ms ih => rw [membersDepth, Nat.max_le, List.forall_mem_cons, ih]

theorem depth_ofOptional_le {members : List (String × Option Json)} {n : Nat}
    (h : ∀ m ∈ members, ∀ v ∈ m.2, v.depth ≤ n) : (ofOptional members).depth ≤ n + 1 := by
  refine Nat.succ_le_succ (membersDepth_le_iff.mpr fun m hm => ?_)
  obtain ⟨⟨key, value⟩, hmember, hvalue⟩ := List.mem_filterMap.mp hm
  obtain ⟨v, hv, rfl⟩ := Option.map_eq_some_iff.mp hvalue
  exact h _ hmember v hv

/-! ### Integers -/

theorem integral?_toDigits (n : Nat) :
    integral? (Nat.toDigits 10 n) = some (Nat.toDigits 10 n, []) := by
  have digits : ∀ c ∈ Nat.toDigits 10 n, c.isDigit = true := isDigit_of_mem_toDigits
  cases chars : Nat.toDigits 10 n with
  | nil => exact absurd chars Nat.toDigits_ne_nil
  | cons c cs =>
      by_cases zero : c = '0'
      · subst zero
        rw [(toDigits_eq_zero_cons chars).2]
        rfl
      · rw [chars] at digits
        simp [integral?, zero, digits1?, List.takeWhile_eq_self_iff.mpr digits,
          List.dropWhile_eq_nil_iff.mpr digits]

theorem unsigned?_toDigits (n : Nat) :
    unsigned? (Nat.toDigits 10 n) = some (Nat.toDigits 10 n, []) := by
  simp [unsigned?, integral?_toDigits, fraction?, exponent?]

/-- The decimal text of an integer is a number. -/
theorem numerals_int (n : Int) : Numerals (.int n) := by
  rw [Json.int, numerals_num, Numeral]
  split
  · rw [String.toList_append, Nat.toList_repr]
    simp [number?, unsigned?_toDigits]
  · rw [Nat.toList_repr]
    cases chars : Nat.toDigits 10 n.natAbs with
    | nil => exact absurd chars Nat.toDigits_ne_nil
    | cons c cs =>
        have digit : c.isDigit = true := isDigit_of_mem_toDigits c (by rw [chars]; simp)
        have sign : c ≠ '-' := by rintro rfl; simp at digit
        have read := unsigned?_toDigits n.natAbs
        rw [chars] at read
        simp [number?, sign, read]

/-! ### Writing -/

/-- Units between brackets. -/
theorem Lexes.bracketed {left right : Char} {t t' : Token} (hl : Marks left t) (hr : Marks right t')
    {cs : List Char} {ts : List Token} (h : Lexes cs ts) :
    Lexes (left :: (cs ++ [right])) (t :: (ts ++ [t'])) :=
  (h.append (lexes_nil.mark hr) (by simp [hr.stops])).mark hl

mutual

/-- A value on one line is a text of its units. -/
theorem lexes_render (safe : Bool) : ∀ v : Json, v.Numerals → Lexes (v.render safe).toList v.tokens
  | .null, _ => lexes_null
  | .bool true, _ => lexes_true
  | .bool false, _ => lexes_false
  | .num _, h => lexes_number (numerals_num.mp h)
  | .str s, _ => lexes_renderString s safe
  | .arr items, h => by
      have inner := lexes_intercalate [] (by simp)
        (lexes_renderItems safe items (numerals_arr.mp h))
      simpa [render, tokens] using inner.bracketed marks_openArr marks_closeArr
  | .obj members, h => by
      have inner := lexes_intercalate [] (by simp)
        (lexes_renderMembers safe members (numerals_obj.mp h))
      simpa [render, tokens] using inner.bracketed marks_openObj marks_closeObj

theorem lexes_renderItems (safe : Bool) : ∀ vs : List Json, (∀ v ∈ vs, v.Numerals) →
    List.Forall₂ Lexes ((renderItems safe vs).map String.toList) (itemTokens vs)
  | [], _ => .nil
  | v :: vs, h => by
      obtain ⟨first, others⟩ := List.forall_mem_cons.mp h
      exact .cons (lexes_render safe v first) (lexes_renderItems safe vs others)

theorem lexes_renderMembers (safe : Bool) : ∀ ms : List (String × Json), (∀ m ∈ ms, m.2.Numerals) →
    List.Forall₂ Lexes ((renderMembers safe ms).map String.toList) (memberTokens ms)
  | [], _ => .nil
  | (k, v) :: ms, h => by
      obtain ⟨first, others⟩ := List.forall_mem_cons.mp h
      refine .cons ?_ (lexes_renderMembers safe ms others)
      have value := (lexes_render safe v first).mark marks_colon
      have member := (lexes_renderString k safe).append value (by simp [marks_colon.stops])
      simpa using member

end

/-- A block of lines between brackets. -/
theorem lexes_block {left right : Char} {t t' : Token} (hl : Marks left t) (hr : Marks right t')
    (level : Nat) {texts : List String} {units : List (List Token)}
    (h : List.Forall₂ Lexes (texts.map String.toList) units) :
    Lexes (block level (String.singleton left) (String.singleton right) texts).toList
      (t :: ([Token.comma].intercalate units ++ [t'])) := by
  unfold block
  split
  · next empty =>
      rw [List.isEmpty_iff.mp empty] at h
      cases h
      simpa using lexes_nil.bracketed hl hr
  · have lines : List.Forall₂ Lexes ((texts.map (indentation (level + 1) ++ ·)).map String.toList)
        units := by
      rw [List.map_map, List.forall₂_map_left_iff]
      refine (List.forall₂_map_left_iff.mp h).imp fun text units h => ?_
      simpa using h.blanks isBlank_of_mem_indentation
    have inner := (lexes_intercalate ['\n'] (by simp [isBlank]) lines).blank (c := '\n') rfl
    have last := ((lexes_nil.mark hr).blanks (isBlank_of_mem_indentation (n := level))).blank
      (c := '\n') rfl
    simpa using (inner.append last (by simp [continuesNumber])).mark hl

mutual

/-- A value over several lines is a text of its units. -/
theorem lexes_renderIndented (safe : Bool) :
    ∀ (level : Nat) (v : Json), v.Numerals → Lexes (v.renderIndented safe level).toList v.tokens
  | _, .null, _ => lexes_null
  | _, .bool true, _ => lexes_true
  | _, .bool false, _ => lexes_false
  | _, .num _, h => lexes_number (numerals_num.mp h)
  | _, .str s, _ => lexes_renderString s safe
  | level, .arr items, h =>
      lexes_block marks_openArr marks_closeArr level
        (lexes_indentedItems safe (level + 1) items (numerals_arr.mp h))
  | level, .obj members, h =>
      lexes_block marks_openObj marks_closeObj level
        (lexes_indentedMembers safe (level + 1) members (numerals_obj.mp h))

theorem lexes_indentedItems (safe : Bool) (level : Nat) :
    ∀ vs : List Json, (∀ v ∈ vs, v.Numerals) →
      List.Forall₂ Lexes ((indentedItems safe level vs).map String.toList) (itemTokens vs)
  | [], _ => .nil
  | v :: vs, h => by
      obtain ⟨first, others⟩ := List.forall_mem_cons.mp h
      exact .cons (lexes_renderIndented safe level v first) (lexes_indentedItems safe level vs others)

theorem lexes_indentedMembers (safe : Bool) (level : Nat) :
    ∀ ms : List (String × Json), (∀ m ∈ ms, m.2.Numerals) →
      List.Forall₂ Lexes ((indentedMembers safe level ms).map String.toList) (memberTokens ms)
  | [], _ => .nil
  | (k, v) :: ms, h => by
      obtain ⟨first, others⟩ := List.forall_mem_cons.mp h
      refine .cons ?_ (lexes_indentedMembers safe level ms others)
      have value := ((lexes_renderIndented safe level v first).blank (c := ' ') rfl).mark marks_colon
      have member := (lexes_renderString k safe).append value (by simp [marks_colon.stops])
      simpa using member

end

/-! ### Reading -/

/-- How reading goes on after a value. -/
def resume (v : Json) (ts : List Token) (stack : List Frame) (depth : Nat) :
    Option (Json × List Token) :=
  match stack with
  | [] => some (v, ts)
  | f :: stack => readValue ts .more (f.put v :: stack) depth

section Steps

variable (ts : List Token) (stack : List Frame) (d : Nat)

theorem readValue_openArr : readValue (.openArr :: ts) .value stack d =
    if d < maxDepth then readValue ts .firstItem (.arr [] :: stack) (d + 1) else none :=
  rfl

theorem readValue_openObj : readValue (.openObj :: ts) .value stack d =
    if d < maxDepth then readValue ts .firstKey (.obj [] "" :: stack) (d + 1) else none :=
  rfl

theorem readValue_closeArr_first (f : Frame) :
    readValue (.closeArr :: ts) .firstItem (f :: stack) d = resume (.arr []) ts stack (d - 1) := by
  cases stack <;> rfl

theorem readValue_closeObj_first (f : Frame) :
    readValue (.closeObj :: ts) .firstKey (f :: stack) d = resume (.obj []) ts stack (d - 1) := by
  cases stack <;> rfl

theorem readValue_closeArr (items : List Json) :
    readValue (.closeArr :: ts) .more (.arr items :: stack) d =
      resume (.arr items.reverse) ts stack (d - 1) := by
  cases stack <;> rfl

theorem readValue_closeObj (members : List (String × Json)) (key : String) :
    readValue (.closeObj :: ts) .more (.obj members key :: stack) d =
      resume (.obj members.reverse) ts stack (d - 1) := by
  cases stack <;> rfl

theorem readValue_nextItem (items : List Json) :
    readValue (.comma :: ts) .more (.arr items :: stack) d =
      readValue ts .value (.arr items :: stack) d :=
  rfl

theorem readValue_nextMember (members : List (String × Json)) (key : String) :
    readValue (.comma :: ts) .more (.obj members key :: stack) d =
      readValue ts (.key members) (.obj members key :: stack) d :=
  rfl

theorem readValue_key (members : List (String × Json)) (key k : String) :
    readValue (.str k :: .colon :: ts) (.key members) (.obj members key :: stack) d =
      readValue ts .value (.obj members k :: stack) d :=
  rfl

theorem readValue_firstKey (k : String) :
    readValue (.str k :: ts) .firstKey stack d = readValue (.str k :: ts) (.key []) stack d :=
  rfl

/-- A value may stand where the end of an array may. -/
theorem readValue_firstItem (v : Json) :
    readValue (v.tokens ++ ts) .firstItem stack d = readValue (v.tokens ++ ts) .value stack d := by
  cases v <;> rfl

end Steps

/-- The units of items begin with those of the first. -/
theorem exists_itemTokens (v : Json) (vs : List Json) :
    ∃ more, [Token.comma].intercalate (itemTokens (v :: vs)) = v.tokens ++ more := by
  cases vs with
  | nil => exact ⟨[], by simp [itemTokens]⟩
  | cons w ws =>
      exact ⟨_, by rw [itemTokens, itemTokens, List.intercalate_cons_cons, List.append_assoc]⟩

/-- The units of members begin with the first key. -/
theorem exists_memberTokens (k : String) (v : Json) (ms : List (String × Json)) :
    ∃ more, [Token.comma].intercalate (memberTokens ((k, v) :: ms)) = .str k :: more := by
  rcases ms with _ | ⟨⟨l, w⟩, ms⟩
  · exact ⟨_, by rw [memberTokens, memberTokens, List.intercalate_singleton]⟩
  · exact ⟨_, by rw [memberTokens, memberTokens, List.intercalate_cons_cons, List.append_assoc,
      List.cons_append]⟩

/-- There is room for the deeper of two if there is room for each. -/
theorem if_room_max {α : Type} (n a b : Nat) (x : Option α) :
    (if n + max a b ≤ maxDepth then x else none) =
      if n + a ≤ maxDepth then (if n + b ≤ maxDepth then x else none) else none := by
  have both : n + max a b ≤ maxDepth ↔ n + a ≤ maxDepth ∧ n + b ≤ maxDepth := by omega
  by_cases ha : n + a ≤ maxDepth <;> simp [both, ha]

mutual

/-- Reading the units of a value gives the value, unless it is nested too deeply. -/
theorem readValue_tokens (ts : List Token) (stack : List Frame) (d : Nat) (hd : d ≤ maxDepth) :
    ∀ v : Json, readValue (v.tokens ++ ts) .value stack d =
      if d + v.depth ≤ maxDepth then resume v ts stack d else none
  | .null | .bool _ | .num _ | .str _ => by
      cases stack <;> exact (if_pos hd).symm
  | .arr [] => by
      have units : (Json.arr []).tokens ++ ts = .openArr :: .closeArr :: ts := rfl
      have flat : (Json.arr []).depth = 1 := rfl
      rw [units, readValue_openArr, readValue_closeArr_first, flat]
      exact if_congr Nat.lt_iff_add_one_le rfl rfl
  | .arr (v :: vs) => by
      rw [tokens, depth, List.cons_append, List.append_assoc, readValue_openArr]
      split
      · next room =>
          have items := readValue_itemTokens ts stack d room v vs []
          obtain ⟨more, first⟩ := exists_itemTokens v vs
          rw [first, List.append_assoc] at items ⊢
          rw [List.singleton_append, readValue_firstItem, items, List.reverse_nil, List.nil_append,
            Nat.add_comm (itemsDepth _), Nat.add_assoc]
      · next full => rw [if_neg (by omega)]
  | .obj [] => by
      have units : (Json.obj []).tokens ++ ts = .openObj :: .closeObj :: ts := rfl
      have flat : (Json.obj []).depth = 1 := rfl
      rw [units, readValue_openObj, readValue_closeObj_first, flat]
      exact if_congr Nat.lt_iff_add_one_le rfl rfl
  | .obj ((k, v) :: ms) => by
      rw [tokens, depth, List.cons_append, List.append_assoc, readValue_openObj]
      split
      · next room =>
          have members := readValue_memberTokens ts stack d room k v ms [] ""
          obtain ⟨more, first⟩ := exists_memberTokens k v ms
          rw [first, List.cons_append] at members ⊢
          rw [List.singleton_append, readValue_firstKey, members, List.reverse_nil, List.nil_append,
            Nat.add_comm (membersDepth _), Nat.add_assoc]
      · next full => rw [if_neg (by omega)]
termination_by v => sizeOf v

theorem readValue_itemTokens (ts : List Token) (stack : List Frame) (d : Nat) (hd : d < maxDepth) :
    ∀ (v : Json) (vs done : List Json),
      readValue ([Token.comma].intercalate (itemTokens (v :: vs)) ++ .closeArr :: ts) .value
          (.arr done :: stack) (d + 1) =
        if d + 1 + itemsDepth (v :: vs) ≤ maxDepth then
          resume (.arr (done.reverse ++ v :: vs)) ts stack d
        else none
  | v, [], done => by
      have value := readValue_tokens (.closeArr :: ts) (.arr done :: stack) (d + 1) hd v
      simp only [itemTokens, List.intercalate_singleton, value, resume, Frame.put,
        readValue_closeArr, Nat.add_sub_cancel, List.reverse_cons, itemsDepth, Nat.max_zero]
  | v, w :: ws, done => by
      have value := readValue_tokens
        (.comma :: ([Token.comma].intercalate (itemTokens (w :: ws)) ++ .closeArr :: ts))
        (.arr done :: stack) (d + 1) hd v
      have others := readValue_itemTokens ts stack d hd w ws (v :: done)
      rw [itemTokens, itemTokens, List.intercalate_cons_cons, ← itemTokens, List.append_assoc,
        List.append_assoc, List.singleton_append, value, resume, Frame.put, readValue_nextItem,
        others, List.reverse_cons, List.append_assoc, List.singleton_append,
        itemsDepth.eq_2 v, if_room_max]
termination_by v vs => sizeOf (v :: vs)

theorem readValue_memberTokens (ts : List Token) (stack : List Frame) (d : Nat) (hd : d < maxDepth) :
    ∀ (k : String) (v : Json) (ms done : List (String × Json)) (key : String),
      readValue ([Token.comma].intercalate (memberTokens ((k, v) :: ms)) ++ .closeObj :: ts)
          (.key done) (.obj done key :: stack) (d + 1) =
        if d + 1 + membersDepth ((k, v) :: ms) ≤ maxDepth then
          resume (.obj (done.reverse ++ (k, v) :: ms)) ts stack d
        else none
  | k, v, [], done, key => by
      have value := readValue_tokens (.closeObj :: ts) (.obj done k :: stack) (d + 1) hd v
      simp only [memberTokens, List.intercalate_singleton, List.cons_append, readValue_key, value,
        resume, Frame.put, readValue_closeObj, Nat.add_sub_cancel, List.reverse_cons, membersDepth,
        Nat.max_zero]
  | k, v, (l, w) :: ms, done, key => by
      have value := readValue_tokens
        (.comma :: ([Token.comma].intercalate (memberTokens ((l, w) :: ms)) ++ .closeObj :: ts))
        (.obj done k :: stack) (d + 1) hd v
      have others := readValue_memberTokens ts stack d hd l w ms ((k, v) :: done) k
      rw [memberTokens, memberTokens, List.intercalate_cons_cons, ← memberTokens, List.append_assoc,
        List.append_assoc, List.singleton_append, List.cons_append, List.cons_append, readValue_key,
        value, resume, Frame.put, readValue_nextMember, others, List.reverse_cons,
        List.append_assoc, List.singleton_append, membersDepth.eq_2 k v, if_room_max]
termination_by _ v ms => sizeOf v + sizeOf ms

end

/-! ### The whole text -/

/-- **Written values read back.**  A text of the units of a value reads as the value, unless it is
nested too deeply. -/
theorem readValue_of_lexes {text : String} {v : Json} (h : Lexes text.toList v.tokens) :
    readValue (lex text.toList) .value [] 0 =
      if v.depth ≤ maxDepth then some (v, []) else none := by
  have read := readValue_tokens [] [] 0 (Nat.zero_le _) v
  rw [List.append_nil, Nat.zero_add] at read
  rw [h.eq, read]
  rfl

theorem parseFirst?_of_lexes {text : String} {v : Json} (h : Lexes text.toList v.tokens) :
    parseFirst? text = if v.depth ≤ maxDepth then some v else none := by
  rw [parseFirst?, readValue_of_lexes h]
  split <;> rfl

theorem parse?_of_lexes {text : String} {v : Json} (h : Lexes text.toList v.tokens) :
    parse? text = if v.depth ≤ maxDepth then some v else none := by
  rw [parse?, readValue_of_lexes h]
  by_cases room : v.depth ≤ maxDepth
  · rw [if_pos room, if_pos room]
  · rw [if_neg room, if_neg room]

/-- The compact text of a value that is not nested too deeply reads as the value. -/
theorem parseFirst?_compact {v : Json} (h : v.Numerals) (room : v.depth ≤ maxDepth) :
    parseFirst? v.compact = some v :=
  (parseFirst?_of_lexes (lexes_render true v h)).trans (if_pos room)

theorem parse?_compact {v : Json} (h : v.Numerals) (room : v.depth ≤ maxDepth) :
    parse? v.compact = some v :=
  (parse?_of_lexes (lexes_render true v h)).trans (if_pos room)

end Json

end SolidityLint
