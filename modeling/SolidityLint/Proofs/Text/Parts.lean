import SolidityLint.Number.Sum
import SolidityLint.Text.Space

/-!
# Text — lines, words and marks

What the functions that take texts apart find in them.

* `getElem?_lines`: the lines of a text stand in it, in order, between its newlines.
* `words_append`: white space parts words; `letters_words`: the words have all letters of the text.
* `cutBefore_append_of_stands`, `cutBefore_append_of_absent`: a mark that stands in a front is
  found there; else it is looked for behind.
-/

namespace SolidityLint

/-! ### Between separators -/

theorem splitAtChar_eq_splitOn (sep : Char) (cs : List Char) :
    splitAtChar sep cs = cs.splitOn sep := by
  have split (cs cur : List Char) :
      splitAtChar.go sep cs cur = List.splitOnPPrepend (· == sep) cs cur := by
    induction cs generalizing cur with
    | nil => rfl
    | cons c cs ih => rw [splitAtChar.go, List.splitOnPPrepend, ih, ih]
  exact split cs []

theorem not_mem_of_mem_splitAtChar {sep : Char} {cs part : List Char}
    (h : part ∈ splitAtChar sep cs) : sep ∉ part := by
  have parts (cs cur : List Char) (clear : sep ∉ cur) :
      ∀ part ∈ splitAtChar.go sep cs cur, sep ∉ part := by
    induction cs generalizing cur with
    | nil => simpa [splitAtChar.go] using clear
    | cons c cs ih =>
        rw [splitAtChar.go]
        split
        · exact List.forall_mem_cons.mpr ⟨by simpa using clear, ih [] (by simp)⟩
        · next other =>
            have other : sep ≠ c := fun same => other (by simp [same])
            exact ih (c :: cur) (by simp [other, clear])
  exact parts cs [] (by simp) part h

theorem length_splitAtChar (sep : Char) (cs : List Char) :
    (splitAtChar sep cs).length = cs.count sep + 1 := by
  rw [splitAtChar_eq_splitOn]
  induction cs with
  | nil => rfl
  | cons c cs ih =>
      rw [List.splitOn_cons_eq_if_modifyHead, List.count_cons]
      split
      · rw [List.length_cons, ih]
      · rw [List.length_modifyHead, ih]

/-- What stands between separators stands in the text. -/
theorem isInfix_of_mem_splitAtChar {sep : Char} {cs part : List Char}
    (h : part ∈ splitAtChar sep cs) : part <:+: cs := by
  rw [splitAtChar_eq_splitOn] at h
  have among : part ∈ (cs.splitOn sep).intersperse [sep] := by
    obtain ⟨i, inside, rfl⟩ := List.getElem_of_mem h
    rw [List.getElem_eq_getElem_intersperse_two_mul]
    exact List.getElem_mem _
  have whole : ((cs.splitOn sep).intersperse [sep]).flatten = cs := List.intercalate_splitOn sep
  exact whole ▸ List.infix_of_mem_flatten among

/-! ### Lines -/

/-- A line of a text: its number, counted from one, and all that follows it in the text. -/
structure LineAt (text : List Char) (n : Nat) (line behind : List Char) : Prop where
  clear : '\n' ∉ line
  ends : behind = [] ∨ ∃ after, behind = '\n' :: after
  place : ∃ front, text = front ++ (line ++ behind) ∧ n = front.count '\n' + 1 ∧
    (front = [] ∨ ∃ before, front = before ++ ['\n'])

/-- With a line put in front, the lines of a text come one later. -/
theorem LineAt.later {first rest line behind : List Char} {n : Nat} (h : LineAt rest n line behind)
    (clear : '\n' ∉ first) : LineAt (first ++ '\n' :: rest) (n + 1) line behind := by
  obtain ⟨hline, ends, front, rfl, rfl, starts⟩ := h
  refine ⟨hline, ends, first ++ '\n' :: front, by simp, ?_, .inr ?_⟩
  · rw [List.count_append, List.count_cons_self, List.count_eq_zero_of_not_mem clear]
    omega
  · obtain rfl | ⟨before, rfl⟩ := starts
    · exact ⟨first, rfl⟩
    · exact ⟨first ++ '\n' :: before, by simp⟩

theorem exists_lineAt {text line : List Char} {i : Nat}
    (h : (splitAtChar '\n' text)[i]? = some line) : ∃ behind, LineAt text (i + 1) line behind := by
  rw [splitAtChar_eq_splitOn] at h
  by_cases more : '\n' ∈ text
  · obtain ⟨first, rest, rfl, clear⟩ := List.eq_append_cons_of_mem more
    rw [List.splitOn_append_cons_self_of_not_mem clear] at h
    cases i with
    | zero =>
        obtain rfl := Option.some.inj h
        exact ⟨'\n' :: rest, clear, .inr ⟨rest, rfl⟩, [], rfl, rfl, .inl rfl⟩
    | succ i =>
        rw [List.getElem?_cons_succ, ← splitAtChar_eq_splitOn] at h
        obtain ⟨behind, at_rest⟩ := exists_lineAt h
        exact ⟨behind, at_rest.later clear⟩
  · rw [List.splitOn_eq_singleton more, List.getElem?_singleton] at h
    obtain ⟨rfl, rfl⟩ : i = 0 ∧ text = line := by simpa using h
    exact ⟨[], more, .inl rfl, [], by simp, rfl, .inl rfl⟩
termination_by i

theorem getElem?_lines_of_lineAt {text line behind : List Char} {i : Nat}
    (h : LineAt text (i + 1) line behind) : (splitAtChar '\n' text)[i]? = some line := by
  obtain ⟨clear, ends, front, rfl, count, starts⟩ := h
  have first : (splitAtChar '\n' (line ++ behind))[0]? = some line := by
    rw [splitAtChar_eq_splitOn]
    obtain rfl | ⟨after, rfl⟩ := ends
    · rw [List.append_nil, List.splitOn_eq_singleton clear]
      rfl
    · rw [List.splitOn_append_cons_self_of_not_mem clear]
      rfl
  obtain rfl | ⟨before, rfl⟩ := starts
  · obtain rfl : i = 0 := by simpa using count
    exact first
  · have length := length_splitAtChar '\n' before
    rw [List.count_append, List.count_singleton_self] at count
    rw [List.append_assoc, List.singleton_append, splitAtChar_eq_splitOn,
      List.splitOn_append_cons_self, ← splitAtChar_eq_splitOn, ← splitAtChar_eq_splitOn,
      List.getElem?_append_right (by omega), show i - _ = 0 by omega, first]

/-- **The lines of a text** stand in it, in order, between its newlines. -/
theorem getElem?_lines {text line : List Char} {i : Nat} :
    (splitAtChar '\n' text)[i]? = some line ↔ ∃ behind, LineAt text (i + 1) line behind :=
  ⟨exists_lineAt, fun ⟨_, h⟩ => getElem?_lines_of_lineAt h⟩

/-! ### Words -/

theorem wordsFrom_append {c : Char} (hc : isSpace c) (before after word : List Char) :
    wordsFrom (before ++ c :: after) word = wordsFrom before word ++ wordsFrom after [] := by
  induction before generalizing word with
  | nil => cases word <;> simp [wordsFrom, hc]
  | cons b before ih =>
      rw [List.cons_append, wordsFrom, wordsFrom, ih, ih]
      split
      · split
        · rfl
        · rw [List.cons_append]
      · rfl

/-- White space parts words. -/
theorem words_append {c : Char} (hc : isSpace c) (before after : List Char) :
    words (before ++ c :: after) = words before ++ words after := by
  rw [words, wordsFrom_append hc, List.map_append]
  rfl

theorem words_cons_space {c : Char} (hc : isSpace c) (cs : List Char) :
    words (c :: cs) = words cs := words_append hc [] cs

theorem letters_wordsFrom (cs word : List Char) :
    sumOf ((wordsFrom cs word).map List.length) = word.length + cs.countP fun c => !isSpace c := by
  induction cs generalizing word with
  | nil => cases word <;> simp [wordsFrom, sumOf]
  | cons c cs ih =>
      rw [wordsFrom, List.countP_cons]
      split
      · rename_i space
        split
        · rename_i empty
          simp [ih, space, List.isEmpty_iff.mp empty]
        · simp [sumOf, ih, space]
      · rename_i letter
        simp only [ih, letter, List.length_cons]
        simp
        omega

/-- The words of a text have all its letters. -/
theorem letters_words (cs : List Char) :
    sumOf ((words cs).map fun w => w.toList.length) = cs.countP fun c => !isSpace c := by
  have letters := letters_wordsFrom cs []
  rw [List.length_nil, Nat.zero_add] at letters
  rw [← letters, words, List.map_map]
  simp [Function.comp_def]

/-! ### Up to a mark -/

theorem cutBefore_of_absent {mark cs : List Char} (h : ¬ mark <:+: cs) :
    cutBefore mark cs = cs := by
  induction cs with
  | nil => rfl
  | cons c cs ih =>
      rw [List.infix_cons_iff, not_or] at h
      rw [cutBefore, if_neg fun front => h.1 (List.isPrefixOf_iff_prefix.mp front), ih h.2]

theorem exists_of_infix {mark cs : List Char} (solid : mark ≠ []) (h : mark <:+: cs) :
    ∃ after, cs = cutBefore mark cs ++ (mark ++ after) := by
  induction cs with
  | nil => exact absurd (List.infix_nil.mp h) solid
  | cons c cs ih =>
      rw [cutBefore]
      split
      · rename_i front
        obtain ⟨after, eq⟩ := List.isPrefixOf_iff_prefix.mp front
        exact ⟨after, eq.symm⟩
      · rename_i other
        have later := (List.infix_cons_iff.mp h).resolve_left fun front =>
          other (List.isPrefixOf_iff_prefix.mpr front)
        obtain ⟨after, eq⟩ := ih later
        exact ⟨after, by rw [List.cons_append, ← eq]⟩

theorem cutBefore_append_of_not_mem {a : Char} {mark front : List Char} (h : a ∉ front)
    (cs : List Char) : cutBefore (a :: mark) (front ++ cs) = front ++ cutBefore (a :: mark) cs := by
  induction front with
  | nil => rfl
  | cons c front ih =>
      rw [List.mem_cons, not_or] at h
      rw [List.cons_append, cutBefore, List.isPrefixOf_cons_cons, beq_eq_false_iff_ne.mpr h.1,
        Bool.false_and, if_neg Bool.false_ne_true, ih h.2, List.cons_append]

/-- A mark that stands in the front is found there. -/
theorem cutBefore_append_of_stands {mark front : List Char} (h : mark <:+: front)
    (cs : List Char) : cutBefore mark (front ++ cs) = cutBefore mark front := by
  induction front with
  | nil =>
      obtain rfl := List.infix_nil.mp h
      cases cs <;> rfl
  | cons c front ih =>
      rw [List.cons_append, cutBefore, cutBefore, ← List.cons_append]
      by_cases here : mark.isPrefixOf (c :: front)
      · rw [if_pos here, if_pos]
        rw [List.isPrefixOf_iff_prefix] at here ⊢
        exact here.trans (List.prefix_append _ _)
      · have later := (List.infix_cons_iff.mp h).resolve_left fun front =>
          here (List.isPrefixOf_iff_prefix.mpr front)
        rw [if_neg here, if_neg, ih later]
        -- the mark is not longer than the front, so it cannot reach past it
        refine fun reaches => here (List.isPrefixOf_iff_prefix.mpr ?_)
        exact List.prefix_of_prefix_length_le (List.isPrefixOf_iff_prefix.mp reaches)
          (List.prefix_append _ _) (Nat.le_succ_of_le later.length_le)

/-- A mark of two characters that does not stand in the front, and that what follows does not
complete, is looked for behind it. -/
theorem cutBefore_append_of_absent {a b : Char} {front cs : List Char}
    (h : ¬ [a, b] <:+: front) (apart : cs.head? ≠ some b) :
    cutBefore [a, b] (front ++ cs) = front ++ cutBefore [a, b] cs := by
  induction front with
  | nil => rfl
  | cons c front ih =>
      rw [List.infix_cons_iff, not_or] at h
      rw [List.cons_append, cutBefore, if_neg, ih h.2, List.cons_append]
      intro here
      cases front with
      | nil =>
          cases cs with
          | nil => simp at here
          | cons d cs => simp_all
      | cons d front => exact h.1 (by simpa using here)

/-- All words of a text stand in front of a mark exactly when the mark does not stand in it. -/
theorem words_cutBefore_eq_iff {mark cs : List Char} (solid : mark ≠ [])
    (letters : ∀ c ∈ mark, !isSpace c) :
    words (cutBefore mark cs) = words cs ↔ ¬ mark <:+: cs := by
  refine ⟨fun same stands => ?_, fun absent => by rw [cutBefore_of_absent absent]⟩
  obtain ⟨after, split⟩ := exists_of_infix solid stands
  have count := congrArg (fun ws : List String => sumOf (ws.map fun w => w.toList.length)) same
  simp only [letters_words] at count
  rw [congrArg (List.countP _) split, List.countP_append, List.countP_append,
    List.countP_eq_length.mpr letters] at count
  have positive := List.length_pos_iff.mpr solid
  omega

end SolidityLint
