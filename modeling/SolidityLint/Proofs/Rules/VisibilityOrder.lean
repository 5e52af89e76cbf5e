import SolidityLint.Proofs.Source.WordSpans
import SolidityLint.Rules.Order

/-!
# Rules — visibility behind a modifier

The rule about the order of a function's header keeps the least offset of a modifier or a mutability
keyword so far, while it goes through the words of the header.  The words stand one behind the other
(`pairwise_headerWords`), so a mutability keyword that stands before a word has been met when the
word is judged, and the least offset tells whether anything stands before (`StartsBefore`).  The rule
runs as a reading that finds the same on every file (`visibilityModifierOrder?_eq`).

* `startsBefore_earlier`: what one more offset changes.
* `lateVisibilities_eq`: what a run over the words finds.
* `visibilities_reported_when_late`: the findings of a file.
-/

namespace SolidityLint

namespace Rules

/-- The least offset so far is one, and before the offset. -/
def StartsBefore (first offset : Int64) : Prop := 0 ≤ first ∧ first < offset

instance (first offset : Int64) : Decidable (StartsBefore first offset) :=
  inferInstanceAs (Decidable (_ ∧ _))

/-- Does the word say what a function does with the state, or that it takes money? -/
def isMutability (w : Word) : Bool := ["pure", "view", "payable"].contains w.text

/-- One more offset is before what it is before itself. -/
theorem startsBefore_earlier {first a : Int64} (ha : 0 ≤ a) (offset : Int64) :
    StartsBefore (earlier first a) offset ↔ StartsBefore first offset ∨ a < offset := by
  simp only [StartsBefore, earlier, Bool.or_eq_true, decide_eq_true_eq, Int64.le_iff_toInt_le,
    Int64.lt_iff_toInt_lt] at ha ⊢
  split <;> omega

/-- The least offset of some modifiers. -/
theorem startsBefore_foldl {modifiers : List Node} (valid : ∀ m ∈ modifiers, 0 ≤ m.src.offset)
    (first offset : Int64) :
    StartsBefore (modifiers.foldl (fun first m => earlier first m.src.offset) first) offset ↔
      StartsBefore first offset ∨ ∃ m ∈ modifiers, m.src.offset < offset := by
  induction modifiers generalizing first with
  | nil => simp
  | cons m modifiers ih =>
      rw [List.foldl_cons, ih (fun m' hm => valid m' (List.mem_cons_of_mem m hm)),
        startsBefore_earlier (valid m List.mem_cons_self), or_assoc]
      simp

/-- The finding about a visibility keyword. -/
def lateFinding (f : SourceFile) (w : Word) : Finding :=
  ⟨f.range w.span, "Visibility modifier must be first in list of modifiers"⟩

theorem isMutability_not_isVisibility {w : Word} (h : isMutability w = true) :
    isVisibility w.text = false := by
  simp only [isMutability, List.contains_iff_mem, List.mem_cons, List.not_mem_nil, or_false] at h
  rcases h with h | h | h <;> rw [h] <;> decide

/-- Something stands before an offset: at the least offset so far, or a mutability keyword among the
words that are still to come. -/
def ComesBefore (first : Int64) (ws : List Word) (offset : Int64) : Prop :=
  StartsBefore first offset ∨ ∃ v ∈ ws, isMutability v ∧ v.span.offset < offset

instance (first : Int64) (ws : List Word) (offset : Int64) :
    Decidable (ComesBefore first ws offset) := inferInstanceAs (Decidable (_ ∨ _))

/-- A mutability keyword can be counted among the offsets before it is met. -/
theorem comesBefore_earlier (first : Int64) {w : Word} (ws : List Word) (hw : 0 ≤ w.span.offset)
    (keyword : isMutability w) (offset : Int64) :
    ComesBefore (earlier first w.span.offset) ws offset ↔ ComesBefore first (w :: ws) offset := by
  simp only [ComesBefore, startsBefore_earlier hw, List.exists_mem_cons_iff, keyword, true_and,
    or_assoc]

theorem comesBefore_cons (first : Int64) {w : Word} (ws : List Word) (other : ¬ isMutability w)
    (offset : Int64) : ComesBefore first (w :: ws) offset ↔ ComesBefore first ws offset := by
  have none : ¬ (isMutability w ∧ w.span.offset < offset) := fun h => other h.1
  rw [ComesBefore, List.exists_mem_cons_iff, or_iff_right none, ComesBefore]

/-- **A run over words** that stand one behind the other finds the visibility keywords that
something stands before. -/
theorem lateVisibilities_eq (f : SourceFile) {ws : List Word}
    (order : ws.Pairwise fun v w => v.span.offset < w.span.offset)
    (valid : ∀ w ∈ ws, 0 ≤ w.span.offset) (first : Int64) :
    lateVisibilities f ws first =
      (ws.filter fun w => isVisibility w.text && ComesBefore first ws w.span.offset).map
        (lateFinding f) := by
  induction ws generalizing first with
  | nil => rfl
  | cons w ws ih =>
      obtain ⟨ahead, order⟩ := List.pairwise_cons.mp order
      have rest := ih order fun v hv => valid v (List.mem_cons_of_mem w hv)
      rw [lateVisibilities, List.filter_cons]
      split
      · rename_i keyword
        have counted := comesBefore_earlier first ws (valid w List.mem_cons_self) keyword
        simp only [isMutability_not_isVisibility keyword, Bool.false_and, Bool.false_eq_true,
          if_false, rest, counted]
      · rename_i other
        have still := comesBefore_cons first ws other
        -- No word to come stands before this one.
        have here : ComesBefore first ws w.span.offset ↔ StartsBefore first w.span.offset :=
          or_iff_left fun ⟨v, hv, _, before⟩ =>
            absurd (ahead v hv) (Int64.lt_asymm before)
        have judged : (isVisibility w.text && decide (0 ≤ first) && decide (w.span.offset > first)) =
            (isVisibility w.text && decide (ComesBefore first ws w.span.offset)) := by
          rw [Bool.and_assoc, ← Bool.decide_and, decide_eq_decide.mpr here]
          rfl
        simp only [judged, still]
        split
        · rw [List.map_cons, rest]
          rfl
        · exact rest first

/-! ### The headers of a file -/

/-- A modifier that stands in the source, or a mutability keyword of the header, starts before the
offset. -/
def BehindModifier (f : SourceFile) (n : Node) (offset : Int64) : Prop :=
  (∃ m ∈ n.list "modifiers", m.src.isValid ∧ m.src.offset < offset) ∨
    ∃ v ∈ f.headerWords n, v.text ∈ ["pure", "view", "payable"] ∧ v.span.offset < offset

instance (f : SourceFile) (n : Node) (offset : Int64) : Decidable (BehindModifier f n offset) :=
  inferInstanceAs (Decidable (_ ∨ _))

/-- The visibility keywords of a header that stand behind a modifier or a mutability keyword. -/
def lateWords (f : SourceFile) (n : Node) : List Word :=
  (f.headerWords n).filter fun w => isVisibility w.text && BehindModifier f n w.span.offset

theorem zero_le_of_isValid {s : Span} (h : s.isValid) : 0 ≤ s.offset := by
  simp only [Span.isValid, Bool.and_eq_true, decide_eq_true_eq] at h
  exact h.1

theorem behindModifier_iff (f : SourceFile) (n : Node) (offset : Int64) :
    BehindModifier f n offset ↔
      ComesBefore (((n.list "modifiers").filter (·.src.isValid)).foldl
        (fun first m => earlier first m.src.offset) (-1)) (f.headerWords n) offset := by
  have valid : ∀ m ∈ (n.list "modifiers").filter (·.src.isValid), 0 ≤ m.src.offset :=
    fun m hm => zero_le_of_isValid (List.mem_filter.mp hm).2
  have none : ¬ StartsBefore (-1) offset := fun h => absurd h.1 (by decide)
  rw [ComesBefore, startsBefore_foldl valid, or_iff_right none]
  simp only [BehindModifier, isMutability, List.mem_filter, and_assoc, List.contains_iff_mem]

/-- **Visibility behind a modifier.**  The rule reports, for each function definition of the file in
turn, exactly the visibility keywords of its header that start behind a modifier that stands in the
source or behind a mutability keyword of the header: each once, at its own range, in the order in
which they stand. -/
theorem visibilities_reported_when_late (f : SourceFile) :
    visibilityModifierOrder f =
      ((functions f).flatMap fun c => (lateWords f c.node).map fun w =>
        ⟨f.range w.span, "Visibility modifier must be first in list of modifiers"⟩) ∧
    ∀ n : Node, (lateWords f n).Pairwise fun v w => v.span.offset < w.span.offset := by
  refine ⟨congrArg (List.flatMap · (functions f)) (funext fun c => ?_), fun n => ?_⟩
  · have order := (SourceFile.pairwise_headerWords f c.node).imp And.left
    have valid : ∀ w ∈ f.headerWords c.node, 0 ≤ w.span.offset := by
      intro w hw
      obtain ⟨word, rfl, header, -⟩ := SourceFile.exists_of_mem_headerWords hw
      exact Int64.le_trans (zero_le_of_isValid header) (SourceFile.inside_of_mem_headerWords hw).2.1
    rw [lateVisibilities_eq f order valid, lateWords]
    simp only [behindModifier_iff]
    rfl
  · exact ((SourceFile.pairwise_headerWords f n).imp And.left).filter _

example : (lateWords (functionWith " public view internal ").1
    (functionWith " public view internal ").2).map Word.text = ["internal"] := by decide +kernel

end Rules

end SolidityLint
