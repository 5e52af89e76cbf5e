import SolidityLint.Proofs.Lint.Directives

/-!
# Lint — which findings comments silence

One pass over the suppression comments of a text answers whether a rule is silenced on a line: a
comment for the line decides at once, and of the comments that switch the rule off or on from their
line, the last up to the line counts.

* `Silenced` says the same without the pass.
* `silenced_cons`: what a comment in front of others that stand on later lines adds.
* `pass_iff`, from it by induction: the pass over comments in the order of their lines.

That the comments of a text are in this order is `pairwise_directivesOf`.
-/

namespace SolidityLint

namespace Directive

/-- The comment is for this one line. -/
def IsFor (d : Directive) (line : Int) : Prop :=
  d.kind = .disableLine ∧ (d.line : Int) = line ∨
    d.kind = .disableNextLine ∧ (d.line : Int) + 1 = line

/-- The comment switches rules off or on, from its line on, and the line is not above it. -/
def Switches (d : Directive) (line : Int) : Prop :=
  (d.kind = .disable ∨ d.kind = .enable) ∧ (d.line : Int) ≤ line

instance (d : Directive) (line : Int) : Decidable (d.IsFor line) :=
  inferInstanceAs (Decidable (_ ∨ _))

instance (d : Directive) (line : Int) : Decidable (d.Switches line) :=
  inferInstanceAs (Decidable (_ ∧ _))

end Directive

/-- Findings of the rule on the line are silenced: by a comment for the line, or as the last switch
up to the line is off. -/
inductive Silenced (ds : List Directive) (ruleId : String) (line : Int) : Prop where
  | line (d : Directive) (listed : d ∈ ds) (applies : d.appliesTo ruleId) (isFor : d.IsFor line)
  | region (d : Directive) (listed : d ∈ ds) (applies : d.appliesTo ruleId)
      (off : d.kind = .disable) (switches : d.Switches line)
      (last : ∀ e ∈ ds, e.appliesTo ruleId → e.Switches line → e.line ≤ d.line)

/-! ### The pass over the comments -/

variable {ds : List Directive} {d : Directive} {ruleId : String} {line : Int}

/-- A comment in front of others that stand on later lines silences the line itself, or switches it
off when no other switches it. -/
theorem silenced_cons (sorted : (d :: ds).Pairwise (·.line < ·.line)) :
    Silenced (d :: ds) ruleId line ↔
      Silenced ds ruleId line ∨ d.appliesTo ruleId ∧
        (d.IsFor line ∨ d.kind = .disable ∧ d.Switches line ∧
          ∀ e ∈ ds, e.appliesTo ruleId → ¬ e.Switches line) := by
  have below := (List.pairwise_cons.mp sorted).1
  -- The others stand below the first, so that is the last switch only if none of them is one.
  constructor
  · rintro (⟨e, listed, applies, isFor⟩ | ⟨e, listed, applies, off, switches, last⟩)
    · obtain rfl | listed := List.mem_cons.mp listed
      · exact .inr ⟨applies, .inl isFor⟩
      · exact .inl (.line e listed applies isFor)
    · obtain rfl | listed := List.mem_cons.mp listed
      · refine .inr ⟨applies, .inr ⟨off, switches, fun f hf applies' switches' => ?_⟩⟩
        exact Nat.not_le.mpr (below f hf) (last f (List.mem_cons_of_mem _ hf) applies' switches')
      · exact .inl (.region e listed applies off switches fun f hf =>
          last f (List.mem_cons_of_mem _ hf))
  · rintro ((⟨e, listed, applies, isFor⟩ | ⟨e, listed, applies, off, switches, last⟩) |
      ⟨applies, isFor | ⟨off, switches, alone⟩⟩)
    · exact .line e (List.mem_cons_of_mem _ listed) applies isFor
    · refine .region e (List.mem_cons_of_mem _ listed) applies off switches ?_
      exact List.forall_mem_cons.mpr ⟨fun _ _ => Nat.le_of_lt (below e listed), last⟩
    · exact .line d List.mem_cons_self applies isFor
    · refine .region d List.mem_cons_self applies off switches ?_
      exact List.forall_mem_cons.mpr ⟨fun _ _ => Nat.le_refl _, fun f hf applies' switches' =>
        absurd switches' (alone f hf applies')⟩

/-- One step of the pass. -/
theorem pass_cons (d : Directive) (ds : List Directive) (ruleId : String) (line : Int)
    (off : Bool) :
    suppressed.go ruleId line (d :: ds) off =
      if d.appliesTo ruleId then
        if d.IsFor line then true
        else suppressed.go ruleId line ds (if d.Switches line then d.kind = .disable else off)
      else suppressed.go ruleId line ds off := by
  rw [suppressed.go]
  cases d.appliesTo ruleId with
  | false => rfl
  | true =>
      obtain ⟨kind, n, ruleIds⟩ := d
      cases kind <;> simp [Directive.IsFor, Directive.Switches]

/-- The pass over comments in the order of their lines, from a state in which the rule is off or
not. -/
theorem pass_iff (sorted : ds.Pairwise (·.line < ·.line)) (off : Bool) :
    suppressed.go ruleId line ds off = true ↔
      Silenced ds ruleId line ∨
        off = true ∧ ∀ e ∈ ds, e.appliesTo ruleId → ¬ e.Switches line := by
  induction ds generalizing off with
  | nil =>
      have nothing : ¬ Silenced [] ruleId line := by
        rintro (⟨_, listed, _⟩ | ⟨_, listed, _⟩) <;> cases listed
      simp [suppressed.go, nothing]
  | cons d ds ih =>
      have sorted' := (List.pairwise_cons.mp sorted).2
      rw [pass_cons, silenced_cons sorted, List.forall_mem_cons]
      by_cases applies : d.appliesTo ruleId
      · rw [if_pos applies]
        by_cases isFor : d.IsFor line
        · simp [isFor, applies]
        · rw [if_neg isFor, ih sorted']
          by_cases switches : d.Switches line
          · simp [applies, isFor, switches]
          · simp [applies, isFor, switches]
      · rw [if_neg applies, ih sorted']
        simp [applies]

theorem suppressed_iff (text : String) (ruleId : String) (line : Int) :
    suppressed (directivesOf text) ruleId line = true ↔
      Silenced (directivesOf text) ruleId line := by
  rw [suppressed, pass_iff (pairwise_directivesOf text)]
  simp

instance (text : String) (ruleId : String) (line : Int) :
    Decidable (Silenced (directivesOf text) ruleId line) :=
  decidable_of_iff _ (suppressed_iff text ruleId line)

/-! ### Findings -/

/-- A comment of the text silences the finding, on the line on which it starts. -/
abbrev Diagnostic.SilencedIn (text : String) (d : Diagnostic) : Prop :=
  Silenced (directivesOf text) d.ruleId d.range.start.line.toInt

theorem unsuppressed_eq_filter (text : String) (found : List Diagnostic) :
    unsuppressed (directivesOf text) found = found.filter (¬ ·.SilencedIn text) := by
  refine List.filter_congr fun d _ => ?_
  simp [Diagnostic.SilencedIn, ← suppressed_iff]

/-- **Suppression.**  A rule is silenced on a line of a text exactly when one of its comments is for
the line, or the last that switches the rule up to the line is off.  The findings that are kept are
those that are not silenced where they start, in order; the others are counted; and of the findings
that are kept all are kept again. -/
theorem findings_silenced_by_comments (text : String) :
    (∀ ruleId line, suppressed (directivesOf text) ruleId line = true ↔
      Silenced (directivesOf text) ruleId line) ∧
    ∀ found : List Diagnostic,
      unsuppressed (directivesOf text) found = found.filter (¬ ·.SilencedIn text) ∧
      found.length - (unsuppressed (directivesOf text) found).length =
        found.countP (·.SilencedIn text) ∧
      unsuppressed (directivesOf text) (unsuppressed (directivesOf text) found) =
        unsuppressed (directivesOf text) found := by
  refine ⟨suppressed_iff text, fun found => ⟨unsuppressed_eq_filter text found, ?_, ?_⟩⟩
  · have all := List.length_eq_countP_add_countP (·.SilencedIn text) (l := found)
    simp only [decide_eq_true_eq] at all
    rw [unsuppressed_eq_filter, ← List.countP_eq_length_filter, all, Nat.add_sub_cancel]
  · rw [unsuppressed, unsuppressed, List.filter_filter]
    simp only [Bool.and_self]

end SolidityLint
