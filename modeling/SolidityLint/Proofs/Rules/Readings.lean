import Mathlib
import SolidityLint.Rules.Catalog

/-!
# Rules — readings that never miss

A tree may lack what a rule looks for: a function its body, a call what is called, a header its
words.  A rule that reads such a part is written as a reading, which breaks if it reads a part that
is missing.  No built-in rule does so but the one about ordering: each asks first, so a reading
finds what the rule lists on every file.

* `headerBounds?_eq`, `headerWords?_eq`: the parts of a declaration around its header.
* `functionMaxLines?_eq` and its like: one for each rule that is a reading.
-/

namespace SolidityLint

/-! ### Lists of readings -/

section

variable {α β : Type} {xs : List α}

/-- Readings that all have a result give the list of the results. -/
theorem filterMapM_eq_some {read? : α → Option (Option β)} {read : α → Option β}
    (h : ∀ x ∈ xs, read? x = some (read x)) : xs.filterMapM read? = some (xs.filterMap read) := by
  induction xs with
  | nil => rfl
  | cons x xs ih =>
      obtain ⟨head, tail⟩ := List.forall_mem_cons.mp h
      rw [List.filterMapM_cons, head, ih tail, List.filterMap_cons]
      cases read x <;> rfl

theorem flatMapM_eq_some {read? : α → Option (List β)} {read : α → List β}
    (h : ∀ x ∈ xs, read? x = some (read x)) : xs.flatMapM read? = some (xs.flatMap read) := by
  induction xs with
  | nil => rfl
  | cons x xs ih =>
      obtain ⟨head, tail⟩ := List.forall_mem_cons.mp h
      rw [List.flatMapM_cons, head, ih tail]
      rfl

end

/-! ### Headers -/

namespace SourceFile

/-- A part is read behind the question whether it is there. -/
theorem boundBy?_eq (part : Option Node) (place : Span → Int64) (bound : Int64) :
    boundBy? part place bound = some (boundBy part place bound) := by
  cases part <;> rfl

/-- **The parts around a header.** -/
theorem headerBounds?_eq (n : Node) : headerBounds? n = some (headerBounds n) := by
  have either {α : Type} (p : Prop) [Decidable p] (a b : α) :
      (if p then some a else some b) = some (if p then a else b) := (apply_ite some p a b).symm
  simp only [headerBounds?, boundBy?_eq, bind, Option.bind_some, pure, either]
  rfl

theorem headerSpan?_eq (n : Node) : headerSpan? n = some (headerSpan n) := by
  rw [headerSpan?, headerBounds?_eq]
  rfl

theorem headerWords?_eq (f : SourceFile) (n : Node) : f.headerWords? n = some (f.headerWords n) := by
  rw [headerWords?, headerSpan?_eq]
  rfl

theorem explicitVisibility?_eq (f : SourceFile) (n : Node) :
    f.explicitVisibility? n = some (f.explicitVisibility n) := by
  rw [explicitVisibility?, headerWords?_eq]
  rfl

end SourceFile

namespace Rules

open SourceFile

/-! ### Best practices -/

theorem functionMaxLines?_eq (max : Int64) (f : SourceFile) :
    functionMaxLines? max f = some (functionMaxLines max f) := by
  refine filterMapM_eq_some fun c _ => ?_
  cases c.node.field? "body" <;> rfl

theorem noConsole?_eq (f : SourceFile) : noConsole? f = some (noConsole f) := by
  refine filterMapM_eq_some fun c _ => ?_
  dsimp only
  split
  · rfl
  · split
    · cases c.node.field? "expression" with
      | none => rfl
      | some callee => cases h : isConsoleLog callee <;> simp [h]
    · rfl

theorem oneContractPerFile?_eq (f : SourceFile) :
    oneContractPerFile? f = some (oneContractPerFile f) := by
  unfold oneContractPerFile? oneContractPerFile
  match contracts f with
  | [] | [_] => rfl
  | _ :: _ :: _ => simp

theorem headerRange?_eq (f : SourceFile) (n : Node) : headerRange? f n = some (headerRange f n) := by
  unfold headerRange? headerRange
  rw [headerWords?_eq, Option.bind_eq_bind, Option.bind_some]
  cases f.headerWords n with
  | nil => rfl
  | cons first rest =>
      have last : (first :: rest).getLast? = some (rest.getLastD first) := by
        rw [List.getLast?_cons, List.getLastD_eq_getLast?]
      -- By `simp` the kernel would have to compare the two ranges.
      rw [List.isEmpty_cons, if_neg Bool.false_ne_true, List.head?_cons, last]
      rfl

theorem payableFallback?_eq (f : SourceFile) : payableFallback? f = some (payableFallback f) := by
  refine filterMapM_eq_some fun c _ => ?_
  rw [headerRange?_eq]
  split <;> rfl

theorem reasonString?_eq (max : Int64) (f : SourceFile) :
    reasonString? max f = some (reasonString max f) := by
  refine filterMapM_eq_some fun call _ => ?_
  dsimp only
  split
  · cases call.list "arguments" with
    | nil => rfl
    | cons first rest => simp [Option.filter]
  · split <;> rfl
  · split <;> rfl
  · rfl

/-! ### Naming -/

theorem foundryTestFunctions?_eq (skip : List String) (f : SourceFile) :
    foundryTestFunctions? skip f = some (foundryTestFunctions skip f) := by
  unfold foundryTestFunctions? foundryTestFunctions
  split
  · refine filterMapM_eq_some fun c _ => ?_
    rw [explicitVisibility?_eq]
    rfl
  · rfl

theorem unnamedPart?_eq (f : SourceFile) (part : Option Node) (name : String)
    (skip : Node → Bool) :
    unnamedPart? f part name skip = some (match part with
      | some n =>
        if name == "" && !skip n then
          [f.findingAt n (f.sliceText n.src ++ " parameter is not named")]
        else []
      | none => []) := by
  cases part with
  | none => simp [unnamedPart?]
  | some n =>
      simp only [unnamedPart?, Option.isSome_some, Option.any_some, Bool.and_true]
      split <;> rfl

theorem namedParametersMapping?_eq (f : SourceFile) :
    namedParametersMapping? f = some (namedParametersMapping f) := by
  refine flatMapM_eq_some fun c _ => ?_
  dsimp only
  rw [unnamedPart?_eq, unnamedPart?_eq]
  rfl

theorem privateVarsLeadingUnderscore?_eq (strict : Bool) (f : SourceFile) :
    privateVarsLeadingUnderscore? strict f = some (privateVarsLeadingUnderscore strict f) := by
  refine flatMapM_eq_some fun c _ => ?_
  dsimp only
  rw [explicitVisibility?_eq]
  split
  · split
    · rfl
    · exact congrArg some (List.append_nil _).symm
  · split <;> rfl

/-! ### Order -/

theorem visibilityModifierOrder?_eq (f : SourceFile) :
    visibilityModifierOrder? f = some (visibilityModifierOrder f) := by
  refine flatMapM_eq_some fun c _ => ?_
  rw [headerWords?_eq]
  rfl

/-! ### Security -/

theorem funcVisibility?_eq (ignore : Bool) (f : SourceFile) :
    funcVisibility? ignore f = some (funcVisibility ignore f) := by
  refine filterMapM_eq_some fun c _ => ?_
  rw [explicitVisibility?_eq]
  split <;> rfl

theorem stateVisibility?_eq (f : SourceFile) : stateVisibility? f = some (stateVisibility f) := by
  refine filterMapM_eq_some fun c _ => ?_
  rw [explicitVisibility?_eq]
  split <;> rfl

end Rules

end SolidityLint
