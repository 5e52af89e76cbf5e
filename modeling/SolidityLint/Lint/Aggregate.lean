import SolidityLint.Lint.Diagnostic

/-!
# Lint — findings on one line

`aggregate` folds the findings of one rule that start on one line into the first of them, which
keeps the ranges of the others; the messages of the others are dropped.  `unaggregate` makes one
diagnostic of each range again.
-/

namespace SolidityLint

/-- Findings of the same rule that start on the same line. -/
def sameGroup (a b : Diagnostic) : Bool :=
  a.ruleId == b.ruleId && a.range.start.line == b.range.start.line

/-- One diagnostic for each rule and line, in the order of their first findings. -/
def aggregate : List Diagnostic → List Diagnostic
  | [] => []
  | d :: ds =>
    { d with sameLine := d.sameLine ++ (ds.filter (sameGroup d)).map (·.range) }
      :: aggregate (ds.filter fun e => !sameGroup d e)
termination_by ds => ds.length
decreasing_by
  have h := List.length_filter_le (fun x : Subtype (· ∈ ds) => !sameGroup d x.val) ds.attach
  rw [List.length_attach] at h
  simpa using Nat.lt_succ_of_le h

/-- The findings that a diagnostic stands for, each with the message of the first. -/
def Diagnostic.expand (d : Diagnostic) : List Diagnostic :=
  { d with sameLine := [] } :: d.sameLine.map fun r => { d with sameLine := [], range := r }

/-- One diagnostic for each range. -/
def unaggregate (ds : List Diagnostic) : List Diagnostic := ds.flatMap Diagnostic.expand

end SolidityLint
