/-!
# Text — sets of code points

A `RangeTable` is a set of code points given by its maximal runs in increasing order, the form in
which character properties are published.  Membership is by bisection.
-/

namespace SolidityLint

/-- A set of code points as increasing, disjoint, closed intervals. -/
structure RangeTable where
  ranges : Array (Nat × Nat)

namespace RangeTable

/-- The first index in `[lo, hi)` whose interval ends at or after `n`, by bisection. -/
def firstEnding (t : RangeTable) (n lo hi : Nat) : Nat :=
  if _h : lo < hi then
    let mid := (lo + hi) / 2
    match t.ranges[mid]? with
    | some (_, stop) => if stop < n then firstEnding t n (mid + 1) hi else firstEnding t n lo mid
    | none => firstEnding t n lo mid
  else lo
termination_by hi - lo

/-- Is the code point `n` in the set? -/
def contains (t : RangeTable) (n : Nat) : Bool :=
  match t.ranges[t.firstEnding n 0 t.ranges.size]? with
  | some (start, stop) => start ≤ n && n ≤ stop
  | none => false

end RangeTable

end SolidityLint
