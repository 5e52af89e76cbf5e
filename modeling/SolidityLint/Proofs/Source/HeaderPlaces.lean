import SolidityLint.Proofs.Source.WordSpans

/-!
# Source — where the words of a header stand

The header of a function goes from behind its parameters to its results, its body or its end
(`exists_headerSpan`), all of which lie inside the function in a well nested tree.  So do the words
that are read from it, and they come in the order in which they stand (`headerWords_inside`).
-/

namespace SolidityLint

namespace SourceFile

/-- An offset up to which the header of a function may go: the end of the function, or the start of
something that stands in it. -/
def EndsHeader (n : Node) (stop : Int64) : Prop :=
  stop = n.src.stop ∨ ∃ m ∈ n.nodes, stop = m.src.offset

theorem EndsHeader.min {n : Node} {a b : Int64} (ha : EndsHeader n a) (hb : EndsHeader n b) :
    EndsHeader n (min a b) := by
  change EndsHeader n (if a ≤ b then a else b)
  split
  · exact ha
  · exact hb

theorem endsHeader_body (n : Node) :
    EndsHeader n (boundBy (n.field? "body")
      (fun s => if s.isValid then s.offset else n.src.stop) n.src.stop) := by
  cases body : n.field? "body" with
  | none => exact .inl rfl
  | some m =>
      dsimp only [boundBy, Option.map, Option.getD]
      split
      · exact .inr ⟨m, Node.mem_nodes_of_field? body, rfl⟩
      · exact .inl rfl

/-- The header of a function starts behind its parameters. -/
theorem exists_headerSpan {n : Node} (kind : n.isA ["FunctionDefinition"]) :
    ∃ start stop : Int64,
      headerSpan n = (if start < 0 || stop < start then .none else ⟨start, stop - start, n.src.file⟩) ∧
      (start < 0 ∨ ∃ m ∈ n.nodes, start = m.src.stop) ∧ EndsHeader n stop := by
  have header : n.isA ["FunctionDefinition", "ModifierDefinition"] := by
    simp only [Node.isA, List.contains_cons, Bool.or_eq_true] at kind ⊢
    exact kind.imp_right fun no => absurd no (by simp)
  refine ⟨(headerBounds n).1, (headerBounds n).2, rfl, ?_, ?_⟩
  all_goals
    rw [headerBounds, if_pos header]
    dsimp only
  · cases params : n.field? "parameters" with
    | none => exact .inl (by decide)
    | some m =>
        dsimp only [boundBy, Option.map, Option.getD]
        split
        · exact .inr ⟨m, Node.mem_nodes_of_field? params, rfl⟩
        · exact .inl (by decide)
  · cases returns : n.field? "returnParameters" with
    | none => exact endsHeader_body n
    | some m =>
        dsimp only [boundBy, Option.map, Option.getD]
        split
        · exact (endsHeader_body n).min (.inr ⟨m, Node.mem_nodes_of_field? returns, rfl⟩)
        · exact endsHeader_body n

/-- The header of a function lies inside the function. -/
theorem headerSpan_inside {n : Node} (kind : n.isA ["FunctionDefinition"]) (nested : n.WellNested)
    (valid : (headerSpan n).isValid) : (headerSpan n).Inside n.src := by
  obtain ⟨start, stop, eq, hstart, hstop⟩ := exists_headerSpan kind
  rw [eq] at valid ⊢
  split at valid
  · exact absurd valid (by decide)
  · rename_i ordered
    rw [if_neg ordered]
    simp only [Bool.or_eq_true, decide_eq_true_eq, not_or, Int64.not_lt] at ordered
    have last : Span.stop ⟨start, stop - start, n.src.file⟩ = stop := by
      rw [Span.stop, Int64.add_comm, Int64.sub_add_cancel]
    refine ⟨?_, ?_, ?_⟩
    · obtain ⟨m, hm, rfl⟩ := hstart.resolve_left (Int64.not_lt.mpr ordered.1)
      have inside := nested.inside m hm
      exact Int64.le_trans inside.1 inside.2.1
    · rw [last]
      exact ordered.2
    · rw [last]
      rcases hstop with rfl | ⟨m, hm, rfl⟩
      · exact Int64.le_refl _
      · have inside := nested.inside m hm
        exact Int64.le_trans inside.2.1 inside.2.2

/-- **The words of a function's header** start inside the function, one behind the other. -/
theorem headerWords_inside {f : SourceFile} {n : Node} (kind : n.isA ["FunctionDefinition"])
    (nested : n.WellNested) :
    (f.headerWords n).Pairwise (fun v w => v.span.offset ≤ w.span.offset) ∧
      ∀ w ∈ f.headerWords n, n.src.offset ≤ w.span.offset ∧ w.span.offset ≤ n.src.stop := by
  refine ⟨(pairwise_headerWords f n).imp fun h => Int64.le_of_lt h.1, fun w hw => ?_⟩
  obtain ⟨word, rfl, valid, -⟩ := exists_of_mem_headerWords hw
  obtain ⟨low, order, high⟩ :=
    (inside_of_mem_headerWords hw).2.trans (headerSpan_inside kind nested valid)
  exact ⟨low, Int64.le_trans order high⟩

end SourceFile

end SolidityLint
