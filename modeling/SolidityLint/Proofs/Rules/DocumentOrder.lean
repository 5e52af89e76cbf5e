import SolidityLint.Proofs.Rules.Builtin
import SolidityLint.Proofs.Rules.Layout
import SolidityLint.Proofs.Rules.Placement
import SolidityLint.Proofs.Source.HeaderPlaces

/-!
# Rules — findings in document order

Most built-in rules go through the nodes of a file and report some of them, whole, at their name or
at a part (`FromNodes`); the others go through the items of the file or through its lines.  The walk
is in document order, but that does not put the findings in order: a node that is reported at its
name may hold another one in front of the name, as a variable of a function type does, and two rules
report the parts of a node in an order of their own.

* `findings_in_document_order_iff`: that is all that can go wrong.  The findings of a rule are in
  document order if and only if they are inside each node that the rule reports in its inside
  (`innerKinds`) and that holds another such node, and for the two rules that turn back
  (`TurnsBack`) inside each node that they report.
-/

namespace SolidityLint

/-- The name after the dot of every access to a member lies inside the access. -/
def SourceFile.LocatesMembers (f : SourceFile) : Prop :=
  ∀ c ∈ f.nodes, c.node.kind = "MemberAccess" → c.node.memberSpan.Inside c.node.src

namespace Rules

variable {kinds : List NodeKind} {turns : Prop} {f : SourceFile} {c : Cursor} {x : Finding}

/-! ### Findings about whole nodes -/

/-- The keyword starts where its function does, however the source spells it. -/
theorem start_keywordRange (f : SourceFile) (n : Node) (keyword : String) :
    (keywordRange f n keyword).start = (f.nodeRange n).start := by
  simp only [keywordRange]
  split <;> rfl

section

variable (walks : f.WalksForward)
include walks

theorem fromNodes_explicitTypes (mode : String) : FromNodes [] turns f (explicitTypes mode f) := by
  refine .wholes walks (f.ofKinds_sublist _) fun c x h => ?_
  obtain ⟨-, h⟩ := Option.ite_none_right_eq_some.mp h
  cases h
  rfl

theorem fromNodes_noEmptyBlock : FromNodes [] turns f (noEmptyBlock f) := by
  refine .wholes walks (List.Sublist.refl _) fun c x h => ?_
  obtain ⟨-, h⟩ := Option.ite_none_right_eq_some.mp h
  cases h
  rfl

theorem fromNodes_noGlobalImport : FromNodes [] turns f (noGlobalImport f) := by
  refine .wholes walks (f.ofKinds_sublist _) fun c x h => ?_
  obtain ⟨-, h⟩ := Option.ite_none_right_eq_some.mp h
  cases h
  rfl

theorem fromNodes_funcVisibility (ignore : Bool) : FromNodes [] turns f (funcVisibility ignore f) := by
  refine .wholes walks (f.ofKinds_sublist _) fun c x h => ?_
  obtain ⟨-, h⟩ := Option.ite_none_left_eq_some.mp h
  obtain ⟨-, h⟩ := Option.ite_none_left_eq_some.mp h
  split at h
  · cases h; rfl
  · cases h; exact start_keywordRange f c.node _

theorem fromNodes_avoidTxOrigin : FromNodes [] turns f (avoidTxOrigin f) :=
  fromNodes_wholes walks (List.filter_sublist.trans (f.ofKinds_sublist _)) _

theorem fromNodes_noInlineAssembly : FromNodes [] turns f (noInlineAssembly f) :=
  fromNodes_wholes walks (f.ofKinds_sublist _) _

theorem fromNodes_notRelyOnTime : FromNodes [] turns f (notRelyOnTime f) := by
  unfold notRelyOnTime
  cases hroot : f.root with
  | none => exact fromNodes_nil
  | some root =>
      refine fromNodes_wholes walks (List.filter_sublist.trans ?_) _
      rw [SourceFile.nodes, hroot, allNodes, Cursor.all, Cursor.walk_eq, Cursor.walk_eq]
      exact Cursor.walkNode_sublist _ [] root

end

/-! ### Findings about names -/

section

variable (walks : f.WalksForward)
include walks

theorem fromNodes_namesThat {cs : List Cursor} (sub : cs.Sublist (f.ofKinds kinds))
    (bad : Node → Bool) (message : String) : FromNodes kinds turns f (namesThat f bad message cs) :=
  fromNodes_names walks (List.filter_sublist.trans sub) message

theorem fromNodes_oneContractPerFile :
    FromNodes ["ContractDefinition"] turns f (oneContractPerFile f) :=
  fromNodes_names walks (List.drop_sublist 1 _) _

theorem fromNodes_duplicateContractName (files : List (Option SourceFile)) :
    FromNodes ["ContractDefinition"] turns f (duplicateContractName f files) := by
  unfold duplicateContractName
  split
  · exact fromNodes_nil
  · refine .names walks (List.Sublist.refl _) fun c x h => ?_
    obtain ⟨path, -, rfl⟩ := Option.map_eq_some_iff.mp h
    rfl

theorem fromNodes_foundryTestFunctions (skip : List String) :
    FromNodes ["FunctionDefinition"] turns f (foundryTestFunctions skip f) := by
  unfold foundryTestFunctions
  split
  · refine .names walks List.filter_sublist fun c x h => ?_
    obtain ⟨-, h⟩ := Option.ite_none_right_eq_some.mp h
    cases h
    rfl
  · exact fromNodes_nil

theorem fromNodes_stateVisibility :
    FromNodes ["VariableDeclaration"] turns f (stateVisibility f) := by
  refine .names walks List.filter_sublist fun c x h => ?_
  obtain ⟨-, h⟩ := Option.ite_none_right_eq_some.mp h
  obtain ⟨-, h⟩ := Option.ite_none_right_eq_some.mp h
  cases h
  rfl

theorem fromNodes_functionMaxLines (max : Int64) :
    FromNodes ["FunctionDefinition"] turns f (functionMaxLines max f) := by
  refine .names walks (List.Sublist.refl _) fun c x h => ?_
  obtain ⟨body, -, h⟩ := Option.bind_eq_some_iff.mp h
  obtain ⟨-, h⟩ := Option.ite_none_left_eq_some.mp h
  cases h
  rfl

end

/-! ### Findings about statements that are calls -/

/-- A call is judged at its reason or, when it has none, at what it calls. -/
theorem range_of_judged {call : Node} {reason : Option Node} {none long : String} {short : Node → Prop}
    [DecidablePred short]
    (h : (match reason with
      | .none => (call.field? "expression").map (f.findingAt · none)
      | some r => if short r then .none else some (f.findingAt r long)) = some x)
    (argument : ∀ r, reason = some r → r ∈ call.list "arguments") :
    ∃ m ∈ call.nodes, x.range = f.nodeRange m := by
  cases reason with
  | none =>
      obtain ⟨callee, hcallee, rfl⟩ := Option.map_eq_some_iff.mp h
      exact ⟨callee, Node.mem_nodes_of_field? hcallee, rfl⟩
  | some r =>
      obtain ⟨-, h⟩ := Option.ite_none_left_eq_some.mp h
      cases h
      exact ⟨r, Node.mem_nodes_of_mem_list (argument r rfl), rfl⟩

section

variable (walks : f.WalksForward)
include walks

/-- A rule about the calls that are statements, each reported at a part of the call. -/
theorem fromNodes_calls {own : Node → Option Finding}
    (h : ∀ call x, own call = some x → ∃ m ∈ call.nodes, x.range = f.nodeRange m) :
    FromNodes ["ExpressionStatement"] turns f ((callStatements f).filterMap own) := by
  rw [callStatements, List.filterMap_filterMap]
  refine .filterMap (List.Sublist.refl _) fun c hc x hx => ?_
  obtain ⟨call, hcall, hx⟩ := Option.bind_eq_some_iff.mp hx
  obtain ⟨m, hm, range⟩ := h call x hx
  obtain ⟨stands, hcall⟩ := Option.ite_none_right_eq_some.mp hcall
  obtain ⟨hcall, -⟩ := Option.filter_eq_some_iff.mp hcall
  have kind : c.node.kind = "ExpressionStatement" := by
    simpa using (Bool.and_eq_true_iff.mp stands).2
  have below := Node.mem_nodes_trans (Node.mem_nodes_of_field? hcall) hm
  exact placed_below (by simp [Node.isA, kind]) (walks.nested c hc) below
    (congrArg Range.start range)

theorem fromNodes_customErrors : FromNodes ["ExpressionStatement"] turns f (customErrors f) := by
  refine fromNodes_calls walks fun call x h => ⟨call, call.mem_nodes_self, ?_⟩
  obtain ⟨-, h⟩ := Option.ite_none_right_eq_some.mp h
  cases h
  rfl

theorem fromNodes_reasonString (max : Int64) :
    FromNodes ["ExpressionStatement"] turns f (reasonString max f) := by
  refine fromNodes_calls walks fun call x h => ?_
  dsimp only at h
  split at h
  · refine range_of_judged h fun r hr => ?_
    exact List.mem_of_head? (Option.filter_eq_some_iff.mp hr).1
  · exact range_of_judged (Option.ite_none_right_eq_some.mp h).2 fun r => List.mem_of_find?_eq_some
  · exact range_of_judged (Option.ite_none_right_eq_some.mp h).2 fun r => List.mem_of_find?_eq_some
  · cases h

end

/-! ### Findings about parts of a node -/

/-- Numbered nodes of which some are reported. -/
theorem zipIdx_sublist (ns : List Node) (first : Nat) (own : Node × Nat → Option Finding)
    (h : ∀ n count x, own (n, count) = some x → x.range = f.nodeRange n) :
    (((ns.zipIdx first).filterMap own).map (·.range)).Sublist (ns.map f.nodeRange) := by
  induction ns generalizing first with
  | nil => exact List.Sublist.refl _
  | cons n ns ih =>
      rw [List.zipIdx_cons, List.filterMap_cons]
      split
      · exact (ih _).cons _
      · rename_i x found
        rw [List.map_cons, List.map_cons, h n first x found]
        exact (ih _).cons_cons _

theorem start_underscoreFinding {n : Node} {missing extra visibility : String}
    (h : x ∈ underscoreFinding f n missing extra visibility) :
    x.range.start = (f.nameRange n).start := by
  unfold underscoreFinding at h
  split at h
  · rw [List.mem_singleton.mp h]; rfl
  · rw [List.mem_singleton.mp h]; rfl
  · exact absurd h List.not_mem_nil

theorem inDocumentOrder_underscoreFinding (f : SourceFile) (n : Node)
    (missing extra visibility : String) :
    InDocumentOrder ((underscoreFinding f n missing extra visibility).map (·.range)) := by
  unfold underscoreFinding
  split
  · exact List.pairwise_singleton ..
  · exact List.pairwise_singleton ..
  · exact .nil

section

variable (walks : f.WalksForward)
include walks

theorem fromNodes_maxStatesCount (max : Int64) :
    FromNodes ["ContractDefinition"] turns f (maxStatesCount max f) := by
  refine .ofKinds walks (List.Sublist.refl _) (fun c kind nested x hx => ?_)
    fun c _ nested => .inl ?_
  · obtain ⟨⟨n, count⟩, hn, h⟩ := List.mem_filterMap.mp hx
    obtain ⟨-, h⟩ := Option.ite_none_left_eq_some.mp h
    cases h
    have member : n ∈ c.node.list "nodes" := List.mem_of_mem_filter (List.fst_mem_of_mem_zipIdx hn)
    exact placed_below kind nested (Node.mem_nodes_of_mem_list member) rfl
  · refine inDocumentOrder_of_offsets walks
      ((zipIdx_sublist _ _ _ ?_).trans (List.filter_sublist.map _)) (nested.pairwise_offsets "nodes")
    intro n count x h
    obtain ⟨-, h⟩ := Option.ite_none_left_eq_some.mp h
    cases h
    rfl

theorem fromNodes_funcParamNameMixedcase :
    FromNodes ["FunctionDefinition"] turns f (funcParamNameMixedcase f) := by
  refine .ofKinds walks (List.Sublist.refl _) (fun c kind nested x hx => ?_)
    fun c _ nested => .inl ?_
  · obtain ⟨n, hn, rfl⟩ := List.mem_map.mp hx
    have below := Node.mem_nodes_of_mem_parameters (List.mem_of_mem_filter hn)
    exact placed_name_below kind nested below rfl
  · rw [List.map_map]
    exact inDocumentOrder_of_offsets walks (List.filter_sublist.map _)
      (nested.pairwise_parameters "parameters")

theorem fromNodes_namedParametersMapping :
    FromNodes ["Mapping"] True f (namedParametersMapping f) := by
  refine .ofKinds walks List.filter_sublist (fun c kind nested x hx => ?_) fun _ _ _ => .inr trivial
  have below : ∀ {key : String} {n : Node}, c.node.field? key = some n →
      x.range = f.nodeRange n → Placed ["Mapping"] f c x := fun hn range =>
    placed_below kind nested (Node.mem_nodes_of_field? hn) (congrArg Range.start range)
  dsimp only at hx
  rcases List.mem_append.mp hx with hx | hx
  all_goals
    split at hx
    · rename_i n hn
      obtain ⟨-, hx⟩ := List.mem_ite_nil_right.mp hx
      exact below hn (congrArg Finding.range (List.mem_singleton.mp hx))
    · exact absurd hx List.not_mem_nil

theorem fromNodes_privateVars (strict : Bool) :
    FromNodes ["FunctionDefinition", "VariableDeclaration"] (strict = true) f
      (privateVarsLeadingUnderscore strict f) := by
  refine .flatMap (List.Sublist.refl _) (fun c hc x hx => ?_) fun c hc => ?_
  · have nested := walks.nested c hc
    dsimp only at hx
    split at hx
    · rename_i kind
      have kind : c.node.isA ["FunctionDefinition", "VariableDeclaration"] := by
        simp [Node.isA, beq_iff_eq.mp kind]
      rcases List.mem_append.mp hx with hx | hx
      · obtain ⟨-, hx⟩ := List.mem_ite_nil_right.mp hx
        obtain ⟨v, hv, rfl⟩ := List.mem_map.mp hx
        refine placed_name_below kind nested ?_ rfl
        exact (List.mem_append.mp (List.mem_of_mem_filter hv)).elim Node.mem_nodes_of_mem_parameters
          Node.mem_nodes_of_mem_parameters
      · obtain ⟨-, hx⟩ := List.mem_ite_nil_right.mp hx
        exact placed_name_below kind nested c.node.mem_nodes_self (start_underscoreFinding hx)
    · split at hx
      · rename_i kind
        have kind : c.node.isA ["FunctionDefinition", "VariableDeclaration"] := by
          simp only [isMutableState, Bool.and_eq_true, beq_iff_eq] at kind
          simp [Node.isA, kind.1.1]
        exact placed_name_below kind nested c.node.mem_nodes_self (start_underscoreFinding hx)
      · exact absurd hx List.not_mem_nil
  · -- Without the parameters there is at most one finding for each node.
    cases strict with
    | true => exact .inr rfl
    | false =>
        refine .inl ?_
        simp only [Bool.false_eq_true, if_false, List.nil_append]
        split
        · split
          · exact inDocumentOrder_underscoreFinding f c.node ..
          · exact .nil
        · split
          · exact inDocumentOrder_underscoreFinding f c.node ..
          · exact .nil

theorem fromNodes_noConsole (members : f.LocatesMembers) :
    FromNodes ["FunctionCall", "ImportDirective"] turns f (noConsole f) := by
  refine .filterMap (List.Sublist.refl _) fun c hc x hx => ?_
  have nested := walks.nested c hc
  dsimp only at hx
  split at hx
  · rename_i kind
    obtain ⟨-, hx⟩ := Option.ite_none_right_eq_some.mp hx
    cases hx
    exact placed_below (by simp [Node.isA, beq_iff_eq.mp kind]) nested c.node.mem_nodes_self rfl
  · split at hx
    · rename_i kind
      split at hx
      · rename_i callee hcallee
        obtain ⟨log, hx⟩ := Option.ite_none_right_eq_some.mp hx
        cases hx
        have access : callee.kind = "MemberAccess" := by
          simp only [isConsoleLog, Bool.and_eq_true, beq_iff_eq] at log
          exact log.1.1
        have below := Node.mem_nodes_of_field? hcallee
        obtain ⟨d, hd, rfl⟩ := SourceFile.exists_mem_nodes hc below
        refine placed_of_inside (by simp [Node.isA, beq_iff_eq.mp kind]) ?_ rfl
        exact (members d hd access).trans (nested.inside _ below)
      · cases hx
    · cases hx

end

/-! ### Findings about words of a header -/

theorem lateVisibilities_sublist (f : SourceFile) (words : List Word) (first : Int64) :
    ((lateVisibilities f words first).map (·.range)).Sublist (words.map fun w => f.range w.span) := by
  induction words generalizing first with
  | nil => exact List.Sublist.refl _
  | cons w words ih =>
      rw [lateVisibilities]
      split
      · exact (ih _).cons _
      · split
        · exact (ih _).cons_cons _
        · exact (ih _).cons _

/-- A finding at a word of a function's header starts inside the function. -/
theorem placed_of_word (kind : c.node.isA ["FunctionDefinition"]) (nested : c.node.WellNested)
    {w : Word} (hw : w ∈ f.headerWords c.node) (start : x.range.start = (f.range w.span).start) :
    Placed ["FunctionDefinition"] f c x := by
  obtain ⟨low, high⟩ := (SourceFile.headerWords_inside kind nested).2 w hw
  exact ⟨_, start, low, high, .inl kind⟩

theorem start_headerRange (f : SourceFile) (n : Node) :
    (headerRange f n).start = (f.nodeRange n).start ∨
      ∃ w ∈ f.headerWords n, (headerRange f n).start = (f.range w.span).start := by
  unfold headerRange
  split
  · exact .inl rfl
  · rename_i first rest words
    exact .inr ⟨first, words ▸ List.mem_cons_self, rfl⟩

section

variable (walks : f.WalksForward)
include walks

theorem fromNodes_payableFallback : FromNodes ["FunctionDefinition"] turns f (payableFallback f) := by
  refine .filterMap (f.ofKinds_sublist _) fun c hc x hx => ?_
  obtain ⟨-, hx⟩ := Option.ite_none_right_eq_some.mp hx
  cases hx
  have kind := SourceFile.isA_of_mem_ofKinds hc
  have nested := walks.nested c ((f.ofKinds_sublist _).subset hc)
  rcases start_headerRange f c.node with start | ⟨w, hw, start⟩
  · exact placed_below kind nested c.node.mem_nodes_self start
  · exact placed_of_word kind nested hw start

theorem fromNodes_visibilityModifierOrder :
    FromNodes ["FunctionDefinition"] turns f (visibilityModifierOrder f) := by
  refine .ofKinds walks (List.Sublist.refl _) (fun c kind nested x hx => ?_)
    fun c kind nested => .inl ?_
  · have range := (lateVisibilities_sublist f _ _).subset (List.mem_map_of_mem hx)
    obtain ⟨w, hw, range⟩ := List.mem_map.mp range
    exact placed_of_word kind nested hw (congrArg Range.start range.symm)
  · exact inDocumentOrder_of_offsets walks (lateVisibilities_sublist f _ _)
      (SourceFile.headerWords_inside kind nested).1

end

/-! ### Findings about the items of a file -/

theorem importOnTop_sublist (f : SourceFile) (ns : List (Option Node)) (top : Bool) :
    ((importOnTop.go f ns top).map (·.range)).Sublist
      ((ns.filterMap fun item => item).map f.nodeRange) := by
  induction ns generalizing top with
  | nil => exact List.Sublist.refl _
  | cons item ns ih =>
      have later : ∀ top, ((importOnTop.go f ns top).map (·.range)).Sublist
          (((item :: ns).filterMap fun item => item).map f.nodeRange) := fun top =>
        (ih top).trans (((List.sublist_cons_self item ns).filterMap _).map _)
      rw [importOnTop.go.eq_def]
      dsimp only
      split
      · exact later _
      · split
        · cases item with
          | none => exact later _
          | some n =>
              dsimp only
              split
              · exact later _
              · exact (ih _).cons_cons _
        · exact later _

theorem misplacedMembers_sublist (f : SourceFile) (ns : List Node) (highest : Option Nat) :
    ((misplacedMembers f ns highest).map (·.range)).Sublist (ns.map f.nodeRange) := by
  induction ns generalizing highest with
  | nil => exact List.Sublist.refl _
  | cons n ns ih =>
      simp only [misplacedMembers]
      split
      · exact (ih _).cons_cons _
      · exact (ih _).cons _

theorem misplacedItems_sublist (f : SourceFile) (ns : List Node) (highest : Option Nat) :
    ((misplacedItems f ns highest).map (·.range)).Sublist
      ((ns.flatMap fun n => n :: n.list "nodes").map f.nodeRange) := by
  induction ns generalizing highest with
  | nil => exact List.Sublist.refl _
  | cons n ns ih =>
      rw [misplacedItems, List.flatMap_cons, List.map_append, List.map_append, List.map_append]
      refine List.Sublist.append ?_ (ih _)
      change List.Sublist _ ([f.nodeRange n] ++ (n.list "nodes").map f.nodeRange)
      refine List.Sublist.append ?_ ?_
      · split
        · exact List.Sublist.refl _
        · exact List.nil_sublist _
      · split
        · exact misplacedMembers_sublist f _ none
        · exact List.nil_sublist _

/-- An item and then its members: each starts where or behind where the one before does. -/
theorem pairwise_members {ns : List Node} (precede : ns.Pairwise fun a b => a.src.Precedes b.src)
    (nested : ∀ n ∈ ns, n.WellNested) :
    (ns.flatMap fun n => n :: n.list "nodes").Pairwise fun a b => a.src.offset ≤ b.src.offset := by
  have inside : ∀ n ∈ ns, ∀ m ∈ n :: n.list "nodes", m.src.Inside n.src := by
    intro n hn m hm
    refine (nested n hn).inside m ?_
    exact (List.mem_cons.mp hm).elim (fun eq => eq ▸ n.mem_nodes_self) Node.mem_nodes_of_mem_list
  refine List.pairwise_flatMap.mpr ⟨fun n hn => ?_, precede.imp_of_mem fun {a b} ha hb h x hx y hy => ?_⟩
  · refine List.pairwise_cons.mpr ⟨fun m hm => ?_, ?_⟩
    · exact (inside n hn m (List.mem_cons_of_mem _ hm)).1
    · exact (nested n hn).pairwise_offsets _
  · have before := h.of_inside (inside a ha x hx) (inside b hb y hy)
    exact Int64.le_trans (inside a ha x hx).2.1 before

section

variable (walks : f.WalksForward)
include walks

/-- The items of a file are those of a well nested tree. -/
theorem nested_items : (items f).Pairwise (fun a b => a.src.Precedes b.src) ∧
    ∀ n ∈ items f, n.WellNested := by
  cases hroot : f.root with
  | none => simp [items, fileItems, hroot]
  | some root =>
      have eq : items f = root.list "nodes" := by simp only [items, fileItems, hroot]; rfl
      obtain ⟨c, hc, rfl⟩ : ∃ c ∈ f.nodes, c.node = root := by
        have self := root.mem_nodes_self
        rw [← SourceFile.map_node_nodes hroot] at self
        exact List.mem_map.mp self
      have nested := walks.nested c hc
      rw [eq]
      exact ⟨nested.laid_self.pairwise_list _, fun n hn => nested.below (Node.mem_nodes_of_mem_list hn)⟩

theorem inDocumentOrder_importOnTop : InDocumentOrder ((importOnTop f).map (·.range)) := by
  obtain ⟨precede, nested⟩ := nested_items walks
  refine inDocumentOrder_of_offsets walks (importOnTop_sublist f _ _)
    (precede.imp_of_mem fun {a b} ha _ h => ?_)
  exact Int64.le_trans (nested a ha).proper.2 h

theorem inDocumentOrder_ordering {found : List Finding} (h : ordering f = some found) :
    InDocumentOrder (found.map (·.range)) := by
  obtain ⟨ns, hns, rfl⟩ := Option.map_eq_some_iff.mp h
  obtain ⟨-, rfl⟩ := mapM_eq_some_iff.mp hns
  obtain ⟨precede, nested⟩ := nested_items walks
  exact inDocumentOrder_of_offsets walks (misplacedItems_sublist f _ _)
    (pairwise_members precede nested)

/-! ### Findings about lines -/

theorem inDocumentOrder_maxLineLength (max : Int64) :
    InDocumentOrder ((maxLineLength max f).map (·.range)) := by
  have fits := walks.fits
  have lines := f.lines.lineCount_le
  refine List.pairwise_map.mpr (List.pairwise_filterMap.mpr ?_)
  refine List.pairwise_lt_range.imp_of_mem fun {i j} hi hj h x hx y hy => ?_
  obtain ⟨-, hx⟩ := Option.ite_none_left_eq_some.mp hx
  obtain ⟨-, hy⟩ := Option.ite_none_left_eq_some.mp hy
  cases hx
  cases hy
  rw [List.mem_range] at hi hj
  rw [Position.before_ofNat (by omega) (by omega) (by omega) (by omega)]
  omega

end

/-! ### The built-in rules -/

/-- The kinds of nodes that a rule reports in their inside: at a name, a word or a part.  The other
rules report nodes where they start, or lines. -/
def innerKinds : String → List NodeKind
  | "custom-errors" | "reason-string" => ["ExpressionStatement"]
  | "no-console" => ["FunctionCall", "ImportDirective"]
  | "max-states-count" | "one-contract-per-file" | "contract-name-camelcase"
  | "duplicate-contract-name" => ["ContractDefinition"]
  | "function-max-lines" | "payable-fallback" | "foundry-test-functions" | "func-name-mixedcase"
  | "func-param-name-mixedcase" | "visibility-modifier-order" => ["FunctionDefinition"]
  | "event-name-camelcase" => ["EventDefinition"]
  | "modifier-name-mixedcase" => ["ModifierDefinition"]
  | "named-parameters-mapping" => ["Mapping"]
  | "private-vars-leading-underscore" => ["FunctionDefinition", "VariableDeclaration"]
  | "const-name-snakecase" | "state-visibility" | "use-forbidden-name" | "var-name-mixedcase" =>
    ["VariableDeclaration"]
  | _ => []

/-- The rules that report the parts of one node in an order of their own: the key of a mapping
before the value, and in strict mode the parameters of a function before its name. -/
def TurnsBack (id : String) (data : Data) : Prop :=
  id = "named-parameters-mapping" ∨
    (id = "private-vars-leading-underscore" ∧ (flagOption "strict" false data).1 = true)

instance (id : String) (data : Data) : Decidable (TurnsBack id data) :=
  inferInstanceAs (Decidable (_ ∨ (_ ∧ _)))

/-- The findings of the rule are in document order if they are inside certain nodes: those that the
rule reports in their inside, and that stand above another such node or whose parts it reports in
an order of its own. -/
def OrderedInside (t : RuleSpec) : Prop :=
  ∀ (data : Data) (f : SourceFile) (files : List SourceFile) (found : List Finding),
    f.WalksForward → (t.id = "no-console" → f.LocatesMembers) →
    (t.configure data).1 f files = some found →
    (∀ c ∈ f.nodes, c.node.isA (innerKinds t.id) →
      (TurnsBack t.id data ∨ c.node.Nests (innerKinds t.id)) →
      InDocumentOrder ((f.nodeRange c.node).startingIn (found.map (·.range)))) →
    InDocumentOrder (found.map (·.range))

section

variable {i : Info}

theorem orderedInside_spec {find : SourceFile → List Finding} (eq : innerKinds i.id = kinds)
    (h : ∀ {f : SourceFile} {turns : Prop}, f.WalksForward → FromNodes kinds turns f (find f)) :
    OrderedInside (i.spec find) := by
  subst eq
  intro data f files found walks _ hfound
  cases hfound
  exact (h walks).inDocumentOrder walks

theorem orderedInside_specOf {α : Type} {option : Data → α × Bool}
    {find : α → SourceFile → List Finding} (eq : innerKinds i.id = kinds)
    (h : ∀ (value : α) {f : SourceFile} {turns : Prop}, f.WalksForward →
      FromNodes kinds turns f (find value f)) : OrderedInside (i.specOf option find) := by
  subst eq
  intro data f files found walks _ hfound
  cases hfound
  exact (h _ walks).inDocumentOrder walks

/-- A reading that always asks is ordered as what it finds. -/
theorem orderedInside_reading {read : SourceFile → Option (List Finding)}
    {find : SourceFile → List Finding} (asks : ∀ f, read f = some (find f))
    (ordered : OrderedInside (i.spec find)) : OrderedInside (i.reading read) := by
  obtain rfl : read = fun f => some (find f) := funext asks
  exact ordered

theorem orderedInside_readingOf {α : Type} {option : Data → α × Bool}
    {read : α → SourceFile → Option (List Finding)} {find : α → SourceFile → List Finding}
    (asks : ∀ value f, read value f = some (find value f))
    (ordered : OrderedInside (i.specOf option find)) : OrderedInside (i.readingOf option read) := by
  obtain rfl : read = fun value f => some (find value f) := funext fun value => funext (asks value)
  exact ordered

end

theorem orderedInside_maxLineLength :
    OrderedInside (maxLineLengthInfo.specOf (intOption 120) maxLineLength) := by
  intro data f files found walks _ hfound _
  cases hfound
  exact inDocumentOrder_maxLineLength walks _

theorem orderedInside_noConsole : OrderedInside (noConsoleInfo.spec noConsole) := by
  intro data f files found walks members hfound
  cases hfound
  exact (fromNodes_noConsole walks (members rfl)).inDocumentOrder walks

theorem orderedInside_namedParametersMapping :
    OrderedInside (namedParametersMappingInfo.spec namedParametersMapping) := by
  intro data f files found walks _ hfound inner
  cases hfound
  refine (fromNodes_namedParametersMapping walks).inDocumentOrder walks fun c hc kind _ => ?_
  exact inner c hc kind (.inl (.inl rfl))

theorem orderedInside_privateVars :
    OrderedInside (privateVarsLeadingUnderscoreInfo.specOf (flagOption "strict" false)
      privateVarsLeadingUnderscore) := by
  intro data f files found walks _ hfound inner
  cases hfound
  refine (fromNodes_privateVars walks _).inDocumentOrder walks fun c hc kind nests => ?_
  exact inner c hc kind (nests.imp_left fun strict => .inr ⟨rfl, strict⟩)

theorem orderedInside_importOnTop : OrderedInside (importOnTopInfo.spec importOnTop) := by
  intro data f files found walks _ hfound _
  cases hfound
  exact inDocumentOrder_importOnTop walks

theorem orderedInside_bestPractices : bestPracticesSpecs.Forall OrderedInside :=
  ⟨orderedInside_spec rfl fromNodes_customErrors,
    orderedInside_specOf rfl fun mode => fun walks => fromNodes_explicitTypes walks mode,
    orderedInside_readingOf functionMaxLines?_eq
      (orderedInside_specOf rfl fun max => fun walks => fromNodes_functionMaxLines walks max),
    orderedInside_maxLineLength,
    orderedInside_specOf rfl fun max => fun walks => fromNodes_maxStatesCount walks max,
    orderedInside_reading noConsole?_eq orderedInside_noConsole,
    orderedInside_spec rfl fromNodes_noEmptyBlock,
    orderedInside_spec rfl fromNodes_noGlobalImport,
    orderedInside_reading oneContractPerFile?_eq
      (orderedInside_spec rfl fromNodes_oneContractPerFile),
    orderedInside_reading payableFallback?_eq (orderedInside_spec rfl fromNodes_payableFallback),
    orderedInside_readingOf reasonString?_eq
      (orderedInside_specOf rfl fun max => fun walks => fromNodes_reasonString walks max)⟩

theorem orderedInside_naming : namingSpecs.Forall OrderedInside :=
  ⟨orderedInside_spec rfl fun walks => fromNodes_namesThat walks List.filter_sublist _ _,
    orderedInside_spec rfl fun walks => fromNodes_namesThat walks (List.Sublist.refl _) _ _,
    orderedInside_spec rfl fun walks => fromNodes_namesThat walks (List.Sublist.refl _) _ _,
    orderedInside_readingOf foundryTestFunctions?_eq
      (orderedInside_specOf rfl fun skip => fun walks => fromNodes_foundryTestFunctions walks skip),
    orderedInside_spec rfl fun walks => fromNodes_namesThat walks List.filter_sublist _ _,
    orderedInside_spec rfl fromNodes_funcParamNameMixedcase,
    orderedInside_spec rfl fun walks => fromNodes_namesThat walks (List.Sublist.refl _) _ _,
    orderedInside_reading namedParametersMapping?_eq orderedInside_namedParametersMapping,
    orderedInside_readingOf privateVarsLeadingUnderscore?_eq orderedInside_privateVars,
    orderedInside_spec rfl fun walks => fromNodes_namesThat walks (List.Sublist.refl _) _ _,
    orderedInside_spec rfl fun walks => fromNodes_namesThat walks (List.Sublist.refl _) _ _⟩

theorem orderedInside_order : orderSpecs.Forall OrderedInside :=
  ⟨orderedInside_importOnTop,
    fun _ _ _ _ walks _ found _ => inDocumentOrder_ordering walks found,
    orderedInside_reading visibilityModifierOrder?_eq
      (orderedInside_spec rfl fromNodes_visibilityModifierOrder)⟩

theorem orderedInside_miscellaneous : miscellaneousSpecs.Forall OrderedInside := by
  intro data f files found walks _ hfound
  cases hfound
  exact (fromNodes_duplicateContractName walks _).inDocumentOrder walks

theorem orderedInside_security : securitySpecs.Forall OrderedInside :=
  ⟨orderedInside_spec rfl fromNodes_avoidTxOrigin,
    orderedInside_readingOf funcVisibility?_eq
      (orderedInside_specOf rfl fun ignore => fun walks => fromNodes_funcVisibility walks ignore),
    orderedInside_spec rfl fromNodes_noInlineAssembly,
    orderedInside_spec rfl fromNodes_notRelyOnTime,
    orderedInside_reading stateVisibility?_eq (orderedInside_spec rfl fromNodes_stateVisibility)⟩

theorem orderedInside_categories : categories.Forall fun c => c.specs.Forall OrderedInside :=
  ⟨orderedInside_bestPractices, orderedInside_naming, orderedInside_order,
    orderedInside_miscellaneous, orderedInside_security⟩

end Rules

open Rules

/-- **Findings in document order.**  Let a built-in rule, with any options, return findings for a
file whose tree was decoded and is well nested.  They are in document order exactly when they are
inside certain nodes: those of the kinds that the rule reports in their inside, as far as a node of
these kinds stands below or the rule reports the parts of a node in an order of its own.  For rules
that report nodes where they start, and those about lines, there are no such kinds. -/
theorem findings_in_document_order_iff {e : RuleEntry} {s : RuleSpec} {f : SourceFile}
    {files : List SourceFile} {ds : List Diagnostic} {v : Json} {root : Node}
    (hs : builtin.get? e.id = some s) (decoded : Node.ofJson v = .ok root)
    (hroot : f.root = some root) (nested : root.WellNested) (fits : f.lines.size < 2 ^ 63 - 1)
    (members : e.id = "no-console" → f.LocatesMembers)
    (found : (s.rule e).diagnose f files = some ds) :
    InDocumentOrder (ds.map (·.range)) ↔
      ∀ c ∈ f.nodes, c.node.isA (innerKinds e.id) →
        (TurnsBack e.id e.data ∨ c.node.Nests (innerKinds e.id)) →
        InDocumentOrder ((f.nodeRange c.node).startingIn (ds.map (·.range))) := by
  refine ⟨fun order c _ _ _ => order.startingIn _, fun inner => ?_⟩
  obtain ⟨-, c, hc, t, ht, hid, eq⟩ := Registry.exists_contributed hs
  obtain ⟨xs, hxs, rfl⟩ := Option.map_eq_some_iff.mp found
  have specs := List.forall_iff_forall_mem.mp orderedInside_categories c hc
  have ordered := List.forall_iff_forall_mem.mp specs t ht
  rw [RuleSpec.check_rule, eq] at hxs
  rw [← hid] at inner members
  rw [List.map_map] at inner ⊢
  exact ordered e.data f files xs (SourceFile.walksForward decoded hroot nested fits) members hxs inner

/-! ### A function with two parameters -/

/-- A contract with a function of two parameters. -/
def twoParametersTree : Json :=
  let parameter (name place src : String) : Json :=
    .obj [("name", .str name), ("nameLocation", .str place), ("nodeType", .str "VariableDeclaration"),
      ("src", .str src)]
  let parameters : Json :=
    .obj [("nodeType", .str "ParameterList"),
      ("parameters", .arr [parameter "A" "29:1" "24:6", parameter "B" "37:1" "32:6"]),
      ("src", .str "23:16")]
  let function : Json :=
    .obj [("body", .obj [("nodeType", .str "Block"), ("src", .str "49:2")]), ("kind", .str "function"),
      ("name", .str "f"), ("nameLocation", .str "22:1"), ("nodeType", .str "FunctionDefinition"),
      ("parameters", parameters), ("src", .str "13:38")]
  let contract : Json :=
    .obj [("name", .str "C"), ("nameLocation", .str "9:1"), ("nodeType", .str "ContractDefinition"),
      ("nodes", .arr [function]), ("src", .str "0:53")]
  .obj [("nodeType", .str "SourceUnit"), ("nodes", .arr [contract]), ("src", .str "0:53")]

def twoParametersFile (root : Node) : SourceFile :=
  .ofBytes "/t.sol" "contract C { function f(uint A, uint B) internal {} }".toUTF8
    (some root)

theorem fits_twoParametersFile (root : Node) :
    (twoParametersFile root).lines.size < 2 ^ 63 - 1 := by
  change (LineIndex.ofBytes _).size < 2 ^ 63 - 1
  decide +kernel

theorem keysAscend_twoParametersTree : twoParametersTree.keysAscend = true := by decide +kernel

theorem nodup_ids : ((categories.flatMap (·.specs)).map (·.id)).Nodup := by decide +kernel

/-- What a contributed rule finds in a file is what it is found to return. -/
theorem exists_diagnose {c : Category} {t : RuleSpec} (e : RuleEntry) (hc : c ∈ categories)
    (ht : t ∈ c.specs) (hid : e.id = t.id) {f : SourceFile} {files : List SourceFile}
    {xs : List Finding} (hxs : (t.configure e.data).1 f files = some xs) :
    ∃ s ds, builtin.get? e.id = some s ∧ (s.rule e).diagnose f files = some ds ∧
      ds.map (·.range) = xs.map (·.range) := by
  obtain ⟨s, hs⟩ := Option.isSome_iff_exists.mp (Registry.isSome_get? hc ht)
  obtain ⟨-, c', hc', t', ht', hid', eq⟩ := Registry.exists_contributed hs
  obtain rfl : t' = t := List.inj_on_of_nodup_map nodup_ids
    (List.mem_flatMap.mpr ⟨c', hc', ht'⟩) (List.mem_flatMap.mpr ⟨c, hc, ht⟩) hid'
  refine ⟨s, xs.map fun x => x.diagnostic (s.rule e).entry f, hid ▸ hs, ?_, ?_⟩
  · rw [Rule.diagnose, RuleSpec.check_rule, eq, hxs]
    rfl
  · rw [List.map_map]
    rfl

theorem naming_mem_categories : ⟨naming, namingSpecs⟩ ∈ categories := by simp [categories]

/-- **The two parameters** are reported in document order: no function stands below another. -/
theorem findings_in_document_order_twoParameters :
    ∃ root s ds, Node.ofJson twoParametersTree = .ok root ∧ root.WellNested ∧
      builtin.get? "func-param-name-mixedcase" = some s ∧
      (s.rule ⟨"func-param-name-mixedcase", .warning, .null⟩).diagnose (twoParametersFile root) [] =
        some ds ∧ ds.length = 2 ∧ InDocumentOrder (ds.map (·.range)) := by
  obtain ⟨root, decoded, holds⟩ := exists_ofJson_of_build twoParametersTree
    (fun root => decide (root.WellNested ∧
      (funcParamNameMixedcase (twoParametersFile root)).length = 2 ∧
      ∀ c ∈ (twoParametersFile root).nodes, c.node.isA ["FunctionDefinition"] →
        ¬ c.node.Nests ["FunctionDefinition"]))
    keysAscend_twoParametersTree (by decide +kernel) (by decide +kernel)
  obtain ⟨nested, two, flat⟩ := of_decide_eq_true holds
  obtain ⟨s, ds, hs, found, ranges⟩ := exists_diagnose
    ⟨"func-param-name-mixedcase", .warning, .null⟩ naming_mem_categories
    (t := funcParamNameMixedcaseInfo.spec funcParamNameMixedcase) (by simp [namingSpecs]) rfl
    (f := twoParametersFile root) rfl
  refine ⟨root, s, ds, decoded, nested, hs, found, ?_, ?_⟩
  · have := congrArg List.length ranges
    rwa [List.length_map, List.length_map, two] at this
  · refine (findings_in_document_order_iff hs decoded rfl nested (fits_twoParametersFile root)
      (fun other => absurd other (by decide)) found).mpr fun c hc kind turns => ?_
    exact absurd (turns.resolve_left (by decide +kernel)) (flat c hc kind)

/-- **Parameters before the name.**  In strict mode the rule about leading underscores lists the
parameters of the function first, though its name stands before them. -/
theorem parameters_reported_before_name :
    ∃ root s ds, Node.ofJson twoParametersTree = .ok root ∧ root.WellNested ∧
      builtin.get? "private-vars-leading-underscore" = some s ∧
      (s.rule ⟨"private-vars-leading-underscore", .warning, .map [("strict", .bool true)]⟩).diagnose
        (twoParametersFile root) [] = some ds ∧ ¬ InDocumentOrder (ds.map (·.range)) := by
  obtain ⟨root, decoded, holds⟩ := exists_ofJson_of_build twoParametersTree
    (fun root => decide (root.WellNested ∧ ¬ InDocumentOrder
      ((privateVarsLeadingUnderscore true (twoParametersFile root)).map (·.range))))
    keysAscend_twoParametersTree (by decide +kernel) (by decide +kernel)
  obtain ⟨nested, back⟩ := of_decide_eq_true holds
  have strict : (flagOption "strict" false (.map [("strict", .bool true)])).1 = true := by
    decide +kernel
  have check : ((privateVarsLeadingUnderscoreInfo.readingOf (flagOption "strict" false)
      privateVarsLeadingUnderscore?).configure (.map [("strict", .bool true)])).1
        (twoParametersFile root) [] =
      some (privateVarsLeadingUnderscore true (twoParametersFile root)) :=
    (congrArg (privateVarsLeadingUnderscore? · (twoParametersFile root)) strict).trans
      (privateVarsLeadingUnderscore?_eq true _)
  obtain ⟨s, ds, hs, found, ranges⟩ := exists_diagnose
    ⟨"private-vars-leading-underscore", .warning, .map [("strict", .bool true)]⟩
    naming_mem_categories (by simp [namingSpecs]) rfl check
  exact ⟨root, s, ds, decoded, nested, hs, found, ranges ▸ back⟩

end SolidityLint
