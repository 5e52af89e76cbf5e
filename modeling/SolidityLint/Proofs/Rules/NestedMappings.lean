import SolidityLint.Proofs.Ast.Coverage
import SolidityLint.Rules.Naming

/-!
# Rules — mappings inside mappings

The rule about named parameters passes over a mapping whose parent is a mapping.  A mapping can stand
deeper inside the same type (`Inner`): where the value of a mapping is an array of mappings, the parent
of the inner one is the array, and the rule takes it for an outermost one.  The rule runs as a reading
that finds the same on every file (`namedParametersMapping?_eq`).

* `unnamedParts`: the key and the value of a mapping, as far as they want a name.
* `namedParametersMapping_eq`: what the rule finds, mapping by mapping.
* `outermost_mappings_reported_iff`: when that is what the outermost mappings want and nothing else.
* `inner_mapping_reported`: a mapping in an array in a mapping.
-/

namespace SolidityLint

namespace Rules

/-! ### Inside the same type -/

/-- Is the node the name of a type? -/
def isTypeName (n : Node) : Bool :=
  n.isA ["ElementaryTypeName", "UserDefinedTypeName", "FunctionTypeName", "Mapping", "ArrayTypeName"]

/-- There is a mapping above, and only names of types lie between. -/
def Inner (c : Cursor) : Prop :=
  ∃ between around above, c.ancestors = between ++ around :: above ∧
    (∀ b ∈ between, isTypeName b.node) ∧ around.node.isA ["Mapping"]

theorem isTypeName_of_mapping {n : Node} (h : n.isA ["Mapping"]) : isTypeName n := by
  simp only [Node.isA, List.contains_iff_mem, List.mem_singleton] at h
  simp [isTypeName, Node.isA, h]

/-- The mappings around are met on the way up before anything that is no name of a type. -/
theorem inner_iff {c : Cursor} :
    Inner c ↔ ∃ a ∈ c.ancestors.takeWhile fun a => isTypeName a.node, a.node.isA ["Mapping"] := by
  constructor
  · rintro ⟨between, around, above, way, names, mapping⟩
    have first : isTypeName around.node := isTypeName_of_mapping mapping
    refine ⟨around, ?_, mapping⟩
    rw [way, List.takeWhile_append_of_pos names, List.takeWhile_cons, if_pos first]
    simp
  · rintro ⟨around, hmem, mapping⟩
    obtain ⟨between, between', eq⟩ := List.append_of_mem hmem
    have names : ∀ b ∈ between, isTypeName b.node := fun b hb =>
      List.mem_takeWhile_imp (p := fun a : Cursor => isTypeName a.node) (eq ▸ List.mem_append_left _ hb)
    obtain ⟨rest, way⟩ := List.takeWhile_prefix (l := c.ancestors) fun a => isTypeName a.node
    rw [eq, List.append_assoc, List.cons_append] at way
    exact ⟨between, around, _, way.symm, names, mapping⟩

instance : DecidablePred Inner := fun _ => decidable_of_iff _ inner_iff.symm

/-- A mapping right above is one around. -/
theorem inner_of_parentIsA {c : Cursor} (h : c.parentIsA ["Mapping"]) : Inner c := by
  obtain ⟨n, trail⟩ := c
  cases trail with
  | nil => cases h
  | cons step trail => exact ⟨[], ⟨step.2, trail⟩, _, rfl, by simp, h⟩

/-! ### What the rule finds -/

/-- The parts of a mapping that want a name: the key and the value, if they have none and the value is
not a mapping itself. -/
def unnamedParts (n : Node) : List Node :=
  ((n.field? "keyType").toList.filter fun _ => n.text "keyName" == "") ++
    (n.field? "valueType").toList.filter fun v => n.text "valueName" == "" && v.kind != "Mapping"

/-- The findings about the parts of a mapping that want a name. -/
def mappingFindings (f : SourceFile) (c : Cursor) : List Finding :=
  (unnamedParts c.node).map fun part =>
    f.findingAt part (f.sliceText part.src ++ " parameter is not named")

/-- **What the rule finds**: what the mappings want whose parent is no mapping. -/
theorem namedParametersMapping_eq (f : SourceFile) :
    namedParametersMapping f =
      ((f.ofKinds ["Mapping"]).filter fun c => !c.parentIsA ["Mapping"]).flatMap
        (mappingFindings f) := by
  refine List.flatMap_congr fun c _ => ?_
  rw [mappingFindings, unnamedParts, List.map_append]
  dsimp only
  congr 1
  · cases c.node.field? "keyType" with
    | none => rfl
    | some key => by_cases named : c.node.text "keyName" = "" <;> simp [named]
  · cases c.node.field? "valueType" with
    | none => rfl
    | some value =>
        by_cases wanted : c.node.text "valueName" = "" ∧ value.kind ≠ "Mapping" <;> simp [wanted]

/-! ### The outermost mappings -/

/-- The mappings of a file that stand in no other one of the same type. -/
def outermostMappings (f : SourceFile) : List Cursor :=
  (f.ofKinds ["Mapping"]).filter fun c => ¬ Inner c

/-- They are among the mappings that the rule does not pass over. -/
theorem outermostMappings_eq (f : SourceFile) :
    outermostMappings f =
      ((f.ofKinds ["Mapping"]).filter fun c => !c.parentIsA ["Mapping"]).filter fun c => ¬ Inner c := by
  rw [outermostMappings, List.filter_filter]
  refine List.filter_congr fun c _ => ?_
  cases right : c.parentIsA ["Mapping"] with
  | false => simp
  | true => simp [inner_of_parentIsA right]

/-- A choice from a list gives all that the list gives only if nothing comes of what is left out. -/
theorem flatMap_eq_flatMap_filter_iff {α β : Type} (g : α → List β) (p : α → Bool) (xs : List α) :
    xs.flatMap g = (xs.filter p).flatMap g ↔ ∀ x ∈ xs, p x = false → g x = [] := by
  induction xs with
  | nil => simp
  | cons x xs ih =>
      rw [List.forall_mem_cons, ← ih, List.flatMap_cons, List.filter_cons]
      cases taken : p x with
      | true => simp
      | false =>
          have fewer : ((xs.filter p).flatMap g).length ≤ (xs.flatMap g).length :=
            (List.filter_sublist.flatMap g).length_le
          simp only [Bool.false_eq_true, if_false, forall_const]
          constructor
          · intro same
            have none : g x = [] := by
              have := congrArg List.length same
              rw [List.length_append] at this
              exact List.length_eq_zero_iff.mp (by omega)
            rw [none] at same
            exact ⟨none, same⟩
          · rintro ⟨none, same⟩
            rw [none]
            exact same

/-- **The outermost mappings.**  The rule finds, in order, all that the mappings want which stand in no
other one of the same type.  It finds nothing else exactly if no part wants a name of a mapping that
stands in another one, but not right below it. -/
theorem outermost_mappings_reported_iff (f : SourceFile) :
    ((outermostMappings f).flatMap (mappingFindings f)).Sublist (namedParametersMapping f) ∧
    (namedParametersMapping f = (outermostMappings f).flatMap (mappingFindings f) ↔
      ∀ c ∈ f.ofKinds ["Mapping"], Inner c → c.parentIsA ["Mapping"] = false →
        unnamedParts c.node = []) := by
  rw [namedParametersMapping_eq, outermostMappings_eq]
  refine ⟨List.filter_sublist.flatMap _, ?_⟩
  rw [flatMap_eq_flatMap_filter_iff]
  simp only [List.mem_filter, Bool.not_eq_true', and_imp, decide_eq_false_iff_not, not_not,
    mappingFindings, List.map_eq_nil_iff]
  exact forall₂_congr fun c _ => forall_comm

/-! ### A mapping in an array in a mapping -/

/-- A contract with a mapping, whose key and value have names, to arrays of mappings. -/
def mappingInArrayTree : Json :=
  let mapping (key value : Json) (keyName valueName src : String) : Json :=
    .obj [("keyName", .str keyName), ("keyType", key), ("nodeType", .str "Mapping"), ("src", .str src),
      ("valueName", .str valueName), ("valueType", value)]
  let elementary (name src : String) : Json :=
    .obj [("name", .str name), ("nodeType", .str "ElementaryTypeName"), ("src", .str src)]
  let inner : Json := mapping (elementary "uint" "42:4") (elementary "uint" "50:4") "" "" "34:21"
  let array : Json :=
    .obj [("baseType", inner), ("nodeType", .str "ArrayTypeName"), ("src", .str "34:23")]
  let balances : Json :=
    .obj [("name", .str "m"), ("nameLocation", .str "61:1"), ("nodeType", .str "VariableDeclaration"),
      ("src", .str "13:49"), ("stateVariable", .bool true),
      ("typeName", mapping (elementary "address" "21:7") array "a" "b" "13:47")]
  let contract : Json :=
    .obj [("name", .str "C"), ("nameLocation", .str "9:1"), ("nodeType", .str "ContractDefinition"),
      ("nodes", .arr [balances]), ("src", .str "0:65")]
  .obj [("nodeType", .str "SourceUnit"), ("nodes", .arr [contract]), ("src", .str "0:65")]

def mappingInArrayFile (root : Node) : SourceFile :=
  .ofBytes "/t.sol" "contract C { mapping(address a => mapping(uint => uint)[] b) m; }".toUTF8
    (some root)

/-- **A mapping in an array in a mapping** is reported for its key and its value, though the outermost
mapping has all its names. -/
theorem inner_mapping_reported :
    ∃ root, Node.ofJson mappingInArrayTree = .ok root ∧
      (outermostMappings (mappingInArrayFile root)).flatMap
        (mappingFindings (mappingInArrayFile root)) = [] ∧
      namedParametersMapping (mappingInArrayFile root) =
        [⟨⟨⟨1, 43⟩, ⟨1, 47⟩⟩, "uint parameter is not named"⟩,
          ⟨⟨⟨1, 51⟩, ⟨1, 55⟩⟩, "uint parameter is not named"⟩] := by
  obtain ⟨root, decoded, holds⟩ := exists_ofJson_of_build mappingInArrayTree
    (fun root => decide
      ((outermostMappings (mappingInArrayFile root)).flatMap
          (mappingFindings (mappingInArrayFile root)) = [] ∧
        namedParametersMapping (mappingInArrayFile root) =
          [⟨⟨⟨1, 43⟩, ⟨1, 47⟩⟩, "uint parameter is not named"⟩,
            ⟨⟨⟨1, 51⟩, ⟨1, 55⟩⟩, "uint parameter is not named"⟩]))
    (by decide +kernel) (by decide +kernel) (by decide +kernel)
  exact ⟨root, decoded, of_decide_eq_true holds⟩

end Rules

end SolidityLint
