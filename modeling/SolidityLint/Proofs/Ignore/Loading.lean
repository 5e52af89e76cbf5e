import Mathlib.Data.List.DropRight
import SolidityLint.Ignore.Files
import SolidityLint.Proofs.FileTree.Regular
import SolidityLint.Proofs.Text.Decoding

/-!
# Ignore — the rules of ignore files

An ignore file that holds patterns line by line gives the rules of the patterns, in this order
(`rules_of_lines`).  In a tree without links the rules of all ignore files below a directory are those
of the files of that name, in the order of the walk (`rules_ignoreRulesBelow`); one more ignore file in
the directory itself puts its rules among those of the others (`rules_of_oneMore`).
-/

namespace SolidityLint

/-! ### Lines -/

theorem dropWhile_trimBoth (p : Char → Bool) (cs : List Char) :
    (trimBoth p cs).dropWhile p = trimBoth p cs := by
  -- What is left begins with the first character that stays, if any is left.
  obtain ⟨rest, split⟩ : trimBoth p cs <+: cs.dropWhile p := by
    rw [trimBoth, ← List.reverse_suffix, List.reverse_reverse]
    exact List.dropWhile_suffix p
  cases left : trimBoth p cs with
  | nil => rfl
  | cons c tail =>
      have kept := List.dropWhile_eq_self_iff.mp (List.dropWhile_idempotent p cs)
      simp only [← split, left] at kept
      have stays : ¬ p c = true := kept (by simp)
      rw [List.dropWhile_cons, if_neg stays]

theorem trimBoth_trimBoth (p : Char → Bool) (cs : List Char) :
    trimBoth p (trimBoth p cs) = trimBoth p cs := by
  rw [trimBoth, dropWhile_trimBoth, trimBoth, List.reverse_reverse, List.dropWhile_idempotent]

@[simp]
theorem trimSpace_trimSpace (s : String) : trimSpace (trimSpace s) = trimSpace s := by
  rw [trimSpace, trimSpace, String.toList_ofList, trimBoth_trimBoth]

namespace IgnoreRule

theorem ofPattern?_trimSpace (base pattern : String) :
    ofPattern? base (trimSpace pattern) = ofPattern? base pattern := by
  rw [ofPattern?, ofPattern?, trimSpace_trimSpace]

theorem ofPattern?_blank {base pattern : String} (h : trimSpace pattern = "") :
    ofPattern? base pattern = none := by
  rw [ofPattern?, h]
  rfl

theorem ofPattern?_comment {base pattern : String} (h : hasFront "#" (trimSpace pattern)) :
    ofPattern? base pattern = none := by
  rw [hasFront, List.isPrefixOf_iff_prefix] at h
  obtain ⟨rest, comment⟩ := h
  rw [ofPattern?, ← comment]
  rfl

end IgnoreRule

/-- Where no line of the text is too long, none of the bytes is, and all are read. -/
theorem ignorePatternsOf_eq {bytes : ByteArray}
    (short : ∀ line ∈ (textOfBytes bytes).toList.splitOn '\n',
      (String.ofList line).utf8ByteSize < lineLimit) :
    ignorePatternsOf bytes =
      (((textOfBytes bytes).toList.splitOn '\n').map fun l => trimSpace (String.ofList l)).filter
        fun l => l != "" && !hasFront "#" l := by
  rw [textOfBytes_eq, String.toList_ofList, Utf8.splitOn_decode] at short ⊢
  have all : ∀ line ∈ bytes.data.toList.splitOn newline, line.length < lineLimit := fun line hl =>
    (Utf8.length_le_of_decode line).trans_lt (short _ (List.mem_map_of_mem hl))
  rw [ignorePatternsOf, List.takeWhile_eq_self_iff.mpr (by simpa using all), List.map_map]
  refine congrArg _ (List.map_congr_left fun line _ => ?_)
  rw [Function.comp_apply, textOfBytes_eq, List.toList_data_toByteArray]

/-- **Patterns line by line** give the rules of the patterns. -/
theorem rules_of_lines {bytes : ByteArray} {patterns : List String}
    (text : textOfBytes bytes = String.intercalate "\n" patterns)
    (lines : ∀ pattern ∈ patterns, '\n' ∉ pattern.toList)
    (short : ∀ pattern ∈ patterns, pattern.utf8ByteSize < lineLimit) (base : String) :
    (ignorePatternsOf bytes).filterMap (IgnoreRule.ofPattern? base) =
      patterns.filterMap (IgnoreRule.ofPattern? base) := by
  cases patterns with
  | nil =>
      rw [ignorePatternsOf_eq (by simp [text, lineLimit]), text]
      rfl
  | cons first others =>
      have split : (textOfBytes bytes).toList.splitOn '\n' = (first :: others).map String.toList := by
        rw [text, String.toList_intercalate]
        exact List.splitOn_intercalate '\n' (by simpa using lines) (by simp)
      rw [ignorePatternsOf_eq (by rw [split]; simpa using short), split, List.map_map,
        List.filterMap_filter, List.filterMap_map]
      refine List.filterMap_congr fun pattern _ => ?_
      simp only [Function.comp_apply, String.ofList_toList, IgnoreRule.ofPattern?_trimSpace]
      split
      · rfl
      · next passed =>
          simp only [Bool.and_eq_true, bne_iff_ne, Bool.not_eq_true', not_and_or, not_not,
            Bool.not_eq_false] at passed
          rcases passed with blank | comment
          · exact (IgnoreRule.ofPattern?_blank blank).symm
          · exact (IgnoreRule.ofPattern?_comment comment).symm

/-! ### Files -/

namespace FileTree

/-- The rules of a file that a walk comes to, if it is an ignore file. -/
def Visit.rules (name : String) (v : Visit) : List IgnoreRule :=
  match v.entry with
  | .file data =>
      if v.name = name then
        (ignorePatternsOf data.content).filterMap
          (IgnoreRule.ofPattern? (Path.clean (Path.dir v.path)))
      else []
  | _ => []

/-- The rules of the ignore files among entries and below them, in the order of the walk. -/
def rulesBelow (name path : String) (children : List (String × Entry)) : List IgnoreRule :=
  (walkChildren (fun _ name => isSkippedDir name) path children).flatMap (Visit.rules name)

theorem rulesBelow_append (name path : String) (before after : List (String × Entry)) :
    rulesBelow name path (before ++ after) = rulesBelow name path before ++ rulesBelow name path after := by
  rw [rulesBelow, walkChildren_append, List.flatMap_append, rulesBelow, rulesBelow]

theorem rulesBelow_file (name path : String) (data : FileData) (after : List (String × Entry)) :
    rulesBelow name path ((name, .file data) :: after) =
      (ignorePatternsOf data.content).filterMap
        (IgnoreRule.ofPattern? (Path.clean (Path.dir (Path.child path name)))) ++
      rulesBelow name path after := by
  simp [rulesBelow, walkChildren, walkEntry, Entry.isDir, Visit.rules, Path.child]

end FileTree

open FileTree (Visit walkChildren rulesBelow)

theorem FileTree.Holds.get? {children : List (String × Entry)} {dirs : List String} {name : String}
    {data : FileData} (h : Holds children dirs name data) (regular : (Entry.dir children).Regular) :
    (Entry.dir children).get? (dirs ++ [name]) = some (.file data) := by
  induction h with
  | here h =>
      cases regular with
      | dir _ ordered => simp [Entry.get?, lookup_of_mem ordered h]
  | deeper h _ ih =>
      cases regular with
      | dir _ ordered inner =>
          rw [List.cons_append, Entry.get?, lookup_of_mem ordered h]
          exact ih (inner _ h)

/-- Where a file stands below a directory, the path means the file. -/
theorem FileTree.stat_of_holds {t : FileTree} (regular : t.root.Regular) {names : List String}
    (hn : Path.Names names) {children : List (String × Entry)}
    (there : t.root.get? names = some (.dir children)) {dirs : List String} {name : String}
    {data : FileData} (h : Holds children dirs name data) :
    t.stat (Path.below (Path.ofComponents true names) (dirs ++ [name])) = .ok (.file data) := by
  have inner := regular.get? there
  rw [Path.below_ofComponents hn (h.names inner), stat_iff regular (hn.append (h.names inner)),
    Entry.get?_append, there]
  exact h.get? inner

/-- The rules with those of an ignore file that a walk meets. -/
def FileTree.addRules (t : FileTree) (name : String) (rules : IgnoreRules) (v : Visit) :
    IgnoreRules :=
  if v.entry.isDir || v.name != name then rules
  else match t.read v.path with
    | .ok content => rules.add (Path.dir v.path) (ignorePatternsOf content)
    | .error _ => rules

theorem ignoreRulesBelow_eq (t : FileTree) (name dir : String) (rules : IgnoreRules) :
    ignoreRulesBelow t name dir rules =
      (t.walk (fun _ name => isSkippedDir name) dir).foldl (t.addRules name) rules := rfl

/-- **The rules of the ignore files below a directory**, in the order of the walk. -/
theorem rules_ignoreRulesBelow {t : FileTree} (regular : t.root.Regular) {names : List String}
    (hn : Path.Names names) {children : List (String × Entry)}
    (there : t.root.get? names = some (.dir children)) (name : String) (rules : IgnoreRules) :
    (ignoreRulesBelow t name (Path.ofComponents true names) rules).rules =
      rules.rules ++ rulesBelow name (Path.ofComponents true names) children := by
  have inner := regular.get? there
  have walk : t.walk (fun _ name => isSkippedDir name) (Path.ofComponents true names) =
      ⟨Path.ofComponents true names, Path.base (Path.ofComponents true names), .dir children⟩ ::
        walkChildren (fun _ name => isSkippedDir name) (Path.ofComponents true names) children := by
    rw [FileTree.walk, t.lstat_of_get? regular hn there]
    rfl
  have fold (vs : List Visit) (here : ∀ v ∈ vs, v.entry.Regular ∧
      ∀ data, v.entry = .file data → t.stat v.path = .ok (.file data)) (rules : IgnoreRules) :
      (vs.foldl (t.addRules name) rules).rules = rules.rules ++ vs.flatMap (Visit.rules name) := by
    induction vs generalizing rules with
    | nil => simp
    | cons v vs ih =>
        obtain ⟨⟨plain, reads⟩, others⟩ := List.forall_mem_cons.mp here
        rw [List.foldl_cons, ih others, List.flatMap_cons, ← List.append_assoc]
        congr 1
        obtain ⟨path, own, entry⟩ := v
        cases plain with
        | dir => simp [FileTree.addRules, Visit.rules, Entry.isDir]
        | file data =>
            by_cases ignoreFile : own = name
            · simp [FileTree.addRules, Visit.rules, Entry.isDir, ignoreFile, FileTree.read,
                reads data rfl, IgnoreRules.add]
            · simp [FileTree.addRules, Visit.rules, Entry.isDir, ignoreFile]
  rw [ignoreRulesBelow_eq, walk, List.foldl_cons]
  refine fold _ (fun v hv => ⟨FileTree.regular_of_mem_walkChildren inner hv, ?_⟩) rules
  rintro data is
  obtain ⟨path, own, entry⟩ := v
  obtain rfl : entry = .file data := is
  obtain ⟨dirs, holds, rfl, -⟩ := FileTree.mem_walkChildren_file.mp hv
  exact FileTree.stat_of_holds regular hn there holds

/-! ### One more file -/

/-- The second tree has one more file in a directory. -/
inductive FileTree.OneMore (t t' : FileTree) (dir : List String) (name : String) (data : FileData) :
    Prop where
  | intro {before after : List (String × Entry)}
      (old : t.root.get? dir = some (.dir (before ++ after)))
      (new : t'.root.get? dir = some (.dir (before ++ (name, .file data) :: after)))

/-- **One more ignore file** puts its rules among those of the others. -/
theorem rules_of_oneMore {t t' : FileTree} (regular : t.root.Regular) (regular' : t'.root.Regular)
    {names : List String} (hn : Path.Names names) {name : String} {data : FileData}
    (more : FileTree.OneMore t t' names name data) {patterns : List String}
    (lines : ∀ pattern ∈ patterns, '\n' ∉ pattern.toList)
    (short : ∀ pattern ∈ patterns, pattern.utf8ByteSize < lineLimit)
    (text : textOfBytes data.content = String.intercalate "\n" patterns) :
    ∃ before after,
      (ignoreRulesBelow t name (Path.ofComponents true names) {}).rules = before ++ after ∧
      (ignoreRulesBelow t' name (Path.ofComponents true names) {}).rules =
        before ++ (IgnoreRules.ofPatterns (Path.ofComponents true names) patterns).rules ++ after := by
  cases more with
  | @intro before after old new =>
      have own : Path.IsName name := by
        cases regular'.get? new with
        | dir named => exact named (name, .file data) (by simp)
      have place : Path.dir (Path.child (Path.ofComponents true names) name) =
          Path.ofComponents true names := by
        rw [Path.child_ofComponents hn, Path.dir_ofComponents]
        exact hn.append (by simpa [Path.Names] using own)
      refine ⟨rulesBelow name (Path.ofComponents true names) before,
        rulesBelow name (Path.ofComponents true names) after, ?_, ?_⟩
      · rw [rules_ignoreRulesBelow regular hn old, FileTree.rulesBelow_append]
        rfl
      · rw [rules_ignoreRulesBelow regular' hn new, FileTree.rulesBelow_append,
          FileTree.rulesBelow_file, place, rules_of_lines text lines short]
        simp [IgnoreRules.ofPatterns, IgnoreRules.add]

end SolidityLint
