import SolidityLint.Lint.Engine
import SolidityLint.Proofs.Json.SortedKeys
import SolidityLint.Proofs.Lint.Aggregation

/-!
# Lint — rules that run at the same time

The rules of a file share a pool of workers.  They are launched in their order while there is room;
each leaves what it found in a slot of its own and gives its place free some time later, in any
order.  `Pool.Step` is one such move.

* `Pool.good_of_runs`: in every state of every run, the rules that have come back have left their
  own outcome in their own slot, and no more rules are at work than the pool has room for.
* `Pool.step_or_done`, `Pool.moves_of_runs`: a run never gets stuck, and has three moves for each
  rule when it ends.
* `Pool.result_eq`: what is read off the slots in the end is `checked`, whatever the run.

`lints_alike_in_every_order` collects what follows for the result of a file.
-/

namespace SolidityLint

/-- A rule of any kind: its id, and the diagnostics that it gives for a file of a project, or `none`
when it breaks. -/
structure Checker where
  id : String
  diagnose : SourceFile → List SourceFile → Option (List Diagnostic)

/-- A configured rule among rules of any kind. -/
def Rule.checker (r : Rule) : Checker := ⟨r.entry.id, r.diagnose⟩

/-- How the rules come out on a file, one by one. -/
def outcomesOf (checkers : List Checker) (file : SourceFile) (files : List SourceFile) :
    List (Option (List Diagnostic)) :=
  checkers.map (·.diagnose file files)

/-! ### The pool -/

/-- How many rules may be at work at once: as many as asked for, or one for each processor. -/
def poolLimit (jobs : Int64) (processors : Nat) : Nat :=
  if jobs ≤ 0 then processors else jobs.toInt.toNat

theorem poolLimit_pos (jobs : Int64) {processors : Nat} (h : 0 < processors) :
    0 < poolLimit jobs processors := by
  unfold poolLimit
  split
  · exact h
  · rename_i positive
    have above := Int64.lt_iff_toInt_lt.mp (Int64.not_le.mp positive)
    exact Int.pos_iff_toNat_pos.mp above

/-- What is kept of one rule until all are done. -/
structure Slot where
  found : List Diagnostic := []
  broke : Bool := false

/-- What a rule leaves in its slot. -/
def Slot.of (outcome : Option (List Diagnostic)) : Slot := ⟨outcome.getD [], outcome.isNone⟩

/-- The rules of a file at work; a rule is known by its number. -/
structure Pool where
  /-- How many rules were launched. -/
  launched : Nat := 0
  /-- The rules that have not come back. -/
  running : List Nat := []
  /-- The rules that have come back but still hold their place. -/
  leaving : List Nat := []
  slots : List Slot

namespace Pool

/-- The pool before the first rule is launched. -/
def empty (n : Nat) : Pool := { slots := List.replicate n {} }

/-- How many places are taken. -/
def busy (p : Pool) : Nat := p.running.length + p.leaving.length

section

variable (outcomes : List (Option (List Diagnostic))) (limit : Nat)

/-- One move of the pool. -/
inductive Step : Pool → Pool → Prop where
  | launch {p : Pool} (more : p.launched < outcomes.length) (room : p.busy < limit) :
      Step p { p with launched := p.launched + 1, running := p.launched :: p.running }
  | report {p : Pool} {k : Nat} {outcome : Option (List Diagnostic)} (working : k ∈ p.running)
      (own : outcomes[k]? = some outcome) :
      Step p { p with
        running := p.running.erase k, leaving := k :: p.leaving
        slots := p.slots.set k (.of outcome) }
  | leave {p : Pool} {k : Nat} (back : k ∈ p.leaving) :
      Step p { p with leaving := p.leaving.erase k }

/-- The states that the pool can come to, with the number of moves. -/
inductive Runs : Nat → Pool → Prop where
  | empty : Runs 0 (empty outcomes.length)
  | step {n : Nat} {p q : Pool} (h : Runs n p) (move : Step outcomes limit p q) : Runs (n + 1) q

/-- All rules were launched and have left. -/
def Done (p : Pool) : Prop :=
  p.launched = outcomes.length ∧ p.running = [] ∧ p.leaving = []

/-- What holds in every state: places are not exceeded, and the rules that have come back have left
their outcomes in their slots. -/
structure Good (p : Pool) : Prop where
  launched_le : p.launched ≤ outcomes.length
  running_lt : ∀ k ∈ p.running, k < p.launched
  busy_le : p.busy ≤ limit
  length_eq : p.slots.length = outcomes.length
  reported : ∀ k < p.launched, k ∉ p.running → p.slots[k]? = outcomes[k]?.map Slot.of

/-- The moves that are left: three for a rule that was not launched, two for one that runs and one
for one that has come back. -/
def movesLeft (p : Pool) : Nat :=
  3 * (outcomes.length - p.launched) + 2 * p.running.length + p.leaving.length

end

variable {outcomes : List (Option (List Diagnostic))} {limit : Nat}

theorem good_empty : Good outcomes limit (empty outcomes.length) where
  launched_le := Nat.zero_le _
  running_lt := fun _ hk => absurd hk List.not_mem_nil
  busy_le := Nat.zero_le _
  length_eq := List.length_replicate
  reported := fun _ hk => absurd hk (Nat.not_lt_zero _)

/-- **One move** keeps what holds. -/
theorem Good.step {p q : Pool} (h : Good outcomes limit p) (move : Step outcomes limit p q) :
    Good outcomes limit q := by
  cases move with
  | launch more room =>
      refine ⟨more, fun k hk => ?_, ?_, h.length_eq, fun k hk out => ?_⟩
      · rcases List.mem_cons.mp hk with rfl | hk
        · exact Nat.lt_succ_self _
        · exact Nat.lt_succ_of_lt (h.running_lt k hk)
      · simp only [busy, List.length_cons] at room ⊢
        omega
      · obtain ⟨other, out⟩ := not_or.mp (mt List.mem_cons.mpr out)
        exact h.reported k (Nat.lt_of_le_of_ne (Nat.le_of_lt_succ hk) other) out
  | @report k outcome working own =>
      refine ⟨h.launched_le, fun j hj => h.running_lt j (List.mem_of_mem_erase hj), ?_, ?_,
        fun j hj out => ?_⟩
      · have pos := List.length_pos_of_mem working
        have busy := h.busy_le
        simp only [Pool.busy, List.length_erase_of_mem working, List.length_cons] at busy ⊢
        omega
      · rw [List.length_set, h.length_eq]
      · by_cases same : j = k
        · subst same
          have inside : j < p.slots.length :=
            h.length_eq ▸ Nat.lt_of_lt_of_le hj h.launched_le
          rw [List.getElem?_set_self inside, own]
          rfl
        · rw [List.getElem?_set_ne (Ne.symm same)]
          exact h.reported j hj fun hj' => out ((List.mem_erase_of_ne same).mpr hj')
  | leave back =>
      refine ⟨h.launched_le, h.running_lt, Nat.le_trans ?_ h.busy_le, h.length_eq, h.reported⟩
      exact Nat.add_le_add_left (List.length_erase_le) _

/-- **Every state of every run.** -/
theorem good_of_runs {n : Nat} {p : Pool} (h : Runs outcomes limit n p) :
    Good outcomes limit p := by
  induction h with
  | empty => exact good_empty
  | step _ move ih => exact ih.step move

/-- Every move is one of those that are left. -/
theorem movesLeft_step {p q : Pool} (move : Step outcomes limit p q) :
    q.movesLeft outcomes + 1 = p.movesLeft outcomes := by
  cases move with
  | launch more room =>
      simp only [movesLeft, List.length_cons]
      omega
  | report working own =>
      have pos := List.length_pos_of_mem working
      simp only [movesLeft, List.length_erase_of_mem working, List.length_cons]
      omega
  | leave back =>
      have pos := List.length_pos_of_mem back
      simp only [movesLeft, List.length_erase_of_mem back]
      omega

theorem moves_of_runs {n : Nat} {p : Pool} (h : Runs outcomes limit n p) :
    n + p.movesLeft outcomes = 3 * outcomes.length := by
  induction h with
  | empty => simp [movesLeft, Pool.empty]
  | step _ move ih =>
      have left := movesLeft_step move
      omega

/-- A pool with room for one rule never gets stuck. -/
theorem Good.step_or_done {p : Pool} (h : Good outcomes limit p) (room : 0 < limit) :
    Done outcomes p ∨ ∃ q, Step outcomes limit p q := by
  cases running : p.running with
  | cons k ks =>
      have working : k ∈ p.running := running ▸ List.mem_cons_self
      have inside := Nat.lt_of_lt_of_le (h.running_lt k working) h.launched_le
      exact Or.inr ⟨_, .report working (List.getElem?_eq_getElem inside)⟩
  | nil =>
      cases leaving : p.leaving with
      | cons k ks => exact Or.inr ⟨_, .leave (leaving ▸ List.mem_cons_self)⟩
      | nil =>
          rcases Nat.lt_or_eq_of_le h.launched_le with more | all
          · exact Or.inr ⟨_, .launch more (by simpa [busy, running, leaving] using room)⟩
          · exact Or.inl ⟨all, running, leaving⟩

/-- When all is done, every slot holds the outcome of its rule. -/
theorem Good.slots_eq {p : Pool} (h : Good outcomes limit p) (done : Done outcomes p) :
    p.slots = outcomes.map Slot.of := by
  obtain ⟨all, running, -⟩ := done
  refine List.ext_getElem? fun k => ?_
  rw [List.getElem?_map]
  by_cases inside : k < p.launched
  · exact h.reported k inside (running ▸ List.not_mem_nil)
  · have beyond : outcomes.length ≤ k := all ▸ Nat.not_lt.mp inside
    rw [List.getElem?_eq_none (h.length_eq ▸ beyond), List.getElem?_eq_none beyond]
    rfl

/-- The result of a file, read off the slots in the order of the rules: the rules that broke are
noted, the findings of the others are joined, and what comments do not silence is aggregated. -/
def result (p : Pool) (checkers : List Checker) (file : SourceFile) : FileResult :=
  let slots := checkers.zip p.slots
  let found := (slots.filter (!·.2.broke)).flatMap (·.2.found)
  let kept := unsuppressed (directivesOf file.text) found
  { file := some file
    diagnostics := aggregate kept
    suppressed := found.length - kept.length
    broken := sortedIds ((slots.filter (·.2.broke)).map (·.1.id)) }

end Pool

/-! ### The result of a file -/

/-- The findings of the rules that do not break, in the order of the rules. -/
def foundBy (checkers : List Checker) (file : SourceFile) (files : List SourceFile) :
    List Diagnostic :=
  checkers.flatMap fun c => (c.diagnose file files).getD []

/-- Does a comment of the file silence the finding? -/
def SourceFile.silences (file : SourceFile) (d : Diagnostic) : Bool :=
  suppressed (directivesOf file.text) d.ruleId d.range.start.line.toInt

/-- The result that a file should have. -/
def checked (checkers : List Checker) (file : SourceFile) (files : List SourceFile) :
    FileResult where
  file := some file
  diagnostics := aggregate ((foundBy checkers file files).filter (!file.silences ·))
  suppressed := (foundBy checkers file files).countP file.silences
  broken := sortedIds ((checkers.filter fun c => (c.diagnose file files).isNone).map (·.id))

theorem unsuppressed_eq (file : SourceFile) (ds : List Diagnostic) :
    unsuppressed (directivesOf file.text) ds = ds.filter (!file.silences ·) := rfl

/-- What is not kept was silenced. -/
theorem length_sub_kept (file : SourceFile) (ds : List Diagnostic) :
    ds.length - (ds.filter (!file.silences ·)).length = ds.countP file.silences := by
  have all := List.length_eq_countP_add_countP file.silences (l := ds)
  have kept : ds.countP (fun d => ¬ file.silences d = true) =
      (ds.filter (!file.silences ·)).length := by
    rw [List.countP_eq_length_filter]
    congr 2
    funext d
    cases file.silences d <;> rfl
  omega

/-- The findings in the slots are those of the rules that do not break. -/
theorem found_slots (checkers : List Checker) (file : SourceFile) (files : List SourceFile) :
    ((checkers.zip ((outcomesOf checkers file files).map Slot.of)).filter
      (!·.2.broke)).flatMap (·.2.found) = foundBy checkers file files := by
  induction checkers with
  | nil => rfl
  | cons c checkers ih =>
      simp only [outcomesOf, List.map_cons, List.zip_cons_cons, foundBy, List.flatMap_cons] at ih ⊢
      cases h : c.diagnose file files with
      | none => simpa [Slot.of] using ih
      | some ds => simpa [Slot.of] using ih

/-- The slots of rules that broke name them. -/
theorem broken_slots (checkers : List Checker) (file : SourceFile) (files : List SourceFile) :
    ((checkers.zip ((outcomesOf checkers file files).map Slot.of)).filter (·.2.broke)).map
        (·.1.id) =
      (checkers.filter fun c => (c.diagnose file files).isNone).map (·.id) := by
  induction checkers with
  | nil => rfl
  | cons c checkers ih =>
      simp only [outcomesOf, List.map_cons, List.zip_cons_cons] at ih ⊢
      cases h : c.diagnose file files with
      | none => simpa [Slot.of, h] using ih
      | some ds => simpa [Slot.of, h] using ih

/-- **One result.**  However the rules run, the slots give the result that the file should have. -/
theorem Pool.result_eq {checkers : List Checker} {file : SourceFile} {files : List SourceFile}
    {limit n : Nat} {p : Pool} (h : Runs (outcomesOf checkers file files) limit n p)
    (done : Done (outcomesOf checkers file files) p) :
    p.result checkers file = checked checkers file files := by
  unfold Pool.result checked
  rw [(good_of_runs h).slots_eq done]
  simp only [found_slots, broken_slots, unsuppressed_eq, length_sub_kept]

/-- The result of configured rules. -/
theorem lintFile_eq_checked (rules : List Rule) {file : SourceFile} (hroot : file.root.isSome)
    (files : List SourceFile) :
    lintFile rules file files = checked (rules.map Rule.checker) file files := by
  have found : findings rules file files = foundBy (rules.map Rule.checker) file files := by
    rw [foundBy, List.flatMap_map]
    rfl
  have broken : brokenRules rules file files =
      (checked (rules.map Rule.checker) file files).broken := by
    simp only [brokenRules, checked, List.filter_map, List.map_map]
    rfl
  obtain ⟨root, hroot⟩ := Option.isSome_iff_exists.mp hroot
  unfold lintFile
  simp only [hroot, unsuppressed_eq, length_sub_kept, found, broken]
  rfl

theorem mem_sortedIds {id : String} {ids : List String} : id ∈ sortedIds ids ↔ id ∈ ids := by
  rw [sortedIds, mem_keys_sorted, List.map_map]
  simp

theorem mem_broken_checked {checkers : List Checker} {file : SourceFile}
    {files : List SourceFile} {id : String} :
    id ∈ (checked checkers file files).broken ↔
      ∃ c ∈ checkers, c.id = id ∧ c.diagnose file files = none := by
  simp only [checked, mem_sortedIds, List.mem_map, List.mem_filter, Option.isNone_iff_eq_none]
  exact exists_congr fun c =>
    ⟨fun ⟨⟨hc, h⟩, hid⟩ => ⟨hc, hid, h⟩, fun ⟨hc, hid, h⟩ => ⟨⟨hc, h⟩, hid⟩⟩

/-- A rule that breaks adds no finding. -/
theorem foundBy_broken {c : Checker} {file : SourceFile} {files : List SourceFile}
    (h : c.diagnose file files = none) (before after : List Checker) :
    foundBy (before ++ c :: after) file files = foundBy (before ++ after) file files := by
  simp [foundBy, h]

theorem Plain.filter {ds : List Diagnostic} (h : Plain ds) (p : Diagnostic → Bool) :
    Plain (ds.filter p) :=
  fun d hd => h d (List.mem_filter.mp hd).1

/-- Every finding is reported or silenced. -/
theorem issueCount_checked {checkers : List Checker} {file : SourceFile}
    {files : List SourceFile} (plain : Plain (foundBy checkers file files)) :
    (checked checkers file files).issueCount + (checked checkers file files).suppressed =
      (foundBy checkers file files).length := by
  have silenced := length_sub_kept file (foundBy checkers file files)
  have le := List.length_filter_le (!file.silences ·) (foundBy checkers file files)
  simp only [FileResult.issueCount, checked, sumOf_occurrences_aggregate (plain.filter _)]
  omega

/-- No range of a diagnostic stands on a line where its rule is silenced. -/
theorem not_suppressed_checked {checkers : List Checker} {file : SourceFile}
    {files : List SourceFile} (plain : Plain (foundBy checkers file files)) :
    ∀ d ∈ (checked checkers file files).diagnostics, ∀ r ∈ d.range :: d.sameLine,
      suppressed (directivesOf file.text) d.ruleId r.start.line.toInt = false := by
  intro d hd r hr
  -- The diagnostic has the key of a finding that is kept, and its ranges are on one line.
  have key : d.key ∈ (aggregate ((foundBy checkers file files).filter (!file.silences ·))).map
      Diagnostic.key := List.mem_map_of_mem hd
  rw [keys_aggregate, List.mem_eraseDups] at key
  obtain ⟨e, he, same⟩ := List.mem_map.mp key
  have line : r.start.line = d.range.start.line := by
    rcases List.mem_cons.mp hr with rfl | hr
    · rfl
    · exact oneLine_aggregate (plain.filter _) d hd r hr
  have rule : e.ruleId = d.ruleId := congrArg Prod.fst same
  have start : e.range.start.line = d.range.start.line := congrArg Prod.snd same
  have kept := (List.mem_filter.mp he).2
  rw [line, ← rule, ← start]
  simpa [SourceFile.silences] using kept

/-- **Rules in any order.**  Let the rules of a file with a tree run on a pool.  Every run ends
after at most three moves for each rule, without getting stuck before and without exceeding the
pool.  However it ends, the result is the same: the findings of the rules that do not break, in the
order of the rules, without those that comments silence, aggregated; for configured rules it is that
of `lintFile`.  A rule that breaks is named in it and takes nothing away but its own findings.
Where findings stand for themselves only, every one of them is either counted or silenced, and no
range stands on a line where its rule is silenced. -/
theorem lints_alike_in_every_order (checkers : List Checker) {file : SourceFile}
    (hroot : file.root.isSome) (files : List SourceFile) (jobs : Int64) {processors : Nat}
    (hprocessors : 0 < processors) :
    (∀ n p, Pool.Runs (outcomesOf checkers file files) (poolLimit jobs processors) n p →
      n ≤ 3 * checkers.length ∧ p.busy ≤ poolLimit jobs processors ∧
      (p.Done (outcomesOf checkers file files) ∨
        ∃ q, Pool.Step (outcomesOf checkers file files) (poolLimit jobs processors) p q) ∧
      (p.Done (outcomesOf checkers file files) →
        p.result checkers file = checked checkers file files)) ∧
    (∀ rules : List Rule, checkers = rules.map Rule.checker →
      checked checkers file files = lintFile rules file files) ∧
    (∀ before c after, checkers = before ++ c :: after → c.diagnose file files = none →
      (checked checkers file files).diagnostics =
        (checked (before ++ after) file files).diagnostics ∧
      (checked checkers file files).suppressed =
        (checked (before ++ after) file files).suppressed) ∧
    (∀ id, id ∈ (checked checkers file files).broken ↔
      ∃ c ∈ checkers, c.id = id ∧ c.diagnose file files = none) ∧
    (Plain (foundBy checkers file files) →
      (checked checkers file files).issueCount + (checked checkers file files).suppressed =
        (foundBy checkers file files).length ∧
      ∀ d ∈ (checked checkers file files).diagnostics, ∀ r ∈ d.range :: d.sameLine,
        suppressed (directivesOf file.text) d.ruleId r.start.line.toInt = false) := by
  refine ⟨fun n p h => ?_, ?_, ?_, fun id => mem_broken_checked,
    fun plain => ⟨issueCount_checked plain, not_suppressed_checked plain⟩⟩
  · have good := Pool.good_of_runs h
    have moves := Pool.moves_of_runs h
    have rules : (outcomesOf checkers file files).length = checkers.length := List.length_map _
    exact ⟨by omega, good.busy_le, good.step_or_done (poolLimit_pos jobs hprocessors),
      Pool.result_eq h⟩
  · rintro rules rfl
    exact (lintFile_eq_checked rules hroot files).symm
  · rintro before c after rfl broken
    simp only [checked, foundBy_broken broken, and_self]

/-! ### A rule that is overtaken -/

/-- A file whose second line silences one rule. -/
def silencedLine : SourceFile :=
  .ofBytes "/t.sol" "a\nb // solidhunter-disable-line loud\n".toUTF8
    (some (.mk ⟨1, "SourceUnit", ⟨0, 2, 0⟩, [], []⟩ []))

/-- A rule that breaks, and one with two findings on the first line and one on the second. -/
def brokenAndLoud : List Checker :=
  [⟨"broken", fun _ _ => none⟩,
    ⟨"loud", fun _ _ => some [
      { range := ⟨⟨1, 1⟩, ⟨1, 2⟩⟩, ruleId := "loud" },
      { range := ⟨⟨2, 1⟩, ⟨2, 2⟩⟩, ruleId := "loud" },
      { range := ⟨⟨1, 2⟩, ⟨1, 3⟩⟩, ruleId := "loud" }]⟩]

/-- The second rule is launched last, comes back first and leaves first. -/
theorem lints_alike_in_every_order_overtaken :
    silencedLine.root.isSome ∧ Plain (foundBy brokenAndLoud silencedLine []) ∧
    ∃ p : Pool,
      Pool.Runs (outcomesOf brokenAndLoud silencedLine []) (poolLimit 2 1) 6 p ∧
      p.Done (outcomesOf brokenAndLoud silencedLine []) ∧
      p.result brokenAndLoud silencedLine = checked brokenAndLoud silencedLine [] ∧
      "broken" ∈ (checked brokenAndLoud silencedLine []).broken ∧
      (checked brokenAndLoud silencedLine []).issueCount +
        (checked brokenAndLoud silencedLine []).suppressed = 3 := by
  have root : silencedLine.root.isSome := rfl
  have plain : Plain (foundBy brokenAndLoud silencedLine []) := by decide
  obtain ⟨run, -, -, broken, counted⟩ :=
    lints_alike_in_every_order brokenAndLoud root [] 2 Nat.one_pos
  have moves : Pool.Runs (outcomesOf brokenAndLoud silencedLine []) (poolLimit 2 1) 6 _ :=
    (((((Pool.Runs.empty.step (.launch (by decide) (by decide))).step
      (.launch (by decide) (by decide))).step
      (.report (k := 1) (by decide) rfl)).step
      (.report (k := 0) (by decide) rfl)).step
      (.leave (k := 1) (by decide))).step
      (.leave (k := 0) (by decide))
  exact ⟨root, plain, _, moves, ⟨rfl, rfl, rfl⟩, (run _ _ moves).2.2.2 ⟨rfl, rfl, rfl⟩,
    (broken _).mpr ⟨_, List.mem_cons_self, rfl, rfl⟩, (counted plain).1⟩

end SolidityLint
