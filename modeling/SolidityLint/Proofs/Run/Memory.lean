import SolidityLint.Proofs.Json.SortedKeys
import SolidityLint.Proofs.Lint.Sessions
import SolidityLint.Proofs.Run.Look

/-!
# Run — what a runner remembers

A runner remembers of each path what it kept of the last look and the tree that its session holds
(`Runner.memory`).  `Remembers` says what stands there after any runs: nothing, or what one of the
runs read at the path and made of it (`RunContext.takeUp`).

* `Looks.recalls`, `Looks.memory_own`, `Looks.memory_other`: one look takes what is remembered if
  the file is unchanged, and looks afresh if not (`Runner.knownLook`); it changes what is remembered
  of its own path only, and to what it has read (`Runner.remembered`).
* `lookAll_knownLook`: a whole run comes to what is recalled path by path.
* `Runner.run_of_found`: so its result and the files of its session are functions of what is
  recalled.
* `Runner.result_eq_iff`: the result is that of a new runner exactly when everything that is
  recalled is what a fresh look comes to.
-/

namespace SolidityLint

namespace RunContext

/-- No file calls the run off. -/
def Calm (c : RunContext) : Prop := ∀ path, c.interrupts path = false

/-- What a run makes of the content of a file. -/
def takeUp (c : RunContext) (path : String) (content : ByteArray) :
    FileOutcome × Option SourceFile :=
  if !c.options.skipDetection && !Language.isSolidity path content then
    ({ path, skipped := true }, none)
  else match c.parser path content with
    | .error e => ({ path, error := some (.within ("parse " ++ path) e) }, none)
    | .ok f => ({ path }, some f)

/-- What a run comes to that looks at a file for the first time. -/
def freshLook (c : RunContext) (path : String) : FileOutcome × Option SourceFile :=
  if c.ignored.ignores path then
    ({ path, excluded := true, result := some { file := some (.ofBytes path .empty none) } }, none)
  else match c.workspace.files.readSnapshot false path with
    | .error e => ({ path, error := some e }, none)
    | .ok (content, _) => c.takeUp path content

theorem takeUp_foreign {c : RunContext} {path : String} {content : ByteArray}
    (h : (!c.options.skipDetection && !Language.isSolidity path content) = true) :
    c.takeUp path content = ({ path, skipped := true }, none) :=
  if_pos h

theorem takeUp_source {c : RunContext} {path : String} {content : ByteArray}
    (h : (!c.options.skipDetection && !Language.isSolidity path content) = false) :
    c.takeUp path content =
      match c.parser path content with
      | .error e => ({ path, error := some (.within ("parse " ++ path) e) }, none)
      | .ok f => ({ path }, some f) :=
  if_neg (by simp [h])

theorem freshLook_of_read {c : RunContext} {path : String} (seen : c.ignored.ignores path = false)
    {content : ByteArray} {info : Snapshot}
    (read : c.workspace.files.readSnapshot false path = .ok (content, info)) :
    c.freshLook path = c.takeUp path content := by
  simp only [freshLook, seen, Bool.false_eq_true, if_false, read]

/-- A file that is taken up is parsed, or has an outcome without a tree. -/
theorem takeUp_cases (c : RunContext) (path : String) (content : ByteArray) :
    (((c.takeUp path content).1.error.isSome || (c.takeUp path content).1.skipped) = true ∧
      (c.takeUp path content).2 = none) ∨
    ∃ f, c.parser path content = .ok f ∧ c.takeUp path content = ({ path }, some f) := by
  cases h : !c.options.skipDetection && !Language.isSolidity path content with
  | true => rw [takeUp_foreign h]; exact Or.inl ⟨rfl, rfl⟩
  | false =>
      rw [takeUp_source h]
      cases c.parser path content with
      | error e => exact Or.inl ⟨rfl, rfl⟩
      | ok f => exact Or.inr ⟨f, rfl, rfl⟩

/-- The files that a run finds stand in order, each once. -/
theorem found_sorted {c : RunContext} {cancelled : Bool} {files : List String}
    {ignored : IgnoreRules} (h : c.found cancelled = .ok (files, ignored)) :
    files.Pairwise (· < ·) := by
  simp only [found, discover, bind, Except.bind] at h
  split at h
  · cases h
  · rename_i listed discovered
    have sorted : listed.Pairwise (· < ·) := by
      split at discovered
      · cases discovered
      · split at discovered
        · cases discovered
        · cases discovered
          exact sorted_keys _
    split at h
    · cases h
      exact sorted
    · cases h

end RunContext

/-! ### What is remembered of a path -/

namespace Runner

/-- What is kept of a path, and the tree that the session holds for it. -/
def memory (r : Runner) (path : String) : Option Kept × Option SourceFile :=
  (r.kept.lookup path, r.session.file? path)

theorem lookup_filter_key {α : Type} (q : String → Bool) (path : String)
    (entries : List (String × α)) :
    (entries.filter fun e => q e.1).lookup path = if q path then entries.lookup path else none := by
  induction entries with
  | nil => simp
  | cons e entries ih =>
      obtain ⟨key, value⟩ := e
      by_cases own : path = key
      · subst own
        cases hq : q path with
        | true => simp [hq]
        | false => simpa [hq] using ih
      · have other : (path == key) = false := beq_eq_false_iff_ne.mpr own
        cases hq : q key with
        | true => simpa [hq, List.lookup_cons, other] using ih
        | false => simpa [hq, List.lookup_cons, other] using ih

theorem memory_forget (r : Runner) (gone path : String) :
    (r.forget gone).memory path = if path = gone then (none, none) else r.memory path := by
  unfold memory forget
  rw [lookup_filter_key (· != gone), Session.file?_remove]
  by_cases h : path = gone
  · simp [h]
  · simp [h]

theorem memory_keep (r : Runner) (own : String) (k : Kept) (path : String) :
    (r.keep own k).memory path =
      if path = own then (some k, r.session.file? path) else r.memory path := by
  unfold memory keep
  rw [List.lookup_cons, lookup_filter_key (· != own)]
  by_cases h : path = own
  · simp [h]
  · simp [h, beq_eq_false_iff_ne.mpr h]

theorem memory_forgetMissing (r : Runner) (files : List String) {path : String}
    (h : path ∈ files) : (r.forgetMissing files).memory path = r.memory path := by
  have there : files.contains path = true := List.contains_iff_mem.mpr h
  have trees := Session.find?_filter_path files.contains path r.session.files
  unfold memory forgetMissing Session.file?
  rw [lookup_filter_key files.contains, trees, there]
  rfl

theorem memory_forgetMissing_of_not_mem (r : Runner) (files : List String) {path : String}
    (h : path ∉ files) : (r.forgetMissing files).memory path = (none, none) := by
  have gone : files.contains path = false := by simpa using h
  have trees := Session.find?_filter_path files.contains path r.session.files
  unfold memory forgetMissing Session.file?
  rw [lookup_filter_key files.contains, trees, gone]
  rfl

/-- Whether a file is known from the last run depends on what is remembered of its path. -/
theorem reuse?_congr {r r' : Runner} {path : String} (h : r.memory path = r'.memory path)
    (t : FileTree) (cancelled : Bool) : r.reuse? t cancelled path = r'.reuse? t cancelled path := by
  obtain ⟨kept, tree⟩ := Prod.mk.inj h
  unfold reuse?
  rw [kept, tree]

theorem reuse?_of_unknown {r : Runner} {path : String} (h : r.memory path = (none, none))
    (t : FileTree) (cancelled : Bool) : r.reuse? t cancelled path = none := by
  have kept : r.kept.lookup path = none := congrArg Prod.fst h
  unfold reuse?
  rw [kept]

/-- What a look comes to for a runner that may know the file from before. -/
def knownLook (r : Runner) (c : RunContext) (path : String) : FileOutcome × Option SourceFile :=
  if c.ignored.ignores path then c.freshLook path
  else (r.reuse? c.workspace.files false path).getD (c.freshLook path)

theorem knownLook_congr {r r' : Runner} {path : String} (h : r.memory path = r'.memory path)
    (c : RunContext) : r.knownLook c path = r'.knownLook c path := by
  unfold knownLook
  rw [reuse?_congr h]

theorem knownLook_of_unknown {r : Runner} {path : String} (h : r.memory path = (none, none))
    (c : RunContext) : r.knownLook c path = c.freshLook path := by
  unfold knownLook
  rw [reuse?_of_unknown h]
  exact ite_self _

/-- What a look at a file leaves in memory. -/
def remembered (r : Runner) (c : RunContext) (path : String) : Option Kept × Option SourceFile :=
  if c.ignored.ignores path then (none, none)
  else if (r.reuse? c.workspace.files false path).isSome then r.memory path
  else match c.workspace.files.readSnapshot false path with
    | .error _ => (none, none)
    | .ok (content, info) =>
      (some ⟨info, (c.takeUp path content).1⟩, (c.takeUp path content).2)

theorem remembered_congr {r r' : Runner} {path : String} (h : r.memory path = r'.memory path)
    (c : RunContext) : r.remembered c path = r'.remembered c path := by
  unfold remembered
  rw [reuse?_congr h, h]

end Runner

/-- What can be remembered of a path after the runs of the past: nothing, or what one of them read
there and made of it. -/
inductive Recalled (past : List RunContext) (path : String) :
    Option Kept × Option SourceFile → Prop where
  | unknown : Recalled past path (none, none)
  | read {c : RunContext} {files : List String} {ignored : IgnoreRules} {content : ByteArray}
      {info : Snapshot} {o : FileOutcome} {f : Option SourceFile} (hc : c ∈ past)
      (found : c.found false = .ok (files, ignored)) (listed : path ∈ files)
      (read : c.workspace.files.readSnapshot false path = .ok (content, info))
      (made : c.takeUp path content = (o, f)) : Recalled past path (some ⟨info, o⟩, f)

/-- The runner remembers nothing but what the runs of the past came to. -/
structure Remembers (past : List RunContext) (r : Runner) : Prop where
  order : r.session.InOrder
  recalled : ∀ path, Recalled past path (r.memory path)

theorem Recalled.mono {past past' : List RunContext} (h : ∀ c ∈ past, c ∈ past') {path : String}
    {m : Option Kept × Option SourceFile} (recalled : Recalled past path m) :
    Recalled past' path m := by
  cases recalled with
  | unknown => exact .unknown
  | read hc found listed read made => exact .read (h _ hc) found listed read made

theorem Remembers.mono {past past' : List RunContext} (h : ∀ c ∈ past, c ∈ past') {r : Runner}
    (remembers : Remembers past r) : Remembers past' r :=
  ⟨remembers.order, fun path => (remembers.recalled path).mono h⟩

/-- A runner that has not run yet. -/
def newRunner (rules : List Rule) : Runner := { session := { rules } }

theorem remembers_newRunner (rules : List Rule) : Remembers [] (newRunner rules) :=
  ⟨List.Pairwise.nil, fun _ => .unknown⟩

/-- A look at a file that is not ignored: it has failed or passed the file over, or it has a
tree. -/
def Settled (path : String) (look : FileOutcome × Option SourceFile) : Prop :=
  ((look.1.error.isSome || look.1.skipped) = true ∧ look.2 = none) ∨
    ∃ f, look = ({ path }, some f)

theorem settled_takeUp (c : RunContext) (path : String) (content : ByteArray) :
    Settled path (c.takeUp path content) :=
  (c.takeUp_cases path content).imp_right fun ⟨f, _, made⟩ => ⟨f, made⟩

/-- What is remembered of a file is reused as long as the file is unchanged. -/
theorem Runner.reuse?_of_memory {r : Runner} {path : String} {info : Snapshot}
    {look : FileOutcome × Option SourceFile} (known : r.memory path = (some ⟨info, look.1⟩, look.2))
    (settled : Settled path look) {t : FileTree} (same : t.changed false (some info) = .ok false) :
    r.reuse? t false path = some look := by
  obtain ⟨o, f⟩ := look
  have kept : r.kept.lookup path = some ⟨info, o⟩ := congrArg Prod.fst known
  have tree : r.session.file? path = f := congrArg Prod.snd known
  simp only [Runner.reuse?, kept, same, tree]
  -- The outcome says whether there is a tree, and the session has it.
  rcases settled with ⟨bad, rfl⟩ | ⟨g, ⟨⟩⟩
  · rw [if_pos bad]
  · rfl

/-- What is reused is the look of a run of the past at a file that has not changed since. -/
theorem Recalled.of_reuse? {past : List RunContext} {path : String} {r : Runner}
    (recalled : Recalled past path (r.memory path)) {t : FileTree}
    {look : FileOutcome × Option SourceFile} (h : r.reuse? t false path = some look) :
    ∃ c ∈ past, ∃ files ignored content info, c.found false = .ok (files, ignored) ∧ path ∈ files ∧
      c.workspace.files.readSnapshot false path = .ok (content, info) ∧
      t.changed false (some info) = .ok false ∧ c.takeUp path content = look ∧
      r.memory path = (some ⟨info, look.1⟩, look.2) := by
  generalize hm : r.memory path = m at recalled
  cases recalled with
  | unknown => rw [Runner.reuse?_of_unknown hm] at h; cases h
  | @read c files ignored content info o f hc found listed read made =>
      have same : t.changed false (some info) = .ok false := by
        have kept : r.kept.lookup path = some ⟨info, o⟩ := congrArg Prod.fst hm
        simp only [Runner.reuse?, kept] at h
        split at h
        · assumption
        · cases h
      have settled : Settled path (o, f) := made ▸ settled_takeUp c path content
      have again := @Runner.reuse?_of_memory r path info (o, f) hm settled t same
      cases h.symm.trans again
      exact ⟨c, hc, files, ignored, content, info, found, listed, read, same, made, rfl⟩

theorem Recalled.tree_of_reuse? {past : List RunContext} {path : String} {r : Runner}
    (recalled : Recalled past path (r.memory path)) {t : FileTree}
    {look : FileOutcome × Option SourceFile} (h : r.reuse? t false path = some look) :
    r.session.file? path = look.2 := by
  obtain ⟨_, _, _, _, _, _, _, _, _, _, _, known⟩ := recalled.of_reuse? h
  exact congrArg Prod.snd known

/-! ### One look -/

section

variable {c : RunContext} {s s' : RunState} {path : String} {o : FileOutcome}
  {f : Option SourceFile}

theorem asking_of_calm (calm : c.Calm) (hs : s.cancelled = false) (path : String) :
    c.asking s path = c.parser := by
  funext p content
  simp [RunContext.asking, hs, calm path]

theorem KeepsPaths.asking (names : KeepsPaths c.parser) : KeepsPaths (c.asking s path) := by
  intro p content g accepted
  unfold RunContext.asking at accepted
  split at accepted
  · cases accepted
  · exact names p content g accepted

/-- **One look** comes to what is recalled; the run goes on, with the same rules. -/
theorem Looks.recalls (h : Looks c s path o f s') (calm : c.Calm) (hs : s.cancelled = false) :
    (o, f) = s.runner.knownLook c path ∧ s'.cancelled = false ∧
      s'.runner.session.rules = s.runner.session.rules := by
  have going : (s.ask c path).cancelled = false := by simp [RunState.ask, hs, calm path]
  unfold Runner.knownLook RunContext.freshLook
  cases h with
  | ignored hi => exact ⟨by simp [hi], hs, rfl⟩
  | reused hi hr =>
      rw [hs] at hr
      exact ⟨by simp [hi, hr], hs, rfl⟩
  | unreadable hi hr h =>
      rw [hs] at hr h
      exact ⟨by simp [hi, hr, h], hs, rfl⟩
  | foreign hi hr h hl =>
      rw [hs] at hr h
      exact ⟨by simp [hi, hr, h, RunContext.takeUp_foreign hl], hs, rfl⟩
  | refused hi hr h hl hp =>
      rw [hs] at hr h
      obtain ⟨reason, refused, rfl⟩ := Session.parse_error (asking_of_calm calm hs path ▸ hp)
      exact ⟨by simp [hi, hr, h, RunContext.takeUp_source hl, refused], going, rfl⟩
  | parsed hi hr h hl hp =>
      rw [hs] at hr h
      obtain ⟨accepted, rfl⟩ := Session.parse_ok (asking_of_calm calm hs path ▸ hp)
      exact ⟨by simp [hi, hr, h, RunContext.takeUp_source hl, accepted], going, rfl⟩

/-- One look changes what is remembered of its own path only. -/
theorem Looks.memory_other (h : Looks c s path o f s') (names : KeepsPaths c.parser)
    {other : String} (ne : other ≠ path) : s'.runner.memory other = s.runner.memory other := by
  cases h with
  | reused _ _ => rfl
  | ignored _ | unreadable _ _ _ => exact (Runner.memory_forget _ _ _).trans (if_neg ne)
  | foreign _ _ _ _ | refused _ _ _ _ _ =>
      refine (Runner.memory_keep _ _ _ _).trans ?_
      rw [if_neg ne, Runner.memory_forget, if_neg ne]
  | @parsed content info g session _ _ _ _ hp =>
      obtain ⟨accepted, rfl⟩ := Session.parse_ok hp
      have own : g.path = path := names.asking path content g accepted
      refine (Runner.memory_keep _ _ _ _).trans ?_
      rw [if_neg ne]
      unfold Runner.memory
      rw [Session.file?_add, if_neg (own ▸ Ne.symm ne)]

theorem Looks.order (h : Looks c s path o f s') (order : s.runner.session.InOrder) :
    s'.runner.session.InOrder := by
  cases h with
  | reused _ _ => exact order
  | ignored _ | unreadable _ _ _ | foreign _ _ _ _ | refused _ _ _ _ _ => exact order.filter _
  | parsed _ _ _ _ hp =>
      obtain ⟨-, rfl⟩ := Session.parse_ok hp
      exact order.add _

/-- **One look** leaves in memory what it has read and what it made of it. -/
theorem Looks.memory_own (h : Looks c s path o f s') (calm : c.Calm) (names : KeepsPaths c.parser)
    (hs : s.cancelled = false) : s'.runner.memory path = s.runner.remembered c path := by
  have forgotten : (s.runner.forget path).memory path = (none, none) := by
    rw [Runner.memory_forget, if_pos rfl]
  have gone : (s.runner.forget path).session.file? path = none := congrArg Prod.snd forgotten
  have kept : ∀ k : Kept, ((s.runner.forget path).keep path k).memory path = (some k, none) := by
    intro k
    rw [Runner.memory_keep, if_pos rfl, gone]
  unfold Runner.remembered
  cases h with
  | ignored hi => rw [if_pos hi]; exact forgotten
  | reused hi hr => rw [hs] at hr; simp [hi, hr]
  | unreadable hi hr h => rw [hs] at hr h; simpa [hi, hr, h] using forgotten
  | foreign hi hr h hl =>
      rw [hs] at hr h
      simpa [hi, hr, h, RunContext.takeUp_foreign hl] using kept _
  | refused hi hr h hl hp =>
      rw [hs] at hr h
      obtain ⟨reason, refused, rfl⟩ := Session.parse_error (asking_of_calm calm hs path ▸ hp)
      simpa [hi, hr, h, RunContext.takeUp_source hl, refused] using kept _
  | @parsed content info g session hi hr h hl hp =>
      rw [hs] at hr h
      obtain ⟨accepted, rfl⟩ := Session.parse_ok (asking_of_calm calm hs path ▸ hp)
      have there : (s.runner.session.add g).file? path = some g := by
        rw [Session.file?_add, if_pos (names path content g accepted)]
      have own := (Runner.memory_keep { s.runner with session := s.runner.session.add g } path
        ⟨info, { path }⟩ path).trans (if_pos rfl)
      rw [there] at own
      simpa [hi, hr, h, RunContext.takeUp_source hl, accepted] using own

/-- What a look leaves in memory has its tree. -/
theorem Recalled.tree_remembered {past : List RunContext} {r : Runner}
    (recalled : Recalled past path (r.memory path)) :
    (r.remembered c path).2 = (r.knownLook c path).2 := by
  unfold Runner.remembered Runner.knownLook RunContext.freshLook
  split
  · rfl
  · cases hr : r.reuse? c.workspace.files false path with
    | some look => exact recalled.tree_of_reuse? hr
    | none =>
        cases h : c.workspace.files.readSnapshot false path with
        | error e => rfl
        | ok read => rfl

/-- What a look leaves in memory is a look of the past, if this run counts among those of the
past. -/
theorem Recalled.remembered {past : List RunContext} {r : Runner}
    (recalled : Recalled past path (r.memory path))
    (admits : ∀ content info, c.workspace.files.readSnapshot false path = .ok (content, info) →
      Recalled past path (some ⟨info, (c.takeUp path content).1⟩, (c.takeUp path content).2)) :
    Recalled past path (r.remembered c path) := by
  unfold Runner.remembered
  split
  · exact .unknown
  · split
    · exact recalled
    · split
      · exact .unknown
      · rename_i read
        exact admits _ _ read

end

/-! ### A whole run -/

/-- **Look after look.**  A run over different paths comes to what is recalled of each in the
beginning, and changes what is remembered of these paths as looks at them do. -/
theorem lookAll_knownLook {c : RunContext} (calm : c.Calm) (names : KeepsPaths c.parser)
    {paths : List String} (nodup : paths.Nodup) :
    ∀ {s : RunState}, s.cancelled = false →
      ∃ s' : RunState, s.lookAll c paths = (.ok (paths.map (s.runner.knownLook c)), s') ∧
        s'.runner.session.rules = s.runner.session.rules ∧
        (s.runner.session.InOrder → s'.runner.session.InOrder) ∧
        ∀ path, s'.runner.memory path =
          if path ∈ paths then s.runner.remembered c path else s.runner.memory path := by
  induction paths with
  | nil =>
      intro s hs
      exact ⟨s, by simp [RunState.lookAll, hs], rfl, id, fun path => rfl⟩
  | cons first rest ih =>
      intro s hs
      obtain ⟨fresh, nodup⟩ := List.nodup_cons.mp nodup
      have looks := looks_look c s first
      obtain ⟨recalls, going, rules⟩ := looks.recalls calm hs
      have others : ∀ path, path ≠ first →
          (s.look c first).2.2.runner.memory path = s.runner.memory path :=
        fun path ne => looks.memory_other names ne
      obtain ⟨s', run, rules', order, memory⟩ := ih nodup going
      have same : rest.map ((s.look c first).2.2.runner.knownLook c) =
          rest.map (s.runner.knownLook c) := by
        refine List.map_congr_left fun path h => Runner.knownLook_congr (others path ?_) c
        exact fun eq => fresh (eq ▸ h)
      refine ⟨s', ?_, rules'.trans rules, fun h => order (looks.order h), fun path => ?_⟩
      · rw [RunState.lookAll, if_neg (by simp [hs])]
        simp only [run, same, Except.map, List.map_cons, ← recalls]
      · rw [memory path]
        by_cases h : path = first
        · subst h
          rw [if_neg fresh, if_pos List.mem_cons_self, looks.memory_own calm names hs]
        · rw [others path h, Runner.remembered_congr (others path h) c]
          simp [h]

/-- The result of a run whose looks came to the given outcomes and trees. -/
def resultOf (rules : List Rule) (looks : List (FileOutcome × Option SourceFile)) : RunResult :=
  .ofOutcomes (looks.map (Runner.lintOutcome { rules, files := looks.filterMap (·.2) }))

theorem lintOutcome_congr {s t : Session} (rules : s.rules = t.rules) (files : s.files = t.files) :
    Runner.lintOutcome s = Runner.lintOutcome t := by
  funext look
  obtain ⟨o, f⟩ := look
  cases f with
  | none => rfl
  | some f => simp only [Runner.lintOutcome, rules, files]

namespace Runner

/-- A tree that is recalled for a path has the path. -/
theorem path_of_knownLook {r : Runner} (c : RunContext) (names : KeepsPaths c.parser)
    {past : List RunContext} {path : String} (recalled : Recalled past path (r.memory path))
    {f : SourceFile} (h : (r.knownLook c path).2 = some f) : f.path = path := by
  have afresh : (c.freshLook path).2 = some f → f.path = path := by
    intro h
    unfold RunContext.freshLook at h
    split at h
    · cases h
    · split at h
      · cases h
      · rename_i content info _
        rcases c.takeUp_cases path content with ⟨-, none_⟩ | ⟨g, accepted, made⟩
        · rw [none_] at h; cases h
        · rw [made] at h
          cases h
          exact names path content f accepted
  unfold knownLook at h
  split at h
  · exact afresh h
  · cases hr : r.reuse? c.workspace.files false path with
    | none => rw [hr] at h; exact afresh h
    | some look =>
        rw [hr] at h
        exact Session.path_of_file? ((recalled.tree_of_reuse? hr).trans h)

theorem run_of_not_found {c : RunContext} {e : Failure} (h : c.found false = .error e)
    (r : Runner) : r.run c false = ⟨.error e, r, []⟩ := by
  rw [run_eq, h]

/-- A runner that remembers what looks at some files leave, and nothing else, has the trees of these
looks. -/
theorem files_eq_of_looked {r s : Runner} {c : RunContext} {past : List RunContext}
    (names : KeepsPaths c.parser) (remembers : Remembers past r) {files : List String}
    (sorted : files.Pairwise (· < ·)) (inOrder : s.session.InOrder)
    (looked : ∀ path ∈ files, s.memory path = r.remembered c path)
    (gone : ∀ path, path ∉ files → s.memory path = (none, none)) :
    s.session.files = (files.map (r.knownLook c)).filterMap (·.2) := by
  have path_of : ∀ path f, (r.knownLook c path).2 = some f → f.path = path :=
    fun path f h => path_of_knownLook c names (remembers.recalled path) h
  refine Session.files_eq inOrder ?_ fun f => ?_
  · rw [List.filterMap_map, List.pairwise_filterMap]
    refine sorted.imp fun lt a ha b hb => ?_
    rw [path_of _ a ha, path_of _ b hb]
    exact lt
  · rw [List.filterMap_map, List.mem_filterMap]
    by_cases h : f.path ∈ files
    · have tree : s.session.file? f.path = (r.knownLook c f.path).2 :=
        (congrArg Prod.snd (looked f.path h)).trans (remembers.recalled f.path).tree_remembered
      rw [tree]
      refine ⟨fun eq => ⟨_, h, eq⟩, fun ⟨path, _, eq⟩ => ?_⟩
      rw [path_of path f eq]
      exact eq
    · have tree : s.session.file? f.path = none := congrArg Prod.snd (gone f.path h)
      rw [tree]
      refine ⟨fun eq => ?_, fun ⟨path, hp, eq⟩ => absurd (path_of path f eq ▸ hp) h⟩
      cases eq

/-- **A run by recollection.**  The result of a run, and the files that its session holds in the
end, are made of what is recalled of the files that the run finds; it remembers what looks at these
leave, and nothing else. -/
theorem run_of_found {c : RunContext} {past : List RunContext} (calm : c.Calm)
    (names : KeepsPaths c.parser) {r : Runner} (remembers : Remembers past r)
    {files : List String} {ignored : IgnoreRules} (found : c.found false = .ok (files, ignored)) :
    (r.run c false).result =
      .ok (resultOf r.session.rules (files.map (r.knownLook { c with ignored }))) ∧
    (r.run c false).runner.session.files =
      (files.map (r.knownLook { c with ignored })).filterMap (·.2) ∧
    (r.run c false).runner.session.rules = r.session.rules ∧
    (∀ path ∈ files,
      (r.run c false).runner.memory path = r.remembered { c with ignored } path) ∧
    Remembers (c :: past) (r.run c false).runner := by
  have sorted := RunContext.found_sorted found
  have nodup : files.Nodup :=
    List.Pairwise.imp (fun {a b} (lt : a < b) (eq : a = b) => String.lt_irrefl b (eq ▸ lt)) sorted
  -- The runner as the looks find it: it has forgotten what the run did not find.
  let r' := ({ r with session := { r.session with excluded := ignored.ignores } } :
    Runner).forgetMissing files
  have known : ∀ path ∈ files, r'.memory path = r.memory path :=
    fun path h => memory_forgetMissing _ files h
  have same : ∀ path ∈ files,
      r'.knownLook { c with ignored } path = r.knownLook { c with ignored } path :=
    fun path h => knownLook_congr (known path h) _
  obtain ⟨s, run, rules, order, memory⟩ :=
    @lookAll_knownLook { c with ignored } calm names files nodup { runner := r' } rfl
  have inOrder := order (remembers.order.filter _)
  have looked : ∀ path ∈ files, s.runner.memory path = r.remembered { c with ignored } path := by
    intro path h
    rw [memory path, if_pos h]
    exact remembered_congr (known path h) _
  have gone : ∀ path, path ∉ files → s.runner.memory path = (none, none) := by
    intro path h
    rw [memory path, if_neg h]
    exact memory_forgetMissing_of_not_mem _ files h
  have final : Remembers (c :: past) s.runner := by
    refine ⟨inOrder, fun path => ?_⟩
    by_cases h : path ∈ files
    · rw [looked path h]
      refine ((remembers.recalled path).mono fun _ => List.mem_cons_of_mem c).remembered ?_
      exact fun content info read => .read List.mem_cons_self found h read rfl
    · exact gone path h ▸ .unknown
  have files_eq : s.runner.session.files =
      (files.map (r.knownLook { c with ignored })).filterMap (·.2) :=
    files_eq_of_looked (c := { c with ignored }) names remembers sorted inOrder looked gone
  rw [List.map_congr_left same] at run
  have looks : r.looked c false files ignored = _ := run
  rw [run_eq, found]
  simp only [looks]
  refine ⟨?_, files_eq, rules, looked, final⟩
  rw [resultOf, lintOutcome_congr (t := { rules := r.session.rules, files := _ }) rules files_eq]

end Runner

/-! ### Equal results -/

theorem settled_freshLook {c : RunContext} {path : String}
    (seen : ¬ c.ignored.ignores path = true) : Settled path (c.freshLook path) := by
  unfold RunContext.freshLook
  rw [if_neg seen]
  split
  · exact Or.inl ⟨rfl, rfl⟩
  · exact settled_takeUp c path _

theorem settled_knownLook {c : RunContext} {past : List RunContext} {r : Runner} {path : String}
    (recalled : Recalled past path (r.memory path)) (seen : ¬ c.ignored.ignores path = true) :
    Settled path (r.knownLook c path) := by
  unfold Runner.knownLook
  rw [if_neg seen]
  cases hr : r.reuse? c.workspace.files false path with
  | none => exact settled_freshLook seen
  | some look =>
      obtain ⟨c', -, -, -, content, -, -, -, -, -, made, -⟩ := recalled.of_reuse? hr
      exact made ▸ settled_takeUp c' path content

theorem file_lintFile (rules : List Rule) (file : SourceFile) (files : List SourceFile) :
    (lintFile rules file files).file = some file := by
  unfold lintFile
  split <;> rfl

/-- The outcome of a file shows the look at it: how it failed, or which tree it had. -/
theorem eq_of_lintOutcome_eq {s t : Session} {path : String}
    {a b : FileOutcome × Option SourceFile} (ha : Settled path a) (hb : Settled path b)
    (h : Runner.lintOutcome s a = Runner.lintOutcome t b) : a = b := by
  obtain ⟨o, x⟩ := a
  obtain ⟨o', y⟩ := b
  rcases ha with ⟨bad, rfl⟩ | ⟨f, ⟨⟩⟩
  · rcases hb with ⟨-, rfl⟩ | ⟨g, ⟨⟩⟩
    · exact congrArg (·, none) h
    · have eq : o = _ := h
      rw [eq] at bad
      cases bad
  · rcases hb with ⟨bad, rfl⟩ | ⟨g, ⟨⟩⟩
    · have eq : _ = o' := h
      rw [← eq] at bad
      cases bad
    · have results := congrArg FileOutcome.result h
      have trees := congrArg FileResult.file (Option.some.inj results)
      rw [file_lintFile, file_lintFile] at trees
      rw [Option.some.inj trees]

/-- **Equal results.**  A run comes to the result of a new runner exactly when what it recalls of
every file is what a fresh look comes to. -/
theorem Runner.result_eq_iff {c : RunContext} {past : List RunContext} (calm : c.Calm)
    (names : KeepsPaths c.parser) {r : Runner} (remembers : Remembers past r)
    {files : List String} {ignored : IgnoreRules} (found : c.found false = .ok (files, ignored)) :
    (r.run c false).result = ((newRunner r.session.rules).run c false).result ↔
      ∀ path ∈ files,
        r.knownLook { c with ignored } path = ({ c with ignored } : RunContext).freshLook path := by
  obtain ⟨result, -⟩ := run_of_found calm names remembers found
  obtain ⟨result', -⟩ := run_of_found calm names (remembers_newRunner r.session.rules) found
  have blank : files.map ((newRunner r.session.rules).knownLook { c with ignored }) =
      files.map ({ c with ignored } : RunContext).freshLook :=
    List.map_congr_left fun path _ => knownLook_of_unknown rfl _
  rw [result, result', blank]
  refine ⟨fun h path listed => ?_, fun h => by rw [List.map_congr_left h]; rfl⟩
  have outcomes := congrArg RunResult.files (Except.ok.inj h)
  simp only [resultOf, RunResult.ofOutcomes, List.map_map] at outcomes
  have own := List.map_inj_left.mp outcomes path listed
  by_cases seen : ignored.ignores path = true
  · unfold knownLook
    exact if_pos seen
  · exact eq_of_lintOutcome_eq (settled_knownLook (remembers.recalled path) seen)
      (settled_freshLook seen) own

end SolidityLint
