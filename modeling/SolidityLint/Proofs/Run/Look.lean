import SolidityLint.Proofs.Run.Discovery
import SolidityLint.Run.Runner

/-!
# Run — what a look at a file can do

`Looks` lists the six ways in which a run takes up one file: it is ignored, known from the last run,
unreadable, not Solidity, refused by the parser, or parsed.  Each says under which conditions it
is taken, which outcome and tree it gives, and what becomes of the run.  `looks_look` is the
inversion of `RunState.look`, and `looks_of_mem_lookAll` follows an outcome of a whole run back to
its look.
-/

namespace SolidityLint

/-- The parser as a run asks it: once the run is called off it refuses. -/
def RunContext.asking (c : RunContext) (s : RunState) (path : String) : SourceParser := fun p b =>
  if s.cancelled || c.interrupts path then .error .cancelled else c.parser p b

/-- The run after the parser was asked for a path. -/
def RunState.ask (c : RunContext) (s : RunState) (path : String) : RunState :=
  { s with asked := path :: s.asked, cancelled := s.cancelled || c.interrupts path }

/-- A look at the file of a path in the run `s` gives an outcome, a tree if there is one, and the
run that goes on. -/
inductive Looks (c : RunContext) (s : RunState) (path : String) :
    FileOutcome → Option SourceFile → RunState → Prop where
  | ignored (hi : c.ignored.ignores path = true) :
      Looks c s path
        { path, excluded := true, result := some { file := some (.ofBytes path .empty none) } } none
        { s with runner := s.runner.forget path }
  | reused {o : FileOutcome} {f : Option SourceFile} (hi : c.ignored.ignores path = false)
      (hr : s.runner.reuse? c.workspace.files s.cancelled path = some (o, f)) : Looks c s path o f s
  | unreadable {e : Failure} (hi : c.ignored.ignores path = false)
      (hr : s.runner.reuse? c.workspace.files s.cancelled path = none)
      (h : c.workspace.files.readSnapshot s.cancelled path = .error e) :
      Looks c s path { path, error := some e } none { s with runner := s.runner.forget path }
  | foreign {content : ByteArray} {info : Snapshot} (hi : c.ignored.ignores path = false)
      (hr : s.runner.reuse? c.workspace.files s.cancelled path = none)
      (h : c.workspace.files.readSnapshot s.cancelled path = .ok (content, info))
      (hl : (!c.options.skipDetection && !Language.isSolidity path content) = true) :
      Looks c s path { path, skipped := true } none
        { s with runner := (s.runner.forget path).keep path ⟨info, { path, skipped := true }⟩ }
  | refused {content : ByteArray} {info : Snapshot} {e : Failure}
      (hi : c.ignored.ignores path = false)
      (hr : s.runner.reuse? c.workspace.files s.cancelled path = none)
      (h : c.workspace.files.readSnapshot s.cancelled path = .ok (content, info))
      (hl : (!c.options.skipDetection && !Language.isSolidity path content) = false)
      (hp : s.runner.session.parse (c.asking s path) path content = .error e) :
      Looks c s path { path, error := some e } none
        { s.ask c path with
          runner := (s.runner.forget path).keep path ⟨info, { path, error := some e }⟩ }
  | parsed {content : ByteArray} {info : Snapshot} {f : SourceFile} {session : Session}
      (hi : c.ignored.ignores path = false)
      (hr : s.runner.reuse? c.workspace.files s.cancelled path = none)
      (h : c.workspace.files.readSnapshot s.cancelled path = .ok (content, info))
      (hl : (!c.options.skipDetection && !Language.isSolidity path content) = false)
      (hp : s.runner.session.parse (c.asking s path) path content = .ok (f, session)) :
      Looks c s path { path } (some f)
        { s.ask c path with runner := { s.runner with session }.keep path ⟨info, { path }⟩ }

/-- **Inversion of a look.** -/
theorem looks_look (c : RunContext) (s : RunState) (path : String) :
    Looks c s path (s.look c path).1 (s.look c path).2.1 (s.look c path).2.2 := by
  unfold RunState.look
  -- The cases are the questions that a look asks, in their order.
  cases hi : c.ignored.ignores path with
  | true => exact .ignored hi
  | false =>
      rw [if_neg Bool.false_ne_true]
      cases hr : s.runner.reuse? c.workspace.files s.cancelled path with
      | some p => exact .reused hi hr
      | none =>
          cases h : c.workspace.files.readSnapshot s.cancelled path with
          | error e => exact .unreadable hi hr h
          | ok p =>
              obtain ⟨content, info⟩ := p
              cases hl : !c.options.skipDetection && !Language.isSolidity path content with
              | true => simp only [hl, if_true]; exact .foreign hi hr h hl
              | false =>
                  simp only [hl, Bool.false_eq_true, if_false]
                  split
                  · rename_i e hp
                    exact .refused hi hr h hl hp
                  · rename_i f session hp
                    exact .parsed hi hr h hl hp

/-- A look does what its conditions allow, and nothing else. -/
theorem look_eq_of_looks {c : RunContext} {s s' : RunState} {path : String} {o : FileOutcome}
    {f : Option SourceFile} (h : Looks c s path o f s') : s.look c path = (o, f, s') := by
  unfold RunState.look
  cases h with
  | ignored hi => rw [if_pos hi]
  | reused hi hr => simp only [hi, hr, Bool.false_eq_true, if_false]
  | unreadable hi hr h => simp only [hi, hr, h, Bool.false_eq_true, if_false]
  | foreign hi hr h hl => simp only [hi, hr, h, hl, Bool.false_eq_true, if_false, if_true]
  | refused hi hr h hl hp =>
      unfold RunContext.asking at hp
      simp only [hi, hr, h, hl, hp, Bool.false_eq_true, if_false]
      rfl
  | parsed hi hr h hl hp =>
      unfold RunContext.asking at hp
      simp only [hi, hr, h, hl, hp, Bool.false_eq_true, if_false]
      rfl

/-- **A whole run.**  Every outcome comes from a look at some state of the run. -/
theorem looks_of_mem_lookAll {c : RunContext} {paths : List String} :
    ∀ {s s' : RunState} {outcomes : List (FileOutcome × Option SourceFile)},
      s.lookAll c paths = (.ok outcomes, s') →
      ∀ p ∈ outcomes, ∃ s₁ s₂ path, Looks c s₁ path p.1 p.2 s₂ := by
  induction paths with
  | nil =>
      intro s s' outcomes h p hp
      unfold RunState.lookAll at h
      split at h
      · cases h
      · cases h; exact absurd hp List.not_mem_nil
  | cons path paths ih =>
      intro s s' outcomes h p hp
      unfold RunState.lookAll at h
      split at h
      · cases h
      · cases hrest : (s.look c path).2.2.lookAll c paths with
        | mk rest s₁ =>
            simp only [hrest, Prod.mk.injEq] at h
            obtain ⟨h, -⟩ := h
            cases rest with
            | error e => cases h
            | ok rest =>
                cases h
                rcases List.mem_cons.mp hp with rfl | hp
                · exact ⟨s, _, path, looks_look c s path⟩
                · exact ih hrest p hp

/-! ### The stages of a run -/

/-- The source files of a run, and the ignore files that hold for them. -/
def RunContext.found (c : RunContext) (cancelled : Bool) :
    Except Failure (List String × IgnoreRules) := do
  let files ← discover c.workspace c.options cancelled
  match loadIgnoreFiles c.workspace c.options cancelled with
  | .ok ignored => .ok (files, ignored)
  | .error e => .error (.within "loading ignore files" e)

/-- A run over the path of one file finds that file, and no ignore rules when it reads none. -/
theorem RunContext.found_of_file {c : RunContext} {dir path full : String} {data : FileData}
    (known : c.workspace.workingDir c.options = .ok dir) (paths : c.options.effectivePaths = [path])
    (whole : Path.absolute dir path = full) (there : c.workspace.files.stat full = .ok (.file data))
    (taken : (Filter.ofOptions dir c.options).takes full = true)
    (named : c.options.effectiveIgnoreFile = "-") : c.found false = .ok ([full], {}) := by
  have ignored : loadIgnoreFiles c.workspace c.options false = .ok {} := by
    simp [loadIgnoreFiles, named]
  rw [found, discover_of_file known paths whole there taken, ignored]
  rfl

/-- The looks of a run at the files that it found, with all else forgotten before. -/
def Runner.looked (r : Runner) (c : RunContext) (cancelled : Bool) (files : List String)
    (ignored : IgnoreRules) : Except Failure (List (FileOutcome × Option SourceFile)) × RunState :=
  RunState.lookAll { c with ignored }
    { runner := ({ r with session := { r.session with excluded := ignored.ignores } } :
        Runner).forgetMissing files, cancelled } files

/-- A run finds its files, looks at them, and lints those that have trees. -/
theorem Runner.run_eq (r : Runner) (c : RunContext) (cancelled : Bool) :
    r.run c cancelled =
      match c.found cancelled with
      | .error e => ⟨.error e, r, []⟩
      | .ok (files, ignored) =>
        match r.looked c cancelled files ignored with
        | (.error e, s) => ⟨.error e, s.runner, s.asked.reverse⟩
        | (.ok outcomes, s) =>
          ⟨.ok (.ofOutcomes (outcomes.map (lintOutcome s.runner.session))), s.runner,
            s.asked.reverse⟩ := rfl

/-- **The first run over one file** that is parsed lints that file, among no others. -/
theorem Runner.run_of_parsed {rules : List Rule} {c : RunContext} {path : String}
    {content : ByteArray} {info : Snapshot} {f : SourceFile}
    (found : c.found false = .ok ([path], {}))
    (read : c.workspace.files.readSnapshot false path = .ok (content, info))
    (skips : c.options.skipDetection = true) (calm : c.interrupts path = false)
    (parsed : c.parser path content = .ok f) :
    ∃ report, Runner.run { session := { rules } } c false = report ∧
      report.runner.session.rules = rules ∧ report.runner.session.files = [f] ∧
      report.result = .ok (.ofOutcomes [{ path, result := some (lintFile rules f [f]) }]) := by
  have session : Session.parse { rules, excluded := IgnoreRules.ignores {} }
      (RunContext.asking { c with ignored := {} }
        { runner := { session := { rules, excluded := IgnoreRules.ignores {} } } } path)
      path content = .ok (f, { rules, excluded := IgnoreRules.ignores {}, files := [f] }) := by
    simp [Session.parse, RunContext.asking, calm, parsed, Session.add, Session.insert]
  have look := look_eq_of_looks (.parsed rfl rfl read (by simp [skips]) session :
    Looks { c with ignored := {} }
      { runner := { session := { rules, excluded := IgnoreRules.ignores {} } } }
      path { path } (some f) _)
  rw [Runner.run_eq, found]
  simp only [Runner.looked]
  unfold RunState.lookAll
  simp only [Runner.forgetMissing, List.filter_nil, look, RunState.lookAll, RunState.ask, calm,
    Bool.or_self, Bool.false_eq_true, if_false]
  exact ⟨_, rfl, rfl, rfl, rfl⟩

/-- What a run that ended well came to: outcomes of looks, linted in the session that is left. -/
theorem Runner.run_ok {r : Runner} {c : RunContext} {cancelled : Bool} {res : RunResult}
    (h : (r.run c cancelled).result = .ok res) :
    ∃ outcomes : List (FileOutcome × Option SourceFile),
      res = .ofOutcomes (outcomes.map (lintOutcome (r.run c cancelled).runner.session)) ∧
      ∀ p ∈ outcomes, ∃ c' s₁ s₂ path, Looks c' s₁ path p.1 p.2 s₂ := by
  rw [Runner.run_eq] at h ⊢
  cases hfound : c.found cancelled with
  | error e => rw [hfound] at h; cases h
  | ok found =>
      obtain ⟨files, ignored⟩ := found
      rw [hfound] at h
      cases hlook : r.looked c cancelled files ignored with
      | mk outcomes s =>
          simp only [hlook] at h ⊢
          cases outcomes with
          | error e => cases h
          | ok outcomes =>
              cases h
              exact ⟨outcomes, rfl, fun p hp => ⟨_, looks_of_mem_lookAll hlook p hp⟩⟩

end SolidityLint
