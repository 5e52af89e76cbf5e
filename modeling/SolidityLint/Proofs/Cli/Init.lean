import SolidityLint.Cli.Run
import SolidityLint.Proofs.FileTree.Replace

/-!
# Cli — creating a rule set

The rule set that is created may take the place of an older one, which is copied beside it first.
Whatever fails on the way, the older one is not lost.

* `kept_keepCopy`: what comes of copying a file.
* `saved_trySave`: what comes of writing the rule set.
* `init_spares_old_file`: what comes of both.
* `exists_init_eq_ok`: when a rule set takes the place of a file.
-/

namespace SolidityLint

open FileTree

/-! ### Writing a rule set -/

/-- What comes of writing a rule set: all is as before, or its text stands at the place of the path. -/
inductive RuleSet.Saved (rs : RuleSet) (t : FileTree) (path : String) :
    Except Failure Unit × FileTree → Prop where
  | failed {e : Failure} {t' : FileTree} (alike : Entry.AlikeOutside [] t.root t'.root) :
      Saved rs t path (.error e, t')
  | done {text : String} {t' : FileTree} (rendered : rs.render? (.ofPath path) = some text)
      (replaced : Replaced t path (Utf8.encode text) (.ok (), t')) : Saved rs t path (.ok (), t')

/-- **What comes of writing a rule set.** -/
theorem RuleSet.saved_trySave {t : FileTree} (ordered : t.root.Ordered) (refuse : Refusals)
    (cancelled : Bool) (path : String) (rs : RuleSet) :
    rs.Saved t path (RuleSet.trySave t refuse cancelled path rs) := by
  rw [RuleSet.trySave]
  cases rendered : rs.render? (.ofPath path) with
  | none => exact .failed (.refl _ _)
  | some text =>
      have replaced := replaced_tryReplace ordered refuse cancelled path (Utf8.encode text) 0
      rw [RuleSet.trySaveText]
      generalize t.tryReplace refuse cancelled path (Utf8.encode text) 0 = result at replaced ⊢
      cases replaced with
      | failed _ alike => exact .failed alike
      | done leads solid ordered' there new alike =>
          exact .done rendered (.done leads solid ordered' there new alike)

namespace Cli

variable {α β : Type} {term : Terminal} {host : Host} {given : GivenFlags} {path : String}
  {force : Bool}

/-! ### Running steps -/

theorem run_bind (m : CliM α) (next : α → CliM β) (term : Terminal) :
    (m >>= next).run term = match m.run term with
      | (.ok a, term') => (next a).run term'
      | (.error trouble, term') => (.error trouble, term') := by
  simp only [ExceptT.run, bind, ExceptT.bind, ExceptT.mk, StateT.bind]
  cases m term with
  | mk outcome term' => cases outcome <;> rfl

theorem run_pure (a : α) (term : Terminal) : (pure a : CliM α).run term = (.ok a, term) := rfl

theorem run_throw (trouble : Trouble) (term : Terminal) :
    (throw trouble : CliM α).run term = (.error trouble, term) := rfl

theorem run_get (term : Terminal) : (get : CliM Terminal).run term = (.ok term, term) := rfl

theorem run_modify (f : Terminal → Terminal) (term : Terminal) :
    (modify f : CliM Unit).run term = (.ok (), f term) := rfl

theorem run_named (message : String) (found : Option α) (term : Terminal) :
    (named message found).run term =
      (match found with
        | some a => .ok a
        | none => .error (.config (.plain message)), term) := by
  cases found <;> rfl

/-- Finding the directory to work in changes nothing. -/
theorem exists_workingDir_eq (host : Host) (given : GivenFlags) (term : Terminal) :
    ∃ found, (workingDir host given).run term = (found, term) := by
  rw [workingDir, run_bind]
  cases ({ current := host.current : Workspace }.currentDir) with
  | error e => exact ⟨_, rfl⟩
  | ok dir =>
      dsimp only [working, run_pure]
      split
      · exact ⟨_, rfl⟩
      · rw [run_bind, run_get]
        dsimp only
        split
        · exact ⟨_, rfl⟩
        · split
          · exact ⟨_, rfl⟩
          · exact ⟨_, rfl⟩

/-! ### Keeping a copy -/

/-- It is agreed that a file is replaced. -/
def Agreed (host : Host) (force : Bool) : Prop :=
  force = true ∨ ∃ typed, host.typed = some typed ∧ isYes typed = true

/-- Asking changes no files. -/
theorem exists_confirmReplace_eq (host : Host) (path : String) (force : Bool) (term : Terminal) :
    ∃ answer term', (confirmReplace host path force).run term = (answer, term') ∧
      term'.files = term.files ∧ (answer = .ok () ↔ Agreed host force) := by
  rw [confirmReplace]
  cases force with
  | true => exact ⟨_, _, rfl, rfl, by simp [Agreed]⟩
  | false =>
      cases typed : host.typed with
      | none => exact ⟨_, _, rfl, rfl, by simp [Agreed, typed]⟩
      | some line =>
          refine ⟨if isYes line then .ok () else .error (.config (.plain "existing file kept")),
            { term with err := term.err ++ (path ++ " exists. Overwrite? [y/N] ") }, ?_, rfl, ?_⟩
          · cases yes : isYes line <;> simp [run_bind, printError, run_modify, yes, run_throw]
          · cases yes : isYes line <;> simp [Agreed, typed, yes]

/-- What comes of copying a file that is about to be replaced: all is as before, because there is no
such file or because something failed, or the copy has its content. -/
inductive Kept (host : Host) (path : String) (force : Bool) (t : FileTree) :
    Except Trouble Unit → FileTree → Prop where
  | failed {trouble : Trouble} {t' : FileTree} (alike : Entry.AlikeOutside [] t.root t'.root) :
      Kept host path force t (.error trouble) t'
  | absent {t' : FileTree} (same : t' = t) (none : ∀ e, t.stat path ≠ .ok e) :
      Kept host path force t (.ok ()) t'
  | copied {old : FileData} {t' : FileTree} (there : t.stat path = .ok (.file old))
      (agreed : Agreed host force)
      (replaced : Replaced t (backupPath path) old.content (.ok (), t')) :
      Kept host path force t (.ok ()) t'

/-- **What comes of copying a file.** -/
theorem kept_keepCopy (ordered : term.files.root.Ordered) (host : Host) (path : String) (force : Bool) :
    ∃ outcome term', (keepCopy host path force).run term = (outcome, term') ∧
      Kept host path force term.files outcome term'.files := by
  rw [keepCopy, run_bind, run_get]
  dsimp only
  cases there : term.files.stat path with
  | error trouble =>
      exact ⟨_, _, rfl, .absent rfl fun e other => by cases there.symm.trans other⟩
  | ok e =>
      obtain ⟨answer, term₁, asked, same, agreed⟩ := exists_confirmReplace_eq host path force term
      simp only [run_bind, asked]
      cases answer with
      | error trouble => exact ⟨_, _, rfl, .failed (same ▸ .refl _ _)⟩
      | ok =>
          rw [← same] at there
          have copied := backedUp_tryBackup (same ▸ ordered) host.refuse false path
          simp only [run_get, run_modify]
          generalize term₁.files.tryBackup host.refuse false path = result at copied ⊢
          cases copied with
          | failed alike => exact ⟨_, _, rfl, .failed (same ▸ alike)⟩
          | absent none => cases none.symm.trans there
          | done stands replaced =>
              exact ⟨_, _, rfl, .copied (same ▸ stands) (agreed.mp rfl) (same ▸ replaced)⟩

/-! ### Writing a pack -/

/-- What comes of writing the rule set of a pack. -/
theorem saved_writePack (ordered : term.files.root.Ordered) (host : Host) (path : String)
    (pack : Rules.Pack) :
    ∃ saved outcome term', (writePack host path pack).run term = (outcome, term') ∧
      (packRules pack).Saved term.files path (saved, term'.files) ∧
      (outcome = .ok () ↔ saved = .ok ()) := by
  have written := RuleSet.saved_trySave ordered host.refuse false path (packRules pack)
  simp only [writePack, run_bind, run_get, run_modify]
  generalize RuleSet.trySave term.files host.refuse false path (packRules pack) = result at written ⊢
  obtain ⟨saved, files⟩ := result
  cases saved with
  | error e => exact ⟨_, _, _, rfl, written, by simp⟩
  | ok => exact ⟨_, _, _, rfl, written, by simp⟩

/-! ### Success -/

theorem exists_keepCopy_eq_ok (agreed : Agreed host force)
    (allowed : host.refuse .read path = none) {old : FileData}
    (there : term.files.stat path = .ok (.file old)) {t' : FileTree}
    (works : term.files.tryReplace host.refuse false (backupPath path) old.content old.mode =
      (.ok (), t')) :
    ∃ term', (keepCopy host path force).run term = (.ok (), term') := by
  obtain ⟨answer, term₁, asked, same, yes⟩ := exists_confirmReplace_eq host path force term
  obtain rfl := yes.mpr agreed
  have copied : term₁.files.tryBackup host.refuse false path = (.ok (backupPath path), t') := by
    simp [tryBackup, same, there, allowed, works]
  simp only [keepCopy, run_bind, run_get, there, asked, copied, run_modify]
  exact ⟨_, rfl⟩

theorem exists_writePack_eq_ok {pack : Rules.Pack} {text : String}
    (rendered : (packRules pack).render? (.ofPath path) = some text) {t' : FileTree}
    (works : term.files.tryReplace host.refuse false path (Utf8.encode text) 0 = (.ok (), t')) :
    ∃ term', (writePack host path pack).run term = (.ok (), term') := by
  simp only [writePack, run_bind, run_get, run_modify, RuleSet.trySave, RuleSet.trySaveText, rendered,
    works]
  exact ⟨_, rfl⟩

/-- **When a rule set takes the place of a file**: it is agreed, the pack is known, nothing is refused,
the directory is there, and no directory or link is where the copy goes. -/
theorem exists_init_eq_ok (ordered : term.files.root.Ordered)
    (creates : given.isOn "list-packs" = false)
    (agreed : Agreed host (given.isOn "force")) (allowed : ∀ s p, host.refuse s p = none)
    {pack : Rules.Pack} (known : Rules.pack? (given.text "pack" "recommended") = some pack)
    {work : String} (working : (workingDir host given).run term = (.ok work, term)) {text : String}
    (path_eq : path = targetPath given work)
    (rendered : (packRules pack).render? (.ofPath path) = some text)
    {beside dir : List String} {name : String} {old : FileData}
    (parent : term.files.parentOf path = .ok (beside, Path.base path))
    (leads : term.files.Leads path dir name)
    (there : term.files.root.get? (dir ++ [name]) = some (.file old))
    (dead : DeadEnd term.files.root (dir ++ [name ++ ".bak"])) :
    ∃ term', (init host given).run term = (.ok (), term') := by
  have stands := leads.stat_file there
  have copy := leads.backup
  obtain ⟨t', works⟩ := exists_tryReplace_eq_ok ordered (allowed · (backupPath path))
    (parentOf_backupPath parent) copy (fun _ => dead.not_dir) old.content old.mode
  obtain ⟨term₁, kept⟩ := exists_keepCopy_eq_ok agreed (allowed _ _) stands works
  obtain ⟨outcome, term₁', ran, spec⟩ := kept_keepCopy ordered host path (given.isOn "force")
  cases ran.symm.trans kept
  cases spec with
  | absent _ none => exact absurd stands (none _)
  | copied _ _ replaced =>
      cases replaced with
      | @done dir₁ name₁ _ _ leads₁ _ ordered₁ copied₁ _ outside =>
          have own : dir₁ ++ [name₁] = dir ++ [name ++ ".bak"] :=
            Except.ok.inj (leads₁.locate.symm.trans copy.locate)
          rw [own] at outside
          have alike := outside.alikeBut
          have other : dir ++ [name] ≠ dir ++ [name ++ ".bak"] := fun same =>
            locate_backupPath_ne leads.locate (same ▸ copy.locate)
          have there₁ : term₁.files.root.get? (dir ++ [name]) = some (.file old) :=
            (outside _ (by simpa using other)).leaf rfl there
          obtain ⟨_, works₂⟩ := exists_tryReplace_eq_ok ordered₁ (allowed · path)
            (parentOf_alike alike dead parent) (leads.alike alike dead) (Entry.noDir_of_file there₁)
            (Utf8.encode text) 0
          obtain ⟨term₂, wrote⟩ := exists_writePack_eq_ok rendered works₂
          refine ⟨term₂, ?_⟩
          rw [init, if_neg (by simp [creates])]
          simp only [run_bind, run_named, known, working, ← path_eq, kept, wrote]

/-! ### The older file -/

/-- What a call that creates a rule set at a path makes of the files.  Nothing but the file of the path
and its copy changes.  A file that was there is the same after a failure; after a success it has the
text of the pack, and the copy has its content. -/
structure SparesOldFile (host : Host) (given : GivenFlags) (path : String) (before after : FileTree)
    (outcome : Except Trouble Unit) : Prop where
  elsewhere : ∀ names, before.locate path ≠ .ok names → before.locate (backupPath path) ≠ .ok names →
    Entry.Kindred (before.root.get? names) (after.root.get? names)
  failed : ∀ place old, before.locate path = .ok place → before.root.get? place = some (.file old) →
    outcome ≠ .ok () → after.root.get? place = some (.file old)
  worked : ∀ place old, before.locate path = .ok place → before.root.get? place = some (.file old) →
    outcome = .ok () → ∃ copyPlace copy pack text new,
      Agreed host (given.isOn "force") ∧ before.locate (backupPath path) = .ok copyPlace ∧
      before.root.NoDir copyPlace ∧
      after.root.get? copyPlace = some (.file copy) ∧ copy.content = old.content ∧
      Rules.pack? (given.text "pack" "recommended") = some pack ∧
      (packRules pack).render? (.ofPath path) = some text ∧
      after.root.get? place = some (.file new) ∧ new.content = Utf8.encode text

section Outcomes

variable {t t₁ t₂ : FileTree} {place : List String} {old : FileData} {outcome : Except Trouble Unit}

/-- All is as before. -/
theorem SparesOldFile.of_alike (alike : Entry.AlikeOutside [] t.root t₁.root)
    (failed : outcome ≠ .ok ()) : SparesOldFile host given path t t₁ outcome where
  elsewhere names _ _ := alike names List.not_mem_nil
  failed place _ _ there _ := (alike place List.not_mem_nil).leaf rfl there
  worked _ _ _ _ worked := absurd worked failed

/-- A rule set is written where no file was. -/
theorem SparesOldFile.of_absent (none : ∀ e, t.stat path ≠ .ok e) {rs : RuleSet}
    {saved : Except Failure Unit} (written : rs.Saved t path (saved, t₁))
    (same : outcome = .ok () ↔ saved = .ok ()) : SparesOldFile host given path t t₁ outcome := by
  cases written with
  | failed alike => exact .of_alike alike fun worked => by cases same.mp worked
  | done _ replaced =>
      cases replaced with
      | done leads _ _ _ _ alike =>
          refine ⟨fun names other _ => alike names ?_, fun _ _ _ _ failed =>
            absurd (same.mpr rfl) failed, fun place old own there _ => ?_⟩
          · exact fun own => other (List.mem_singleton.mp own ▸ leads.locate)
          · obtain ⟨dir, name, leads, rfl⟩ := locate_eq_ok_iff.mp own
            exact absurd (leads.stat_file there) (none _)

/-- Once a file is copied, nothing but the file and its copy changes. -/
theorem SparesOldFile.of_copied (agreed : Agreed host (given.isOn "force"))
    (there : t.stat path = .ok (.file old))
    (copied : Replaced t (backupPath path) old.content (.ok (), t₁)) {pack : Rules.Pack}
    (known : Rules.pack? (given.text "pack" "recommended") = some pack) {saved : Except Failure Unit}
    (written : (packRules pack).Saved t₁ path (saved, t₂)) (same : outcome = .ok () ↔ saved = .ok ()) :
    SparesOldFile host given path t t₂ outcome := by
  cases copied with
  | @done dir₁ name₁ copy _ leads₁ solid₁ _ stands₁ content₁ alike₁ =>
      have dead : DeadEnd t₁.root (dir₁ ++ [name₁]) := fun e stands => by
        cases stands₁.symm.trans stands
        exact ⟨copy, rfl⟩
      have apart {place : List String} (own : t.locate path = .ok place) : place ≠ dir₁ ++ [name₁] :=
        fun same => locate_backupPath_ne own (same ▸ leads₁.locate)
      cases written with
      | failed alike₂ =>
          have alike := alike₁.trans alike₂
          refine ⟨fun names _ other => alike names ?_, fun place _ own there _ =>
            (alike place ?_).leaf rfl there, fun _ _ _ _ worked => by cases same.mp worked⟩
          · simpa using fun same : names = _ => other (same ▸ leads₁.locate)
          · simpa using apart own
      | @done text _ rendered replaced =>
          cases replaced with
          | @done dir₂ name₂ new _ leads₂ _ _ stands₂ content₂ alike₂ =>
              -- The copy is a file, so the way to the place does not go through it.
              have leads : t.Leads path dir₂ name₂ := leads₂.alike alike₁.alikeBut.symm dead
              have alike := alike₁.trans alike₂
              refine ⟨fun names other other' => alike names ?_, fun _ _ _ _ failed =>
                absurd (same.mpr rfl) failed, fun place old' own there' _ => ?_⟩
              · simp only [List.cons_append, List.nil_append, List.mem_cons, List.not_mem_nil, or_false,
                  not_or]
                exact ⟨fun same => other' (same ▸ leads₁.locate),
                  fun same => other (same ▸ leads.locate)⟩
              · obtain rfl : dir₂ ++ [name₂] = place := Except.ok.inj (leads.locate.symm.trans own)
                obtain rfl : old = old' := by cases there.symm.trans (leads.stat_file there'); rfl
                refine ⟨_, copy, pack, text, new, agreed, leads₁.locate, solid₁, ?_, content₁, known,
                  rendered, stands₂, content₂⟩
                exact (alike₂ _ (by simpa using (apart own).symm)).leaf rfl stands₁

end Outcomes

/-- **The older file is not lost**, whatever fails. -/
theorem init_spares_old_file (ordered : term.files.root.Ordered)
    (creates : given.isOn "list-packs" = false)
    (target : ∀ dir, (workingDir host given).run term = (.ok dir, term) → path = targetPath given dir) :
    ∃ outcome term', (init host given).run term = (outcome, term') ∧
      SparesOldFile host given path term.files term'.files outcome := by
  obtain ⟨found, working⟩ := exists_workingDir_eq host given term
  rw [init, if_neg (by simp [creates])]
  simp only [run_bind, run_named]
  cases known : Rules.pack? (given.text "pack" "recommended") with
  | none => exact ⟨_, _, rfl, .of_alike (.refl _ _) nofun⟩
  | some pack =>
      simp only [working]
      cases found with
      | error trouble => exact ⟨_, _, rfl, .of_alike (.refl _ _) nofun⟩
      | ok dir =>
          obtain rfl := target dir working
          obtain ⟨outcome, term₁, ran, kept⟩ :=
            kept_keepCopy ordered host (targetPath given dir) (given.isOn "force")
          simp only [ran]
          cases kept with
          | failed alike => exact ⟨_, _, rfl, .of_alike alike nofun⟩
          | absent same none =>
              obtain ⟨saved, outcome, term₂, wrote, written, worked⟩ :=
                saved_writePack (same ▸ ordered) host (targetPath given dir) pack
              rw [same] at written
              exact ⟨outcome, term₂, wrote, .of_absent none written worked⟩
          | copied there agreed copied =>
              obtain ⟨saved, outcome, term₂, wrote, written, worked⟩ :=
                saved_writePack copied.ordered host (targetPath given dir) pack
              exact ⟨outcome, term₂, wrote, .of_copied agreed there copied known written worked⟩

/-- A directory with a rule set in it. -/
def withRules : FileTree :=
  { root := .dir [("rules.yaml", .file { content := "name: mine\n".toUTF8 })] }

/-- A call of the program in that directory. -/
def shell : Host := { build := ⟨"1.2.3", "abc", "today"⟩, current := some "/" }

/-- A call that names the rule set. -/
def givenRules (flag : String) : GivenFlags := [(flag, .switch true), ("output", .text "rules.yaml")]

theorem ordered_withRules : withRules.root.Ordered :=
  .dir (by decide) (by simp) (List.forall_mem_singleton.mpr (.file _))

theorem leads_withRules : withRules.Leads "/rules.yaml" [] "rules.yaml" :=
  ⟨⟨[], rfl, .done⟩, ⟨_, rfl⟩, by decide, by decide⟩

theorem targetPath_givenRules (flag : String) (other : flag ≠ "output") :
    targetPath (givenRules flag) "/" = "/rules.yaml" := by
  have output : (givenRules flag).text "output" defaultRuleSetFile = "rules.yaml" := by
    have apart : ("output" == flag) = false := beq_eq_false_iff_ne.mpr (Ne.symm other)
    simp [givenRules, GivenFlags.text, List.lookup_cons, apart]
  rw [targetPath, output]
  rfl

/-- With `--force` the rule set is replaced, and not lost. -/
theorem init_spares_old_file_forced : withRules.root.Ordered ∧
    (givenRules "force").isOn "list-packs" = false ∧
    ∃ term', (init shell (givenRules "force")).run { files := withRules } = (.ok (), term') ∧
      SparesOldFile shell (givenRules "force") "/rules.yaml" withRules term'.files (.ok ()) := by
  have working : (workingDir shell (givenRules "force")).run { files := withRules } =
      (.ok "/", { files := withRules }) := rfl
  have target := (targetPath_givenRules "force" (by decide)).symm
  have creates : (givenRules "force").isOn "list-packs" = false := by decide
  have parent : withRules.parentOf "/rules.yaml" = .ok ([], Path.base "/rules.yaml") := by
    have steps : Path.steps (Path.dir "/rules.yaml") = [] := rfl
    exact parentOf_eq_ok_iff.mpr ⟨steps ▸ .done, ⟨_, rfl⟩, rfl⟩
  have format : FileFormat.ofPath "/rules.yaml" = .yaml := rfl
  obtain ⟨term', ran⟩ := exists_init_eq_ok ordered_withRules creates (.inl (by decide)) (fun _ _ => rfl)
    rfl working target (by rw [format]; rfl) parent leads_withRules rfl (fun _ => nofun)
  obtain ⟨outcome, term'', ran', spares⟩ := init_spares_old_file ordered_withRules creates
    fun dir found => by cases working.symm.trans found; exact target
  cases ran'.symm.trans ran
  exact ⟨ordered_withRules, creates, term', ran, spares⟩

/-- **A call that lists the packs** ends well and writes nothing. -/
theorem list_packs_writes_nothing : ∃ term',
    (init shell (givenRules "list-packs")).run { files := withRules } = (.ok (), term') ∧
    (workingDir shell (givenRules "list-packs")).run { files := withRules } =
      (.ok "/", { files := withRules }) ∧
    targetPath (givenRules "list-packs") "/" = "/rules.yaml" ∧
    ¬ SparesOldFile shell (givenRules "list-packs") "/rules.yaml" withRules term'.files (.ok ()) := by
  refine ⟨_, rfl, rfl, targetPath_givenRules _ (by decide), fun spares => ?_⟩
  obtain ⟨copyPlace, copy, _, _, _, _, beside, _, stands, _⟩ :=
    spares.worked _ _ leads_withRules.locate rfl rfl
  cases leads_withRules.backup.locate.symm.trans beside
  cases stands

end Cli

end SolidityLint
