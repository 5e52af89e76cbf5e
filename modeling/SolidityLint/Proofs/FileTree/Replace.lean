import Mathlib.Data.List.Nodup
import Mathlib.Data.List.Perm.Subperm
import SolidityLint.FileTree.Replace
import SolidityLint.Proofs.FileTree.Location

/-!
# FileTree — replacing files

Whatever step fails, replacing a file leaves all as it was, and no draft stays behind; if none does,
the file has the new content and all else is as it was.

* `draftName_not_mem`: a draft has a name of its own.
* `Drafted.carryOut`: until it is renamed, nothing but the draft changes.
* `replaced_tryReplace`: what comes of replacing a file.
* `exists_tryReplace_eq_ok`: when that works.
* `backedUp_tryBackup`: what comes of copying a file.
-/

namespace SolidityLint

/-! ### Names of drafts -/

theorem numbered_injective (stem : String) : Function.Injective (numbered stem) := by
  intro n m same
  have digits : Nat.toDigits 10 n = Nat.toDigits 10 m := by
    have texts := congrArg String.toList same
    simpa [numbered, String.append_assoc] using texts
  simpa using congrArg (Nat.ofDigitChars 10 · 0) digits

/-- **A draft has a name of its own.** -/
theorem draftName_not_mem (stem : String) (taken : List String) : draftName stem taken ∉ taken := by
  have free : ∃ n ∈ List.range (taken.length + 1), (!taken.contains (numbered stem n)) = true := by
    by_contra full
    have all : (List.range (taken.length + 1)).map (numbered stem) ⊆ taken := fun name hn => by
      obtain ⟨n, among, rfl⟩ := List.mem_map.mp hn
      by_contra other
      exact full ⟨n, among, by simpa using other⟩
    have distinct := (List.nodup_range (n := taken.length + 1)).map (numbered_injective stem)
    have short := (List.subperm_of_subset distinct all).length_le
    rw [List.length_map, List.length_range] at short
    omega
  obtain ⟨n, found⟩ := Option.isSome_iff_exists.mp (List.find?_isSome.mpr free)
  rw [draftName, found]
  simpa using List.find?_some found

theorem isName_draftName {stem : String} (slash : '/' ∉ stem.toList) (taken : List String) :
    Path.IsName (draftName stem taken) := by
  have long (n : Nat) : 2 < (numbered stem n).length := by
    have mark : (".tmp.").length = 5 := by decide
    rw [numbered, String.length_append, String.length_append, mark]
    omega
  have clear (n : Nat) : '/' ∉ (numbered stem n).toList := by
    have digits : '/' ∉ Nat.toDigits 10 n := fun among => by
      have digit := Nat.isDigit_of_mem_toDigits (by decide) (by decide) among
      cases digit
    simp [numbered, slash, digits]
  have other {s : String} (short : s.length ≤ 2) : draftName stem taken ≠ s := fun same => by
    have := long (((List.range (taken.length + 1)).find? fun n =>
      !taken.contains (numbered stem n)).getD 0)
    rw [← draftName, same] at this
    omega
  exact ⟨other (by decide), clear _, other (by decide), other (by decide)⟩

theorem slash_not_mem_base {path : String} (other : Path.base path ≠ "/") :
    '/' ∉ (Path.base path).toList := by
  rw [Path.base] at other ⊢
  split
  · next last => exact (Path.mem_components (List.mem_of_getLast? last)).2
  · next none =>
      rw [none] at other
      dsimp only at other
      split at other
      · next empty => simp [empty]
      · exact absurd rfl other

/-! ### All but some places -/

namespace Entry

variable {r r' r'' : Entry} {place : List String}

theorem Kindred.trans {e e' e'' : Option Entry} (h : Kindred e e') (h' : Kindred e' e'') :
    Kindred e e'' := by
  cases h with
  | same => exact h'
  | dirs children =>
      cases h' with
      | same => exact .dirs children _
      | dirs _ children'' => exact .dirs children children''

theorem AlikeBut.trans (h : AlikeBut place r r') (h' : AlikeBut place r' r'') :
    AlikeBut place r r'' :=
  fun names apart => (h names apart).trans (h' names apart)

/-- The trees are alike but for what stands at the places themselves. -/
def AlikeOutside (places : List (List String)) (r r' : Entry) : Prop :=
  ∀ names, names ∉ places → Kindred (r.get? names) (r'.get? names)

theorem AlikeOutside.refl (places : List (List String)) (r : Entry) : AlikeOutside places r r :=
  fun _ _ => .same _

theorem AlikeOutside.trans {places places' : List (List String)} (h : AlikeOutside places r r')
    (h' : AlikeOutside places' r' r'') : AlikeOutside (places ++ places') r r'' := fun names other =>
  (h names fun own => other (List.mem_append_left _ own)).trans
    (h' names fun own => other (List.mem_append_right _ own))

theorem AlikeOutside.alikeBut (h : AlikeOutside [place] r r') : AlikeBut place r r' :=
  fun names apart => h names fun own => apart (List.mem_singleton.mp own ▸ List.prefix_refl _)

/-- No directory stands at the place. -/
def NoDir (r : Entry) (place : List String) : Prop :=
  ∀ children, r.get? place ≠ some (.dir children)

theorem NoDir.get?_below (h : r.NoDir place) {names : List String} (below : place <+: names)
    (other : names ≠ place) : r.get? names = none := by
  cases there : r.get? names with
  | none => rfl
  | some e =>
      obtain ⟨children, stands⟩ := FileTree.exists_dir_of_prefix below there other
      exact absurd stands (h children)

/-- Where no directory is, nothing stands below. -/
theorem AlikeBut.outside (h : AlikeBut place r r') (solid : r.NoDir place) (solid' : r'.NoDir place) :
    AlikeOutside [place] r r' := fun names other => by
  have other : names ≠ place := fun same => other (List.mem_singleton.mpr same)
  by_cases below : place <+: names
  · rw [solid.get?_below below other, solid'.get?_below below other]
    exact .same _
  · exact h names below

theorem NoDir.alike (h : AlikeOutside [] r r') (solid : r.NoDir place) : r'.NoDir place :=
  fun children dir => by
    obtain ⟨children', stands⟩ := (h place List.not_mem_nil).symm.dir dir
    exact solid children' stands

theorem noDir_of_file {data : FileData} (there : r.get? place = some (.file data)) : r.NoDir place :=
  fun _ dir => by cases there.symm.trans dir

end Entry

namespace FileTree

/-! ### Drafts -/

/-- The tree is as it was but for a draft. -/
structure Drafted (before : Entry) (place : List String) (data : FileData) (after : Entry) : Prop where
  ordered : after.Ordered
  there : after.get? place = some (.file data)
  alike : Entry.AlikeBut place before after

theorem Drafted.deadEnd {before after : Entry} {place : List String} {data : FileData}
    (h : Drafted before place data after) : DeadEnd after place := fun e there => by
  cases h.there.symm.trans there
  exact ⟨data, rfl⟩

section Draft

variable {before : Entry} {t t' : FileTree} {dir : List String} {name path : String} {data : FileData}
  {content : ByteArray} {mode : Nat} {refuse : Refusals}

/-- The directory of a path. -/
theorem parentOf_eq_ok_iff {stem : String} : t.parentOf path = .ok (dir, stem) ↔
    Resolves t.root true maxLinks [] (Path.steps (Path.dir path)) dir ∧
      (∃ children, t.root.get? dir = some (.dir children)) ∧ stem = Path.base path := by
  simp only [← resolveFrom_eq_ok_iff, parentOf, resolve, bind, Except.bind]
  cases resolveFrom t.root true maxLinks [] (Path.steps (Path.dir path)) with
  | error => simp
  | ok names =>
      cases there : t.root.get? names with
      | none => simp [there]; rintro rfl; simp [there]
      | some e => cases e <;> simp [there] <;> grind

/-- A draft is made where nothing stands. -/
theorem drafted_createDraft (ordered : t.root.Ordered) {draft : List String}
    (h : t.createDraft path = .ok (draft, t')) :
    ∃ dir name data, draft = dir ++ [name] ∧ t.root.get? draft = none ∧
      Drafted t.root draft data t'.root := by
  simp only [createDraft, bind, Except.bind] at h
  split at h
  · cases h
  · next parent found =>
      obtain ⟨dir, stem⟩ := parent
      obtain ⟨-, ⟨children, stands⟩, rfl⟩ := parentOf_eq_ok_iff.mp found
      split at h
      · cases h
      · next other =>
          cases h
          have own := isName_draftName (slash_not_mem_base (by simpa using other)) (t.namesIn dir)
          obtain ⟨ordered', there, alike⟩ := setAt_spec (e := some (.file ⟨.empty, t.now, 0o600⟩))
            ordered stands own (by simpa using .file _)
          refine ⟨dir, _, _, rfl, ?_, ordered', there, alike⟩
          have taken := draftName_not_mem (Path.base path) (t.namesIn dir)
          rw [namesIn, stands] at taken ⊢
          rw [Entry.get?_append, stands]
          cases found : children.lookup (draftName (Path.base path) (children.map (·.1))) with
          | none => simp [Entry.get?, found]
          | some e => exact absurd (List.mem_map_of_mem (mem_of_lookup found)) taken

namespace Drafted

theorem setAt (h : Drafted before (dir ++ [name]) data t.root) {e : Option Entry}
    (new : ∀ d ∈ e, d.Ordered) : (t.setAt (dir ++ [name]) e).root.Ordered ∧
      (t.setAt (dir ++ [name]) e).root.get? (dir ++ [name]) = e ∧
      Entry.AlikeBut (dir ++ [name]) before (t.setAt (dir ++ [name]) e).root := by
  obtain ⟨children, stands, -⟩ := Entry.get?_concat_eq_some.mp h.there
  have own : Path.IsName name := h.ordered.names h.there name (by simp)
  obtain ⟨ordered, there, alike⟩ := setAt_spec h.ordered stands own new
  exact ⟨ordered, there, h.alike.trans alike⟩

/-- A draft that is written to is still all that differs. -/
theorem write (h : Drafted before (dir ++ [name]) data t.root) (data' : FileData) :
    Drafted before (dir ++ [name]) data' (t.setAt (dir ++ [name]) (some (.file data'))).root := by
  obtain ⟨ordered, there, alike⟩ := h.setAt (e := some (.file data')) (by simpa using .file data')
  exact ⟨ordered, there, alike⟩

/-- Once the draft is removed, all is as it was. -/
theorem removed (h : Drafted before (dir ++ [name]) data t.root)
    (free : before.get? (dir ++ [name]) = none) :
    (t.setAt (dir ++ [name]) none).root.Ordered ∧
      Entry.AlikeOutside [] before (t.setAt (dir ++ [name]) none).root := by
  obtain ⟨ordered, gone, alike⟩ := h.setAt (e := none) nofun
  refine ⟨ordered, fun names _ => ?_⟩
  by_cases same : names = dir ++ [name]
  · rw [same, free, gone]
    exact .same _
  · have bare {r : Entry} (none : r.get? (dir ++ [name]) = none) : r.NoDir (dir ++ [name]) :=
      fun _ dir => by cases none.symm.trans dir
    exact alike.outside (bare free) (bare gone) names (by simpa using same)

/-- **A step before the last** changes nothing but the draft. -/
theorem perform (h : Drafted before (dir ++ [name]) data t.root) (path : String)
    (content : ByteArray) (mode : Nat) {s : ReplaceStep} (other : s ≠ .rename) :
    ∃ data' t', t.perform (dir ++ [name]) path content mode s = .ok t' ∧
      Drafted before (dir ++ [name]) data' t'.root ∧
      (s = .write ∨ data.content = content → data'.content = content) := by
  cases s with
  | rename => exact absurd rfl other
  | write => exact ⟨_, _, rfl, h.write _, fun _ => rfl⟩
  | chmod =>
      refine ⟨{ data with mode }, _, rfl, ?_, fun written => written.resolve_left nofun⟩
      rw [h.there]
      exact h.write _
  | read | create | sync | close =>
      exact ⟨data, t, rfl, h, fun written => written.resolve_left nofun⟩

/-- **Until the draft is renamed**, nothing but the draft changes. -/
theorem carryOut (h : Drafted before (dir ++ [name]) data t.root) (refuse : Refusals) (path : String)
    (content : ByteArray) (mode : Nat) {steps : List ReplaceStep} (others : .rename ∉ steps) :
    ∃ data', Drafted before (dir ++ [name]) data'
        (FileTree.carryOut refuse (dir ++ [name]) path content mode steps t).2.root ∧
      ((FileTree.carryOut refuse (dir ++ [name]) path content mode steps t).1 = .ok () →
        .write ∈ steps ∨ data.content = content → data'.content = content) := by
  induction steps generalizing t data with
  | nil => exact ⟨data, h, fun _ written => written.resolve_left List.not_mem_nil⟩
  | cons s steps ih =>
      obtain ⟨other, others⟩ := not_or.mp (mt List.mem_cons.mpr others)
      obtain ⟨data₁, t₁, performed, drafted, written⟩ :=
        h.perform path content mode (Ne.symm other)
      rw [FileTree.carryOut, performed]
      cases refuse s path with
      | some trouble => exact ⟨data, h, nofun⟩
      | none =>
          obtain ⟨data₂, drafted₂, written₂⟩ := ih drafted others
          refine ⟨data₂, drafted₂, fun worked written₀ => written₂ worked ?_⟩
          rcases written₀ with among | before
          · rcases List.mem_cons.mp among with here | later
            · exact .inr (written (.inl here.symm))
            · exact .inl later
          · exact .inr (written (.inr before))

end Drafted

/-- What comes of replacing the file at a path: all is as before, or the new content stands at the
place of the path and all else is as before. -/
inductive Replaced (t : FileTree) (path : String) (content : ByteArray) :
    Except Failure Unit × FileTree → Prop where
  | failed {e : Failure} {t' : FileTree} (ordered : t'.root.Ordered)
      (alike : Entry.AlikeOutside [] t.root t'.root) : Replaced t path content (.error e, t')
  | done {dir : List String} {name : String} {data : FileData} {t' : FileTree}
      (leads : t.Leads path dir name) (solid : t.root.NoDir (dir ++ [name]))
      (ordered : t'.root.Ordered) (there : t'.root.get? (dir ++ [name]) = some (.file data))
      (new : data.content = content) (alike : Entry.AlikeOutside [dir ++ [name]] t.root t'.root) :
      Replaced t path content (.ok (), t')

theorem Replaced.ordered {result : Except Failure Unit × FileTree}
    (h : Replaced t path content result) : result.2.root.Ordered := by
  cases h with
  | failed ordered | done _ _ ordered => exact ordered

/-- **The last step** puts the draft in the place of the file. -/
theorem Drafted.rename {t₀ : FileTree} (h : Drafted t₀.root (dir ++ [name]) data t.root)
    (free : t₀.root.get? (dir ++ [name]) = none) (worked : t.rename (dir ++ [name]) path = .ok t') :
    Replaced t₀ path data.content (.ok (), t') := by
  rw [FileTree.rename, h.there] at worked
  split at worked
  · cases worked
  · next not_dir =>
      simp only [bind, Except.bind] at worked
      split at worked
      · cases worked
      · next place located =>
          cases worked
          obtain ⟨target, last, leads, rfl⟩ := locate_eq_ok_iff.mp located
          have leads₀ : t₀.Leads path target last := leads.alike h.alike.symm h.deadEnd
          have solid : t₀.root.NoDir (target ++ [last]) := fun children stands => by
            have apart : ¬ dir ++ [name] <+: target ++ [last] := fun below => by
              have other : target ++ [last] ≠ dir ++ [name] := fun same => by
                cases free.symm.trans (same ▸ stands)
              obtain ⟨_, here⟩ := exists_dir_of_prefix below stands other
              cases free.symm.trans here
            obtain ⟨children', stands'⟩ := (h.alike _ apart).dir stands
            exact not_dir children' (by rw [leads.lstat, stands'])
          obtain ⟨ordered, alike⟩ := h.removed free
          obtain ⟨children, stands⟩ := leads₀.stands
          obtain ⟨children', stands'⟩ := (alike target List.not_mem_nil).dir stands
          obtain ⟨ordered', there, alike'⟩ := setAt_spec (e := some (.file data)) ordered stands'
            leads₀.isName (by simpa using .file data)
          have outside := alike'.outside (solid.alike alike) (Entry.noDir_of_file there)
          exact .done leads₀ solid ordered' there rfl (alike.trans outside)

theorem carryOut_append (draft : List String) (before after : List ReplaceStep) (t : FileTree) :
    FileTree.carryOut refuse draft path content mode (before ++ after) t =
      match FileTree.carryOut refuse draft path content mode before t with
      | (.ok (), t') => FileTree.carryOut refuse draft path content mode after t'
      | failed => failed := by
  induction before generalizing t with
  | nil => rfl
  | cons s before ih =>
      rw [List.cons_append, FileTree.carryOut, FileTree.carryOut]
      split
      · rfl
      · rw [ih]

/-- **What comes of replacing a file**, whatever is refused. -/
theorem replaced_tryReplace (ordered : t.root.Ordered) (refuse : Refusals) (cancelled : Bool)
    (path : String) (content : ByteArray) (mode : Nat) :
    Replaced t path content (t.tryReplace refuse cancelled path content mode) := by
  have unchanged (e : Failure) : Replaced t path content (.error e, t) :=
    .failed ordered (.refl _ _)
  rw [tryReplace]
  split
  · exact unchanged _
  · split
    · exact unchanged _
    · next draft drafted made =>
        have made : t.createDraft path = .ok (draft, drafted) := by
          cases refused : refuse .create path with
          | some trouble => simp [refused] at made
          | none => simpa [refused] using made
        obtain ⟨dir, name, data, rfl, free, begun⟩ := drafted_createDraft ordered made
        obtain ⟨data', complete, written⟩ := begun.carryOut refuse path content
          (if mode = 0 then 0o644 else mode)
          (show ReplaceStep.rename ∉ [.write, .sync, .close, .chmod] by decide)
        have steps : draftSteps = [.write, .sync, .close, .chmod] ++ [.rename] := rfl
        have undone {left : FileTree} {data : FileData} (e : Failure)
            (h : Drafted t.root (dir ++ [name]) data left.root) :
            Replaced t path content (.error e, left.setAt (dir ++ [name]) none) :=
          .failed (h.removed free).1 (h.removed free).2
        simp only [steps, carryOut_append]
        generalize FileTree.carryOut refuse (dir ++ [name]) path content
          (if mode = 0 then 0o644 else mode) [.write, .sync, .close, .chmod] drafted = result
          at complete written ⊢
        obtain ⟨outcome, left⟩ := result
        cases outcome with
        | error e => exact undone e complete
        | ok =>
            cases moved : (refuse .rename path).elim (left.perform (dir ++ [name]) path content
                (if mode = 0 then 0o644 else mode) .rename) .error with
            | error trouble =>
                simpa only [FileTree.carryOut, moved] using
                  undone (ReplaceStep.rename.failure path trouble) complete
            | ok done =>
                have worked : left.rename (dir ++ [name]) path = .ok done := by
                  cases refused : refuse .rename path with
                  | some trouble => simp [refused] at moved
                  | none => simpa [refused, perform] using moved
                simpa only [FileTree.carryOut, moved] using
                  written rfl (.inl List.mem_cons_self) ▸ complete.rename free worked

/-- Nothing stands in the way of the steps before the last. -/
theorem exists_carryOut_eq_ok (allowed : ∀ s, refuse s path = none) (draft : List String)
    (content : ByteArray) (mode : Nat) {steps : List ReplaceStep} (others : .rename ∉ steps)
    (t : FileTree) :
    ∃ t', FileTree.carryOut refuse draft path content mode steps t = (.ok (), t') := by
  induction steps generalizing t with
  | nil => exact ⟨t, rfl⟩
  | cons s steps ih =>
      obtain ⟨other, later⟩ := not_or.mp (mt List.mem_cons.mpr others)
      rw [FileTree.carryOut, allowed]
      cases s with
      | rename => exact absurd rfl other
      | read | create | write | sync | close | chmod => exact ih later _

theorem Drafted.exists_rename_eq_ok {t₀ : FileTree} (h : Drafted t₀.root (dir ++ [name]) data t.root)
    (free : t₀.root.get? (dir ++ [name]) = none) {target : List String} {last : String}
    (leads : t₀.Leads path target last) (solid : t₀.root.NoDir (target ++ [last])) :
    ∃ t', t.rename (dir ++ [name]) path = .ok t' := by
  have dead : DeadEnd t₀.root (dir ++ [name]) := fun e there => by cases free.symm.trans there
  have leads' := leads.alike h.alike dead
  have solid' : t.root.NoDir (target ++ [last]) := fun children stands => by
    by_cases same : target ++ [last] = dir ++ [name]
    · cases h.there.symm.trans (same ▸ stands)
    · obtain ⟨children', stands'⟩ := (h.alike _ (h.deadEnd.apart stands same)).symm.dir stands
      exact solid children' stands'
  rw [FileTree.rename, leads'.lstat]
  cases there : t.root.get? (target ++ [last]) with
  | none => simp [leads'.locate, bind, Except.bind]
  | some e =>
      cases e with
      | dir children => exact absurd there (solid' children)
      | file | link => simp [leads'.locate, bind, Except.bind]

/-- The copy of a file has its name with an ending. -/
theorem Leads.backup (h : t.Leads path dir name) : t.Leads (backupPath path) dir (name ++ ".bak") :=
  h.append (by decide) (by decide)

/-- A file and its copy stand at places of their own. -/
theorem locate_backupPath_ne {place : List String} (own : t.locate path = .ok place) :
    t.locate (backupPath path) ≠ .ok place := by
  obtain ⟨dir, name, leads, rfl⟩ := locate_eq_ok_iff.mp own
  intro same
  have names : dir ++ [name ++ ".bak"] = dir ++ [name] :=
    Except.ok.inj (leads.backup.locate.symm.trans same)
  have lengths := congrArg String.length (List.singleton_inj.mp (List.append_cancel_left names))
  have suffix : ".bak".length = 4 := by decide
  rw [String.length_append, suffix] at lengths
  omega

/-- A copy stands in the directory of the file. -/
theorem parentOf_backupPath {stem : String} (h : t.parentOf path = .ok (dir, stem)) :
    t.parentOf (backupPath path) = .ok (dir, Path.base (backupPath path)) := by
  have same : Path.dir (backupPath path) = Path.dir path := Path.dir_append_suffix (by decide)
  obtain ⟨resolves, stands, -⟩ := parentOf_eq_ok_iff.mp h
  rw [parentOf_eq_ok_iff, same]
  exact ⟨resolves, stands, rfl⟩

/-- A change where nothing leads on leaves the directory of a path where it is. -/
theorem parentOf_alike {changed : List String} {stem : String}
    (alike : Entry.AlikeBut changed t.root t'.root) (dead : DeadEnd t.root changed)
    (h : t.parentOf path = .ok (dir, stem)) : t'.parentOf path = .ok (dir, stem) := by
  obtain ⟨resolves, ⟨children, stands⟩, rfl⟩ := parentOf_eq_ok_iff.mp h
  have other : dir ≠ changed := fun same => dead.not_dir (same ▸ stands)
  exact parentOf_eq_ok_iff.mpr ⟨resolves.alike alike dead other,
    (alike dir (dead.apart stands other)).dir stands, rfl⟩

/-- **When replacing a file works**: nothing is refused, the directory of the draft is there, and no
directory stands at the place. -/
theorem exists_tryReplace_eq_ok (ordered : t.root.Ordered) (allowed : ∀ s, refuse s path = none)
    {beside : List String} (parent : t.parentOf path = .ok (beside, Path.base path))
    (leads : t.Leads path dir name) (solid : t.root.NoDir (dir ++ [name])) (content : ByteArray)
    (mode : Nat) : ∃ t', t.tryReplace refuse false path content mode = (.ok (), t') := by
  have other : (Path.base path == "/") = false := beq_eq_false_iff_ne.mpr fun same =>
    leads.isName.slash (by rw [← leads.base, same]; decide)
  have made : ∃ draft drafted, t.createDraft path = .ok (draft, drafted) := by
    simp [createDraft, parent, other, bind, Except.bind]
  obtain ⟨draft, drafted, made⟩ := made
  obtain ⟨above, own, data, rfl, free, begun⟩ := drafted_createDraft ordered made
  have others : ReplaceStep.rename ∉ [.write, .sync, .close, .chmod] := by decide
  obtain ⟨data', complete, -⟩ :=
    begun.carryOut refuse path content (if mode = 0 then 0o644 else mode) others
  obtain ⟨left, worked⟩ := exists_carryOut_eq_ok allowed (above ++ [own]) content
    (if mode = 0 then 0o644 else mode) others drafted
  rw [worked] at complete
  obtain ⟨done, moved⟩ := complete.exists_rename_eq_ok free leads solid
  have steps : draftSteps = [.write, .sync, .close, .chmod] ++ [.rename] := rfl
  have all : FileTree.carryOut refuse (above ++ [own]) path content (if mode = 0 then 0o644 else mode)
      draftSteps drafted = (.ok (), done) := by
    rw [steps, carryOut_append, worked]
    simp [FileTree.carryOut, allowed, perform, moved]
  exact ⟨done, by simp [tryReplace, allowed, made, all]⟩

/-! ### Copies -/

/-- What comes of copying a file beside itself: all is as before, because it failed or because there
is no such file, or the copy stands there. -/
inductive BackedUp (t : FileTree) (path : String) : Except Failure String × FileTree → Prop where
  | failed {e : Failure} {t' : FileTree} (alike : Entry.AlikeOutside [] t.root t'.root) :
      BackedUp t path (.error e, t')
  | absent (none : t.stat path = .error .notExist) : BackedUp t path (.ok "", t)
  | done {data : FileData} {t' : FileTree} (there : t.stat path = .ok (.file data))
      (replaced : Replaced t (backupPath path) data.content (.ok (), t')) :
      BackedUp t path (.ok (backupPath path), t')

/-- **What comes of copying a file**, whatever is refused. -/
theorem backedUp_tryBackup (ordered : t.root.Ordered) (refuse : Refusals) (cancelled : Bool)
    (path : String) : BackedUp t path (t.tryBackup refuse cancelled path) := by
  rw [tryBackup]
  split
  · exact .failed (.refl _ _)
  · split
    · next none => exact .absent none
    · exact .failed (.refl _ _)
    · next data there =>
        have replaced :=
          replaced_tryReplace ordered refuse false (backupPath path) data.content data.mode
        generalize t.tryReplace refuse false (backupPath path) data.content data.mode = result
          at replaced ⊢
        split
        · exact .failed (.refl _ _)
        · cases replaced with
          | failed _ alike => exact .failed alike
          | done leads solid ordered' copy new alike =>
              exact .done there (.done leads solid ordered' copy new alike)
    · exact .failed (.refl _ _)

end Draft

end FileTree

end SolidityLint
