import Mathlib
import SolidityLint.Cli.Run
import SolidityLint.Proofs.FileTree.Regular
import SolidityLint.Proofs.Json.RoundTrip

/-!
# Config — where the value of an option comes from

An option of a run is passed as a flag, set in the environment, or left at its default, and the
first of these should count.  The flags are laid over the settings below them by a comparison with
the empty value of each field, so a flag that was passed with just that value is not told from one
that was not passed.

* `Sources.value` is what should count, `Sources.taken` what does; they differ exactly when an empty
  value is passed over one that is not (`Sources.taken_eq_value_iff`).
* `Flags.parse_fits`: the flags that are read from arguments have values of their kinds.
* `Settings.withEnvironment_eq`: what the environment sets.
* `flags_precede_unless_empty`: what loading gives for all arguments and environments.
-/

namespace SolidityLint

/-! ### Sources -/

/-- Where the value of an option can come from. -/
structure Sources (α : Type) where
  /-- The value of the flag, if it was passed. -/
  passed : Option α
  /-- What the environment says, if its variable is not blank. -/
  environment : Option α
  standard : α

namespace Sources

variable {α : Type}

/-- What counts when no flag is passed. -/
def below (s : Sources α) : α := s.environment.getD s.standard

/-- The value of the flag, or what counts below it. -/
def value (s : Sources α) : α := s.passed.getD s.below

/-- The value of the flag unless it is the empty one, or what counts below it. -/
def taken [DecidableEq α] (empty : α) (s : Sources α) : α :=
  (s.passed.filter (· ≠ empty)).getD s.below

/-- No empty flag was passed, unless over an empty value. -/
def Kept (empty : α) (s : Sources α) : Prop := s.passed = some empty → s.below = empty

instance [DecidableEq α] (empty : α) (s : Sources α) : Decidable (s.Kept empty) :=
  inferInstanceAs (Decidable (_ → _))

/-- **An empty flag is lost** exactly when what counts below it is not empty as well. -/
theorem taken_eq_value_iff [DecidableEq α] {empty : α} {s : Sources α} :
    s.taken empty = s.value ↔ s.Kept empty := by
  unfold taken value Kept
  cases s.passed with
  | none => simp
  | some a => by_cases h : a = empty <;> simp [Option.filter, h]

/-- Laying a field over another by a comparison with the empty value. -/
theorem ite_eq_taken [DecidableEq α] (empty : α) (s : Sources α) :
    (if s.passed.getD empty = empty then s.below else s.passed.getD empty) = s.taken empty := by
  unfold taken
  cases s.passed with
  | none => simp
  | some a => by_cases h : a = empty <;> simp [Option.filter, h]

/-- A list is taken from the first source that gives one, even an empty one. -/
theorem getD_or {β : Type} (s : Sources β) :
    (s.passed.or s.environment).getD s.standard = s.value := by
  unfold value below
  cases s.passed <;> rfl

end Sources

/-! ### Flags -/

namespace FlagValue

def kind : FlagValue → FlagKind
  | switch _ => .switch
  | text _ => .text
  | int _ => .int
  | duration _ => .duration
  | texts _ => .texts

def text? : FlagValue → Option String
  | text s => some s
  | _ => none

def int? : FlagValue → Option Int64
  | int n => some n
  | _ => none

def duration? : FlagValue → Option Duration
  | duration d => some d
  | _ => none

def texts? : FlagValue → Option (List String)
  | texts items => some items
  | _ => none

theorem isSome_text (v : FlagValue) (h : v.kind = .text) : v.text?.isSome := by
  cases v <;> cases h; rfl

theorem isSome_int (v : FlagValue) (h : v.kind = .int) : v.int?.isSome := by
  cases v <;> cases h; rfl

theorem isSome_duration (v : FlagValue) (h : v.kind = .duration) : v.duration?.isSome := by
  cases v <;> cases h; rfl

theorem isSome_texts (v : FlagValue) (h : v.kind = .texts) : v.texts?.isSome := by
  cases v <;> cases h; rfl

end FlagValue

/-- Every flag that was given is one of `flags` and has a value of its kind. -/
def GivenFlags.Fits (flags : List Flag) (g : GivenFlags) : Prop :=
  ∀ p ∈ g, ∃ f ∈ flags, f.name = p.1 ∧ f.kind = p.2.kind

theorem Flag.kind_read {f : Flag} {g : GivenFlags} {s : String} {v : FlagValue}
    (h : f.read g s = .ok v) : f.kind = v.kind := by
  unfold Flag.read at h
  split at h <;> rename_i hkind <;> (try split at h) <;> cases h <;> exact hkind

namespace Flags

variable {flags : List Flag} {given given' : GivenFlags}

theorem give_fits {f : Flag} (hf : f ∈ flags) {s : String} (hg : given.Fits flags)
    (h : f.give given s = .ok given') : given'.Fits flags := by
  unfold Flag.give at h
  split at h
  · rename_i v hread
    cases h
    intro p hp
    rcases List.mem_cons.mp hp with rfl | hp
    · exact ⟨f, hf, rfl, Flag.kind_read hread⟩
    · exact hg p hp
  · cases h

theorem give_map_fits {f : Flag} (hf : f ∈ flags) {s : String} (hg : given.Fits flags)
    {taken taken' : Bool}
    (h : (f.give given s).map (·, taken) = .ok (given', taken')) : given'.Fits flags := by
  cases hgive : f.give given s with
  | error e => simp [hgive, Except.map] at h
  | ok g =>
      simp only [hgive, Except.map, Except.ok.injEq, Prod.mk.injEq] at h
      exact h.1 ▸ give_fits hf hg hgive

theorem long_fits {argument : String} {body : List Char} {next : Option String} {taken : Bool}
    (hg : given.Fits flags) (h : long flags given argument body next = .ok (given', taken)) :
    given'.Fits flags := by
  unfold long at h
  split at h
  all_goals try cases h
  simp only at h
  split at h
  · cases h
  · rename_i f hf
    have hf := List.mem_of_find?_eq_some hf
    split at h
    · exact give_map_fits hf hg h
    · split at h
      · exact give_map_fits hf hg h
      · split at h
        · exact give_map_fits hf hg h
        · cases h

theorem letters_fits {next : Option String} {group : List Char} {taken : Bool}
    (hg : given.Fits flags) (h : letters flags next given group = .ok (given', taken)) :
    given'.Fits flags := by
  fun_induction letters flags next given group with
  | case1 => cases h; exact hg
  | case2 => cases h; exact hg
  | case3 => cases h
  | case4 given c f hf => exact give_map_fits (List.mem_of_find?_eq_some hf) hg h
  | case5 given c f hf cs _ _ _ _ ih =>
      -- A switch: the letters behind it go on from the flags given so far.
      cases hgive : f.give given "true" with
      | error e => simp [hgive, bind, Except.bind] at h
      | ok g =>
          simp only [hgive, bind, Except.bind] at h
          exact ih g (give_fits (List.mem_of_find?_eq_some hf) hg hgive) h
  | case6 given c f hf => exact give_map_fits (List.mem_of_find?_eq_some hf) hg h
  | case7 given c f hf => exact give_map_fits (List.mem_of_find?_eq_some hf) hg h
  | case8 => cases h

theorem parseFrom_fits {skip : Bool} {p p' : Parsed} {args : List String}
    (hp : p.given.Fits flags) (h : parseFrom flags skip p args = .ok p') :
    p'.given.Fits flags := by
  fun_induction parseFrom flags skip p args with
  | case1 => cases h; exact hp
  | case2 p s rest ih => exact ih hp h
  | case3 => cases h; exact hp
  | case4 p s rest body hne hs ih =>
      cases hlong : long flags p.given s body rest.head? with
      | error e => simp [hlong, bind, Except.bind] at h
      | ok r =>
          simp only [hlong, bind, Except.bind] at h
          exact ih r.1 r.2 (long_fits hp hlong) h
  | case5 p s rest c cs hne hne' hs ih =>
      cases hletters : letters flags rest.head? p.given (c :: cs) with
      | error e => simp [hletters, bind, Except.bind] at h
      | ok r =>
          simp only [hletters, bind, Except.bind] at h
          exact ih r.1 r.2 (letters_fits hp hletters) h
  | case6 p s rest _ _ _ ih => exact ih hp h

/-- **Flags that were read have values of their kinds.** -/
theorem parse_fits {args paths : List String} (h : parse flags args = .ok (given, paths)) :
    given.Fits flags := by
  unfold parse at h
  cases hparse : parseFrom flags false {} args with
  | error e => simp [hparse, Except.map] at h
  | ok p =>
      simp only [hparse, Except.map, Except.ok.injEq, Prod.mk.injEq] at h
      exact h.1 ▸ parseFrom_fits (by simp [GivenFlags.Fits]) hparse

end Flags

namespace GivenFlags

variable (g : GivenFlags) (name : String)

theorem text_eq (standard : String) :
    g.text name standard = ((g.lookup name).bind FlagValue.text?).getD standard := by
  unfold text
  rcases g.lookup name with _ | (_ | _ | _ | _ | _) <;> rfl

theorem int_eq : g.int name = ((g.lookup name).bind FlagValue.int?).getD 0 := by
  unfold int
  rcases g.lookup name with _ | (_ | _ | _ | _ | _) <;> rfl

theorem duration_eq :
    g.duration name = ((g.lookup name).bind FlagValue.duration?).getD ⟨0⟩ := by
  unfold duration
  rcases g.lookup name with _ | (_ | _ | _ | _ | _) <;> rfl

theorem texts_eq : g.texts? name = (g.lookup name).bind FlagValue.texts? := by
  unfold texts?
  rcases g.lookup name with _ | (_ | _ | _ | _ | _) <;> rfl

variable {g name}

/-- A flag of one kind is given exactly when it has a value of this kind. -/
theorem Fits.has_eq {α : Type} {flags : List Flag} (hg : g.Fits flags) {kind : FlagKind}
    (hkind : ∀ f ∈ flags, f.name = name → f.kind = kind) {read : FlagValue → Option α}
    (hread : ∀ v, v.kind = kind → (read v).isSome) :
    g.has name = ((g.lookup name).bind read).isSome := by
  unfold has
  cases hv : g.lookup name with
  | none => rfl
  | some v =>
      obtain ⟨before, after, split, -⟩ := List.lookup_eq_some_iff.mp hv
      obtain ⟨f, hf, hname, hfv⟩ := hg (name, v) (by simp [split])
      have hv : v.kind = kind := hfv.symm.trans (hkind f hf hname)
      simp [hread v hv]

end GivenFlags

/-! ### The environment -/

namespace Environment

/-- The value of a variable without the blanks around it; absent when it is unset or blank. -/
def value? (env : Environment) (name : String) : Option String :=
  let value := trimSpace ((env.lookup name).getD "")
  if value == "" then none else some value

def jobs? (env : Environment) : Option Int64 :=
  (env.value? "SOLIDHUNTER_JOBS").bind fun v => (Integer.read v).toOption

def solcTimeout? (env : Environment) : Option Duration :=
  (env.value? "SOLIDHUNTER_SOLC_TIMEOUT").bind fun v => (Duration.parse v).toOption

/-- Are the values that have to be numbers or lengths of time just that? -/
def isReadable (env : Environment) : Bool :=
  ((env.value? "SOLIDHUNTER_JOBS").all fun v => (Integer.read v).isOk)
    && ((env.value? "SOLIDHUNTER_SOLC_TIMEOUT").all fun v => (Duration.parse v).isOk)

end Environment

namespace Settings

/-- What the environment sets, if it is readable. -/
def under (s : Settings) (env : Environment) : Settings :=
  { s with
    format := ((env.value? "SOLIDHUNTER_FORMAT").map lowerCase).getD s.format
    ignoring := ((env.value? "SOLIDHUNTER_IGNORE").map EnvironmentVariable.elements).or s.ignoring
    jobs := env.jobs?.getD s.jobs
    frontEnd := ((env.value? "SOLIDHUNTER_PARSER").map lowerCase).getD s.frontEnd
    solc := (env.value? "SOLIDHUNTER_SOLC").getD s.solc
    solcTimeout := env.solcTimeout?.getD s.solcTimeout }

/-- Lays the value of a variable over settings unless it is blank. -/
def layer (env : Environment) (s : Settings) (v : EnvironmentVariable) :
    Except Failure Settings :=
  match env.value? v.name with
  | none => .ok s
  | some value => v.apply value s

theorem foldlM_congr {f g : Settings → EnvironmentVariable → Except Failure Settings}
    (h : ∀ s v, f s v = g s v) (vs : List EnvironmentVariable) (s : Settings) :
    vs.foldlM f s = vs.foldlM g s := by
  rw [funext fun s => funext (h s)]

theorem withEnvironment_eq_foldlM (env : Environment) (s : Settings) :
    s.withEnvironment env = EnvironmentVariable.all.foldlM (layer env) s := by
  refine foldlM_congr (fun s v => ?_) EnvironmentVariable.all s
  unfold layer Environment.value?
  simp only
  split <;> rfl

section Layer

-- A variable that sets one field: writing what the field holds changes nothing.
variable {α ε : Type} {env : Environment} {v : EnvironmentVariable} {vs : List EnvironmentVariable}
  {s : Settings} (get : Settings → α) (set : Settings → α → Settings)
  (same : ∀ s, set s (get s) = s)
include same

theorem foldlM_layer_read (read : String → α)
    (happly : ∀ value s, v.apply value s = .ok (set s (read value))) :
    (v :: vs).foldlM (layer env) s =
      vs.foldlM (layer env) (set s (((env.value? v.name).map read).getD (get s))) := by
  rw [List.foldlM_cons, layer]
  cases env.value? v.name with
  | none => rw [Option.map_none, Option.getD_none, same]; rfl
  | some value => simp only [happly]; rfl

theorem foldlM_layer_tried (read : String → Except ε α) (bad : String → Failure)
    (happly : ∀ value s, v.apply value s =
      match read value with
      | .ok a => .ok (set s a)
      | .error _ => .error (bad value)) :
    (v :: vs).foldlM (layer env) s =
      if (env.value? v.name).all fun value => (read value).isOk then
        vs.foldlM (layer env)
          (set s (((env.value? v.name).bind fun value => (read value).toOption).getD (get s)))
      else .error (bad ((env.value? v.name).getD "")) := by
  rw [List.foldlM_cons, layer]
  cases env.value? v.name with
  | none => rw [Option.bind_none, Option.getD_none, same]; rfl
  | some value =>
      simp only [happly]
      cases hr : read value <;>
        simp [hr, bind, Except.bind, Except.isOk, Except.toBool, Except.toOption]

end Layer

/-- The variables in order, each with the field that it sets. -/
theorem withEnvironment_eq_ite (env : Environment) (s : Settings) :
    s.withEnvironment env =
      if (env.value? "SOLIDHUNTER_JOBS").all fun v => (Integer.read v).isOk then
        if (env.value? "SOLIDHUNTER_SOLC_TIMEOUT").all fun v => (Duration.parse v).isOk then
          .ok (s.under env)
        else .error (EnvironmentVariable.badDuration "SOLIDHUNTER_SOLC_TIMEOUT"
          ((env.value? "SOLIDHUNTER_SOLC_TIMEOUT").getD ""))
      else .error (EnvironmentVariable.badInteger "SOLIDHUNTER_JOBS"
        ((env.value? "SOLIDHUNTER_JOBS").getD "")) := by
  have ignored (x : Option String) (y : Option (List String)) :
      (x.map (some ∘ EnvironmentVariable.elements)).getD y
        = (x.map EnvironmentVariable.elements).or y := by
    cases x <;> rfl
  refine (withEnvironment_eq_foldlM env s).trans ?_
  refine (foldlM_layer_read format (fun s a => { s with format := a }) (fun _ => rfl)
      lowerCase fun _ _ => rfl).trans ?_
  refine (foldlM_layer_read ignoring (fun s a => { s with ignoring := a }) (fun _ => rfl)
      (some ∘ EnvironmentVariable.elements) fun _ _ => rfl).trans ?_
  refine (foldlM_layer_tried jobs (fun s a => { s with jobs := a }) (fun _ => rfl) Integer.read
      (EnvironmentVariable.badInteger "SOLIDHUNTER_JOBS")
      fun v _ => by simp only; cases Integer.read v <;> rfl).trans ?_
  refine ite_congr rfl (fun _ => ?_) (fun _ => rfl)
  refine (foldlM_layer_read frontEnd (fun s a => { s with frontEnd := a }) (fun _ => rfl)
      lowerCase fun _ _ => rfl).trans ?_
  refine (foldlM_layer_read solc (fun s a => { s with solc := a }) (fun _ => rfl) id
      fun _ _ => rfl).trans ?_
  refine (foldlM_layer_tried solcTimeout (fun s a => { s with solcTimeout := a }) (fun _ => rfl)
      Duration.parse (EnvironmentVariable.badDuration "SOLIDHUNTER_SOLC_TIMEOUT")
      fun v _ => by simp only; cases Duration.parse v <;> rfl).trans ?_
  refine ite_congr rfl (fun _ => ?_) (fun _ => rfl)
  simp only [under, Environment.jobs?, Environment.solcTimeout?, Option.map_id_fun, id, ignored,
    List.foldlM_nil, pure, Except.pure]

/-- **What the environment sets**: it is taken over as a whole, or refused. -/
theorem withEnvironment_eq (env : Environment) :
    ∃ e, ∀ s : Settings,
      s.withEnvironment env = if env.isReadable then .ok (s.under env) else .error e := by
  by_cases hjobs : (env.value? "SOLIDHUNTER_JOBS").all fun v => (Integer.read v).isOk
  · refine ⟨EnvironmentVariable.badDuration "SOLIDHUNTER_SOLC_TIMEOUT"
      ((env.value? "SOLIDHUNTER_SOLC_TIMEOUT").getD ""), fun s => ?_⟩
    rw [withEnvironment_eq_ite, if_pos hjobs]
    simp only [Environment.isReadable, hjobs, Bool.true_and]
  · refine ⟨EnvironmentVariable.badInteger "SOLIDHUNTER_JOBS"
      ((env.value? "SOLIDHUNTER_JOBS").getD ""), fun s => ?_⟩
    rw [withEnvironment_eq_ite, if_neg hjobs, if_neg (by simp [Environment.isReadable, hjobs])]

end Settings

/-! ### Loading -/

/-- The sources of the options of a run. -/
structure OptionSources where
  format : Sources String
  frontEnd : Sources String
  solc : Sources String
  solcTimeout : Sources Duration
  jobs : Sources Int64
  ignoring : Sources (List String)

/-- The sources that flags and an environment are, with the defaults below them. -/
def OptionSources.of (given : GivenFlags) (env : Environment) : OptionSources where
  format := ⟨(given.lookup "format").bind FlagValue.text?,
    (env.value? "SOLIDHUNTER_FORMAT").map lowerCase, "text"⟩
  frontEnd := ⟨(given.lookup "parser").bind FlagValue.text?,
    (env.value? "SOLIDHUNTER_PARSER").map lowerCase, "solc"⟩
  solc := ⟨(given.lookup "solc").bind FlagValue.text?, env.value? "SOLIDHUNTER_SOLC", "solc"⟩
  solcTimeout := ⟨(given.lookup "solc-timeout").bind FlagValue.duration?, env.solcTimeout?,
    .seconds 30⟩
  jobs := ⟨(given.lookup "jobs").bind FlagValue.int?, env.jobs?, 0⟩
  ignoring := ⟨(given.lookup "ignore").bind FlagValue.texts?,
    (env.value? "SOLIDHUNTER_IGNORE").map EnvironmentVariable.elements, []⟩

namespace Settings

/-- The settings for a rule set, where each option is taken from its sources. -/
def settled (given : GivenFlags) (env : Environment) (path : String) (rs : RuleSet) : Settings :=
  let s := OptionSources.of given env
  { ruleSet := rs
    ruleSetPath := path
    ignoring := s.ignoring.passed.or s.ignoring.environment
    frontEnd := s.frontEnd.taken ""
    solc := s.solc.taken ""
    solcTimeout := s.solcTimeout.taken ⟨0⟩
    foundryRoot := given.text "foundry-root" ""
    format := s.format.taken ""
    jobs := s.jobs.taken 0
    strict := given.isOn "strict" }

theorem textOver_eq_taken (s : Sources String) :
    textOver (s.passed.getD "") s.below = s.taken "" := by
  rw [← Sources.ite_eq_taken]
  simp [textOver]

/-- Flags over the environment over the defaults give every option from its sources. -/
theorem overriddenBy_eq_settled (given : GivenFlags) (env : Environment) (path : String)
    (rs : RuleSet) :
    (({ ofRuleSet rs with ruleSetPath := path } : Settings).under env).overriddenBy
      (Cli.overrides given) = settled given env path rs := by
  have timeout (s : Sources Duration) :
      (if (s.passed.getD ⟨0⟩).nanoseconds == 0 then s.below else s.passed.getD ⟨0⟩)
        = s.taken ⟨0⟩ := by
    rw [← Sources.ite_eq_taken]
    rcases s.passed.getD ⟨0⟩ with ⟨n⟩
    simp
  have jobs (s : Sources Int64) :
      (if s.passed.getD 0 == 0 then s.below else s.passed.getD 0) = s.taken 0 := by
    rw [← Sources.ite_eq_taken]
    simp
  have root (s : String) : textOver s "" = s := by
    by_cases h : s = "" <;> simp [textOver, h]
  simp only [overriddenBy, Cli.overrides, settled, under, ofRuleSet, GivenFlags.text_eq,
    GivenFlags.int_eq, GivenFlags.duration_eq, GivenFlags.texts_eq, ← textOver_eq_taken, ← timeout,
    ← jobs, root, Option.or_none, Bool.or_false, OptionSources.of, Sources.below]

/-- Settings that passed their check, with its warnings. -/
def checked (registry : Registry) (s : Settings) : Except Failure LoadedSettings :=
  match (s.validate registry).failure? with
  | some e => .error e
  | none => .ok ⟨s, (s.validate registry).warnings.map (·.message)⟩

theorem settings_of_checked {registry : Registry} {s : Settings} {l : LoadedSettings}
    (h : s.checked registry = .ok l) : l.settings = s := by
  unfold checked at h
  split at h <;> cases h
  rfl

theorem checked_of_isValid {registry : Registry} {s : Settings}
    (h : (s.validate registry).isValid) : ∃ l, s.checked registry = .ok l ∧ l.settings = s := by
  unfold checked
  generalize s.validate registry = found at h
  have none : found.failure? = none := by
    unfold Validation.failure?
    rw [List.isEmpty_iff.mp h]
  exact ⟨⟨s, found.warnings.map (·.message)⟩, by rw [none], rfl⟩

end Settings

namespace LoadOptions

variable (o : LoadOptions) (registry : Registry) (w : Workspace) (env : Environment)
  (cancelled : Bool)

/-- The directory that the search starts from. -/
def startDir : Except Failure String :=
  if o.workingDir == "" then w.currentDir else .ok o.workingDir

/-- The rule set of a file, or that of all rules when there is none. -/
def ruleSetAt (path : String) : Except Failure RuleSet :=
  if path == "" then .ok (.ofEntries defaultRuleSetName registry.defaultEntries)
  else match RuleSet.load w.files path with
    | .ok rs => .ok rs
    | .error e => .error (.within "load rule set" e)

/-- The rule set that is used, behind the path of its file. -/
def foundRuleSet : Except Failure (String × RuleSet) := do
  let dir ← o.startDir w
  let path ← o.ruleSetPath w env cancelled dir
  let rs ← ruleSetAt registry w path
  .ok (path, rs)

theorem ruleSetAt_bind {α : Type} (path : String) (next : RuleSet → Except Failure α) :
    (if path == "" then
        Except.ok (RuleSet.ofEntries defaultRuleSetName registry.defaultEntries) >>= next
      else match RuleSet.load w.files path with
        | .ok rs => Except.ok rs >>= next
        | .error e => Except.error (Failure.within "load rule set" e) >>= next)
      = ruleSetAt registry w path >>= next := by
  unfold ruleSetAt
  split
  · rfl
  · cases RuleSet.load w.files path <;> rfl

/-- **Loading**: a rule set is found, the options are settled, and the settings are checked. -/
theorem load_eq {given : GivenFlags} (hflags : o.overrides = some (Cli.overrides given))
    (henv : o.ignoreEnvironment = false) :
    ∃ e, o.load registry w env cancelled =
      o.foundRuleSet registry w env cancelled >>= fun found =>
        if env.isReadable then (Settings.settled given env found.1 found.2).checked registry
        else .error e := by
  obtain ⟨e, henvironment⟩ := Settings.withEnvironment_eq env
  refine ⟨.within "load environment" e, ?_⟩
  unfold load foundRuleSet startDir
  simp only [bind_assoc]
  split <;> refine bind_congr fun dir => bind_congr fun path =>
    (ruleSetAt_bind registry w path _).trans (bind_congr fun rs => ?_)
  all_goals
    simp only [henv, hflags, henvironment, Bool.false_eq_true, if_false, Option.map_some,
      Option.getD_some]
    cases env.isReadable with
    | true =>
        simp only [if_true, bind, Except.bind, ← Settings.overriddenBy_eq_settled]
        generalize Settings.overriddenBy _ _ = settings
        unfold Settings.checked
        cases (settings.validate registry).failure? <;> rfl
    | false => rfl

end LoadOptions

/-! ### Which source counts -/

/-- The flags that `lint` knows. -/
def lintFlags : List Flag := Cli.ownFlags Commands.lint ++ Commands.shared

/-- **A flag counts before the environment and the environment before the default**, save that a
flag with an empty value is lost: for all arguments of `lint`, all environments and all places that
a rule set can come from.  The first part says that the sources tell which flags were passed; the
second, which options have their value in whatever is loaded; the last, that settings are loaded
once there is a rule set, the environment is readable and the check accepts them. -/
theorem flags_precede_unless_empty {args paths : List String} {given : GivenFlags}
    (hargs : Flags.parse lintFlags args = .ok (given, paths)) {o : LoadOptions}
    (hflags : o.overrides = some (Cli.overrides given)) (henv : o.ignoreEnvironment = false)
    (registry : Registry) (w : Workspace) (env : Environment) (cancelled : Bool) :
    let s := OptionSources.of given env
    (given.has "format" = s.format.passed.isSome ∧ given.has "parser" = s.frontEnd.passed.isSome ∧
      given.has "solc" = s.solc.passed.isSome ∧
      given.has "solc-timeout" = s.solcTimeout.passed.isSome ∧
      given.has "jobs" = s.jobs.passed.isSome ∧ given.has "ignore" = s.ignoring.passed.isSome) ∧
    (∀ l, o.load registry w env cancelled = .ok l →
      (l.settings.format = s.format.value ↔ s.format.Kept "") ∧
      (l.settings.frontEnd = s.frontEnd.value ↔ s.frontEnd.Kept "") ∧
      (l.settings.solc = s.solc.value ↔ s.solc.Kept "") ∧
      (l.settings.solcTimeout = s.solcTimeout.value ↔ s.solcTimeout.Kept ⟨0⟩) ∧
      (l.settings.jobs = s.jobs.value ↔ s.jobs.Kept 0) ∧
      l.settings.ignoring.getD [] = s.ignoring.value) ∧
    ∀ path rs, o.foundRuleSet registry w env cancelled = .ok (path, rs) → env.isReadable →
      ((Settings.settled given env path rs).validate registry).isValid →
      ∃ l, o.load registry w env cancelled = .ok l ∧
        l.settings = Settings.settled given env path rs := by
  intro s
  obtain ⟨e, hload⟩ := o.load_eq registry w env cancelled hflags henv
  have fits := Flags.parse_fits hargs
  refine ⟨⟨?_, ?_, ?_, ?_, ?_, ?_⟩, ?_, ?_⟩
  · exact fits.has_eq (by decide) FlagValue.isSome_text
  · exact fits.has_eq (by decide) FlagValue.isSome_text
  · exact fits.has_eq (by decide) FlagValue.isSome_text
  · exact fits.has_eq (by decide) FlagValue.isSome_duration
  · exact fits.has_eq (by decide) FlagValue.isSome_int
  · exact fits.has_eq (by decide) FlagValue.isSome_texts
  · intro l hl
    obtain ⟨path, rs, hl⟩ : ∃ path rs, l.settings = Settings.settled given env path rs := by
      rw [hload] at hl
      cases hfound : o.foundRuleSet registry w env cancelled with
      | error e => rw [hfound] at hl; cases hl
      | ok found =>
          simp only [hfound, bind, Except.bind] at hl
          split at hl
          · exact ⟨_, _, Settings.settings_of_checked hl⟩
          · cases hl
    rw [hl]
    refine ⟨Sources.taken_eq_value_iff, Sources.taken_eq_value_iff, Sources.taken_eq_value_iff,
      Sources.taken_eq_value_iff, Sources.taken_eq_value_iff, ?_⟩
    exact Sources.getD_or s.ignoring
  · intro path rs hfound hreadable hvalid
    obtain ⟨l, hl, hsettings⟩ := Settings.checked_of_isValid hvalid
    refine ⟨l, ?_, hsettings⟩
    rw [hload, hfound]
    simp only [bind, Except.bind, hreadable, if_true, hl]

/-- The text of a rule set without rules. -/
def bareRuleSet : String := "\x7b\"rules\":[]\x7d"

/-- A workspace with that rule set. -/
def bareWorkspace : Workspace :=
  { files := { root := .dir [("r.json", .file { content := bareRuleSet.toUTF8 })] }
    current := none }

/-- Loads that rule set under flags. -/
def bareLoad (given : GivenFlags) : LoadOptions :=
  { workingDir := "/", explicit := "/r.json", overrides := some (Cli.overrides given) }

theorem load_bareRuleSet :
    RuleSet.load bareWorkspace.files "/r.json" = .ok (.ofEntries "" []) := by
  have read : bareWorkspace.files.read "/r.json" = .ok bareRuleSet.toUTF8 :=
    FileTree.read_of_steps ["r.json"] rfl (by decide) ⟨_, rfl, rfl⟩
  have format : FileFormat.ofPath "/r.json" = .json := rfl
  have text : textOfBytes bareRuleSet.toUTF8 = bareRuleSet := rfl
  have written : bareRuleSet = (Json.obj [("rules", .arr [])]).compact := rfl
  have value : Json.parseFirst? bareRuleSet = some (.obj [("rules", .arr [])]) := by
    rw [written]
    exact Json.parseFirst?_compact (by simp [Json.numerals_obj, Json.numerals_arr]) (by decide)
  rw [RuleSet.load, read]
  simp only [format, text, RuleSet.parse, value]
  rfl

theorem foundRuleSet_bareLoad (given : GivenFlags) (env : Environment) :
    (bareLoad given).foundRuleSet Rules.builtin bareWorkspace env false
      = .ok ("/r.json", .ofEntries "" []) := by
  have start : (bareLoad given).startDir bareWorkspace = .ok "/" := by
    simp [LoadOptions.startDir, bareLoad]
  have path : (bareLoad given).ruleSetPath bareWorkspace env false "/" = .ok "/r.json" := by
    have absolute : Path.isAbsolute "/r.json" = true := rfl
    simp [LoadOptions.ruleSetPath, bareLoad, absolute]
  have rules : LoadOptions.ruleSetAt Rules.builtin bareWorkspace "/r.json"
      = .ok (.ofEntries "" []) := by
    simp [LoadOptions.ruleSetAt, load_bareRuleSet]
  simp only [LoadOptions.foundRuleSet, start, path, rules, bind, Except.bind]

/-- Eight workers that were asked for count before four of the environment. -/
theorem flags_precede_unless_empty_eight :
    ∃ given l, Flags.parse lintFlags ["-j", "8"] = .ok (given, []) ∧
      (bareLoad given).load Rules.builtin bareWorkspace [("SOLIDHUNTER_JOBS", " 4 ")] false = .ok l ∧
      l.settings.jobs = 8 ∧ l.settings.format = "text" := by
  have parsed : Flags.parse lintFlags ["-j", "8"] = .ok ([("jobs", .int 8)], []) := rfl
  obtain ⟨-, counts, loads⟩ := flags_precede_unless_empty parsed
    (o := bareLoad [("jobs", .int 8)]) rfl rfl Rules.builtin bareWorkspace
    [("SOLIDHUNTER_JOBS", " 4 ")] false
  obtain ⟨l, hl, -⟩ := loads "/r.json" (.ofEntries "" []) (foundRuleSet_bareLoad _ _)
    rfl rfl
  obtain ⟨format, -, -, -, jobs, -⟩ := counts l hl
  exact ⟨_, l, parsed, hl, jobs.mpr (by decide), format.mpr (by decide)⟩

/-- **An explicit zero is lost**: with `--jobs 0`, which asks for as many workers as there are
processors, over an environment that asks for four, four is what is loaded. -/
theorem zero_jobs_lost :
    ∃ given, Flags.parse lintFlags ["--jobs", "0"] = .ok (given, []) ∧
      given.lookup "jobs" = some (.int 0) ∧
      ((bareLoad given).load Rules.builtin bareWorkspace [("SOLIDHUNTER_JOBS", "4")] false).toOption.map
        (·.settings.jobs) = some 4 := by
  refine ⟨[("jobs", .int 0)], rfl, rfl, ?_⟩
  obtain ⟨e, hload⟩ := (bareLoad [("jobs", .int 0)]).load_eq Rules.builtin bareWorkspace
    [("SOLIDHUNTER_JOBS", "4")] false rfl rfl
  have readable : Environment.isReadable [("SOLIDHUNTER_JOBS", "4")] := rfl
  rw [hload, foundRuleSet_bareLoad]
  simp only [bind, Except.bind, readable, if_true]
  rfl

end SolidityLint
