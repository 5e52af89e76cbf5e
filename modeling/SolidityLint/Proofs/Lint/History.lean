import Mathlib.Data.List.Induction
import SolidityLint.Proofs.Lint.Sessions

/-!
# Lint — the history of a session

A session is used turn after turn: files are parsed, added, removed and linted, and what is
excluded may be another thing at every turn (`Turn`).  What a session holds follows from its
history alone: `LastStored turns path f` says that `f` is what the last turn about `path` stored.

* `file?_take`: one turn stores a file at its path, forgets a path, or leaves every path alone.
* `file?_after`: so after any turns the session has at each path what was stored there last.
* `lintEach_eq`: all files are linted in order, against the same files.
-/

namespace SolidityLint

/-- A call on a session. -/
inductive Call where
  | parse (parser : SourceParser) (path : String) (content : ByteArray)
  | add (file : SourceFile)
  | remove (path : String)
  | lintContent (parser : SourceParser) (cancelled : Bool) (path : String) (content : ByteArray)
  | lintAll (cancelled : Bool)

/-- A call, and what is excluded when it is made. -/
structure Turn where
  excluded : String → Bool
  call : Call

namespace Turn

/-- The parser of the call, if it has one, gives files the paths that it was asked for. -/
def KeepsPaths (t : Turn) : Prop :=
  match t.call with
  | .parse parser _ _ | .lintContent parser _ _ _ => SolidityLint.KeepsPaths parser
  | .add _ | .remove _ | .lintAll _ => True

/-- The file that the turn stores, under the path that the call names.  Nothing is stored of a
text that does not parse or of an excluded path. -/
def stored? (t : Turn) : Option (String × SourceFile) :=
  match t.call with
  | .parse parser path content => (parser path content).toOption.map (path, ·)
  | .add f => some (f.path, f)
  | .lintContent parser _ path content =>
    if t.excluded path then none else (parser path content).toOption.map (path, ·)
  | .remove _ | .lintAll _ => none

/-- The path that the turn forgets. -/
def forgotten? (t : Turn) : Option String :=
  match t.call with
  | .remove path => some path
  | .parse .. | .add _ | .lintContent .. | .lintAll _ => none

/-- The turn stores a file at the path or forgets it. -/
def Concerns (t : Turn) (path : String) : Prop :=
  (∃ f, t.stored? = some (path, f)) ∨ t.forgotten? = some path

end Turn

/-- The file is what the last turn about the path stored. -/
def LastStored (turns : List Turn) (path : String) (f : SourceFile) : Prop :=
  ∃ before t later, turns = before ++ t :: later ∧ t.stored? = some (path, f) ∧
    ∀ u ∈ later, ¬ u.Concerns path

namespace Session

/-- The session with other exclusions. -/
def under (s : Session) (excluded : String → Bool) : Session := { s with excluded }

/-- The session after a turn. -/
def take (s : Session) (t : Turn) : Session :=
  match t.call with
  | .parse parser path content =>
    match (s.under t.excluded).parse parser path content with
    | .ok (_, s) => s
    | .error _ => s.under t.excluded
  | .add f => (s.under t.excluded).add f
  | .remove path => (s.under t.excluded).remove path
  | .lintContent parser cancelled path content =>
    ((s.under t.excluded).lintContent parser cancelled path content).2
  | .lintAll _ => s.under t.excluded

/-- A new session after some turns. -/
def after (rules : List Rule) (turns : List Turn) : Session := turns.foldl take { rules }

theorem after_append (rules : List Rule) (turns : List Turn) (t : Turn) :
    after rules (turns ++ [t]) = (after rules turns).take t :=
  List.foldl_append

/-! ### One turn -/

theorem parse_of_error {s : Session} {parser : SourceParser} {path : String} {content : ByteArray}
    {e : Failure} (h : parser path content = .error e) :
    s.parse parser path content = .error (.within ("parse " ++ path) e) := by
  rw [parse, h]

theorem parse_of_ok {s : Session} {parser : SourceParser} {path : String} {content : ByteArray}
    {f : SourceFile} (h : parser path content = .ok f) :
    s.parse parser path content = .ok (f, s.add f) := by
  rw [parse, h]

theorem lintContent_of_excluded {s : Session} {path : String} (h : s.excluded path)
    (parser : SourceParser) (cancelled : Bool) (content : ByteArray) :
    s.lintContent parser cancelled path content =
      (.ok { file := some (.ofBytes path content none) }, s) :=
  if_pos h

theorem lintContent_of_error {s : Session} {parser : SourceParser} {path : String}
    {content : ByteArray} {e : Failure} (listed : ¬ s.excluded path)
    (h : parser path content = .error e) (cancelled : Bool) :
    s.lintContent parser cancelled path content = (.error (.within ("parse " ++ path) e), s) := by
  rw [lintContent, if_neg listed, parse_of_error h]

theorem lintContent_of_ok {s : Session} {parser : SourceParser} {path : String}
    {content : ByteArray} {f : SourceFile} (listed : ¬ s.excluded path)
    (h : parser path content = .ok f) (cancelled : Bool) :
    s.lintContent parser cancelled path content = ((s.add f).lint cancelled f, s.add f) := by
  rw [lintContent, if_neg listed, parse_of_ok h]

/-- **What a turn can do**: it stores a file, forgets a path, or changes no file. -/
theorem take_cases (s : Session) (t : Turn) :
    (∃ path f, t.stored? = some (path, f) ∧ t.forgotten? = none ∧
      s.take t = (s.under t.excluded).add f) ∨
    (∃ path, t.forgotten? = some path ∧ t.stored? = none ∧
      s.take t = (s.under t.excluded).remove path) ∨
    (t.stored? = none ∧ t.forgotten? = none ∧ s.take t = s.under t.excluded) := by
  obtain ⟨excluded, call⟩ := t
  cases call with
  | add f => exact .inl ⟨f.path, f, rfl, rfl, rfl⟩
  | remove path => exact .inr (.inl ⟨path, rfl, rfl, rfl⟩)
  | lintAll cancelled => exact .inr (.inr ⟨rfl, rfl, rfl⟩)
  | parse parser path content =>
      cases h : parser path content with
      | ok f =>
          refine .inl ⟨path, f, ?_, rfl, ?_⟩
          · simp [Turn.stored?, h, Except.toOption]
          · simp only [take, parse_of_ok h]
      | error e =>
          refine .inr (.inr ⟨?_, rfl, ?_⟩)
          · simp [Turn.stored?, h, Except.toOption]
          · simp only [take, parse_of_error h]
  | lintContent parser cancelled path content =>
      by_cases out : excluded path
      · refine .inr (.inr ⟨if_pos out, rfl, ?_⟩)
        simp only [take]
        rw [lintContent_of_excluded (show (s.under excluded).excluded path from out)]
      · have listed : ¬ (s.under excluded).excluded path := out
        cases h : parser path content with
        | ok f =>
            refine .inl ⟨path, f, ?_, rfl, ?_⟩
            · simp [Turn.stored?, out, h, Except.toOption]
            · simp only [take, lintContent_of_ok listed h]
        | error e =>
            refine .inr (.inr ⟨?_, rfl, ?_⟩)
            · simp [Turn.stored?, out, h, Except.toOption]
            · simp only [take, lintContent_of_error listed h]

end Session

/-- A file is stored at its own path. -/
theorem Turn.KeepsPaths.path_eq {t : Turn} (names : t.KeepsPaths) {path : String} {f : SourceFile}
    (h : t.stored? = some (path, f)) : f.path = path := by
  obtain ⟨excluded, call⟩ := t
  -- What a parser has given for the path has that path.
  have parsed : ∀ {parser : SourceParser} {asked : String} {content : ByteArray},
      SolidityLint.KeepsPaths parser →
      (parser asked content).toOption.map (asked, ·) = some (path, f) → f.path = path := by
    intro parser asked content keeps h
    cases given : parser asked content with
    | error e => simp [given, Except.toOption] at h
    | ok g =>
        simp only [given, Except.toOption, Option.map_some, Option.some.injEq,
          Prod.mk.injEq] at h
        obtain ⟨rfl, rfl⟩ := h
        exact keeps _ _ _ given
  cases call with
  | parse parser asked content => exact parsed names h
  | add g =>
      simp only [Turn.stored?, Option.some.injEq, Prod.mk.injEq] at h
      exact h.2 ▸ h.1
  | lintContent parser cancelled asked content =>
      by_cases out : excluded asked
      · simp [Turn.stored?, out] at h
      · exact parsed names (by simpa [Turn.stored?, out] using h)
  | remove gone => cases h
  | lintAll cancelled => cases h

namespace Session

@[simp] theorem file?_under (s : Session) (excluded : String → Bool) (path : String) :
    (s.under excluded).file? path = s.file? path := rfl

theorem file?_take_stored {t : Turn} (names : t.KeepsPaths) {path : String} {f : SourceFile}
    (h : t.stored? = some (path, f)) (s : Session) : (s.take t).file? path = some f := by
  rcases s.take_cases t with ⟨own, g, stored, -, eq⟩ | ⟨_, _, stored, _⟩ | ⟨stored, _⟩
  · obtain ⟨rfl, rfl⟩ := Prod.mk.inj (Option.some.inj (stored.symm.trans h))
    rw [eq, file?_add, if_pos (names.path_eq h)]
  · rw [stored] at h; cases h
  · rw [stored] at h; cases h

theorem file?_take_forgotten {t : Turn} {path : String} (h : t.forgotten? = some path)
    (s : Session) : (s.take t).file? path = none := by
  rcases s.take_cases t with ⟨_, _, _, forgotten, _⟩ | ⟨gone, forgotten, -, eq⟩ | ⟨_, forgotten, _⟩
  · rw [forgotten] at h; cases h
  · obtain rfl := Option.some.inj (forgotten.symm.trans h)
    rw [eq, file?_remove, if_pos rfl]
  · rw [forgotten] at h; cases h

theorem file?_take_of_not_concerns {t : Turn} (names : t.KeepsPaths) {path : String}
    (h : ¬ t.Concerns path) (s : Session) : (s.take t).file? path = s.file? path := by
  rcases s.take_cases t with ⟨own, g, stored, -, eq⟩ | ⟨gone, forgotten, -, eq⟩ | ⟨-, -, eq⟩
  · have other : g.path ≠ path := fun same =>
      h (.inl ⟨g, by rw [stored, ← names.path_eq stored, same]⟩)
    rw [eq, file?_add, if_neg other, file?_under]
  · have other : path ≠ gone := fun same => h (.inr (same ▸ forgotten))
    rw [eq, file?_remove, if_neg other, file?_under]
  · rw [eq, file?_under]

theorem InOrder.take {s : Session} (h : s.InOrder) (t : Turn) : (s.take t).InOrder := by
  have same : (s.under t.excluded).InOrder := h
  rcases s.take_cases t with ⟨_, f, -, -, eq⟩ | ⟨path, -, -, eq⟩ | ⟨-, -, eq⟩
  · exact eq ▸ same.add f
  · exact eq ▸ same.filter _
  · exact eq ▸ same

/-! ### All turns -/

theorem inOrder_after (rules : List Rule) (turns : List Turn) : (after rules turns).InOrder := by
  induction turns using List.reverseRecOn with
  | nil => exact List.Pairwise.nil
  | append_singleton turns t ih => exact after_append rules turns t ▸ ih.take t

theorem rules_after (rules : List Rule) (turns : List Turn) : (after rules turns).rules = rules := by
  induction turns using List.reverseRecOn with
  | nil => rfl
  | append_singleton turns t ih =>
      rw [after_append]
      rcases (after rules turns).take_cases t with ⟨_, _, -, -, eq⟩ | ⟨_, -, -, eq⟩ | ⟨-, -, eq⟩
      all_goals exact eq ▸ ih

end Session

/-- The last turn decides if it is about the path, and leaves the path alone if not. -/
theorem lastStored_append {turns : List Turn} {t : Turn} {path : String} {f : SourceFile} :
    LastStored (turns ++ [t]) path f ↔
      t.stored? = some (path, f) ∨ (¬ t.Concerns path ∧ LastStored turns path f) := by
  constructor
  · rintro ⟨before, u, later, eq, stored, silent⟩
    rcases List.eq_nil_or_concat' later with rfl | ⟨more, last, rfl⟩
    · obtain ⟨-, same⟩ := List.append_inj' eq rfl
      obtain rfl := List.singleton_inj.mp same
      exact .inl stored
    · rw [← List.cons_append, ← List.append_assoc] at eq
      obtain ⟨rfl, same⟩ := List.append_inj' eq rfl
      obtain rfl := List.singleton_inj.mp same
      obtain ⟨between, other⟩ := List.forall_mem_append.mp silent
      exact .inr ⟨other t List.mem_cons_self, before, u, more, rfl, stored, between⟩
  · rintro (stored | ⟨other, before, u, later, rfl, stored, silent⟩)
    · exact ⟨turns, t, [], rfl, stored, fun _ h => absurd h List.not_mem_nil⟩
    · refine ⟨before, u, later ++ [t], by simp, stored, ?_⟩
      exact List.forall_mem_append.mpr ⟨silent, by simpa using other⟩

namespace Session

/-- **What stands at a path** after any turns is what was stored there last. -/
theorem file?_after (rules : List Rule) {turns : List Turn} (names : ∀ t ∈ turns, t.KeepsPaths)
    (path : String) (f : SourceFile) :
    (after rules turns).file? path = some f ↔ LastStored turns path f := by
  induction turns using List.reverseRecOn with
  | nil =>
      refine ⟨fun h => absurd h (by simp [after, file?]), ?_⟩
      rintro ⟨before, t, later, eq, -⟩
      simp at eq
  | append_singleton turns t ih =>
      obtain ⟨earlier, own⟩ := List.forall_mem_append.mp names
      have keeps : t.KeepsPaths := own t List.mem_cons_self
      rw [after_append, lastStored_append]
      by_cases about : t.Concerns path
      · simp only [about, not_true_eq_false, false_and, or_false]
        rcases about with ⟨g, stored⟩ | forgotten
        · simp [file?_take_stored keeps stored, stored]
        · have none : t.stored? ≠ some (path, f) := fun stored => by
            have := file?_take_stored keeps stored (after rules turns)
            rw [file?_take_forgotten forgotten] at this
            cases this
          simp [file?_take_forgotten forgotten, none]
      · have none : t.stored? ≠ some (path, f) := fun stored => about (.inl ⟨f, stored⟩)
        rw [file?_take_of_not_concerns keeps about, ih earlier]
        simp [none, about]

/-! ### Linting -/

/-- What linting a file of the session gives unless it is called off. -/
def resultOf (s : Session) (f : SourceFile) : FileResult :=
  if s.excluded f.path then { file := some f } else lintFile s.rules f s.files

theorem lint_false (s : Session) (f : SourceFile) :
    s.lint false f = .ok (lintFile s.rules f s.files) := by
  simp [lint, lintFile?]

/-- **All files are linted**, one after the other, each among all files. -/
theorem lintEach_eq (s : Session) (fs : List SourceFile) :
    s.lintEach false fs = (fs.map s.resultOf, none) := by
  induction fs with
  | nil => rfl
  | cons f fs ih =>
      rw [lintEach, lint_false, ih, List.map_cons, resultOf]
      by_cases out : s.excluded f.path <;> simp [out]

/-- Linting that is called off gives the results of the first files. -/
theorem lintEach_isPrefix (s : Session) (cancelled : Bool) (fs : List SourceFile) :
    (s.lintEach cancelled fs).1 <+: fs.map s.resultOf := by
  induction fs with
  | nil => exact List.prefix_refl _
  | cons f fs ih =>
      rw [lintEach, List.map_cons]
      by_cases out : s.excluded f.path
      · simpa [out, resultOf] using ih
      · cases done : lintFile? s.rules cancelled f s.files with
        | none => simp [out, lint, done]
        | some r =>
            have eq : r = lintFile s.rules f s.files := by
              rw [lintFile?] at done
              split at done
              · cases done
              · exact (Option.some.inj done).symm
            simpa [out, lint, done, resultOf, eq] using ih

end Session

open Session

/-- **Sessions hold the last files.**  After any turns, and whatever is excluded then, a session has
at each path the file that was last parsed or added there and not removed since, and lists these
files in the order of their paths.  What does not parse or is excluded changes nothing; a text is
linted among files that hold it already, and all files are linted in order, each among all of
them. -/
theorem sessions_hold_last_files (rules : List Rule) (turns : List Turn)
    (names : ∀ t ∈ turns, t.KeepsPaths) (excluded : String → Bool) :
    let s := (after rules turns).under excluded
    (∀ path f, s.file? path = some f ↔ LastStored turns path f) ∧
    (∀ path, s.file? path = none ↔ ∀ f, ¬ LastStored turns path f) ∧
    (∀ f, f ∈ s.files ↔ LastStored turns f.path f) ∧
    (s.files.Pairwise fun a b => a.path < b.path) ∧
    (∀ parser path content e, parser path content = .error e →
      s.parse parser path content = .error (.within ("parse " ++ path) e) ∧
      s.take ⟨excluded, .parse parser path content⟩ = s ∧
      (¬ excluded path → ∀ cancelled, s.lintContent parser cancelled path content =
        (.error (.within ("parse " ++ path) e), s))) ∧
    (∀ path, excluded path → ∀ parser cancelled content,
      s.lintContent parser cancelled path content =
        (.ok { file := some (.ofBytes path content none) }, s)) ∧
    (∀ parser path content f, KeepsPaths parser → parser path content = .ok f →
      ¬ excluded path → ∀ cancelled, ∃ s' : Session,
        s.lintContent parser cancelled path content = (s'.lint cancelled f, s') ∧
        s'.lint false f = .ok (lintFile rules f s'.files) ∧ s'.file? path = some f ∧
        ∀ g, g ∈ s'.files ↔ g = f ∨ (g ∈ s.files ∧ g.path ≠ path)) ∧
    s.lintAll false = (s.files.map fun f =>
      if excluded f.path then { file := some f } else lintFile rules f s.files, none) ∧
    (s.lintAll true).1 <+: (s.lintAll false).1 := by
  intro s
  have held : ∀ path f, s.file? path = some f ↔ LastStored turns path f := file?_after rules names
  have order : s.InOrder := inOrder_after rules turns
  have own : s.rules = rules := rules_after rules turns
  refine ⟨held, fun path => ?_, fun f => (order.mem_iff f).trans (held f.path f), order, ?_, ?_,
    ?_, ?_, ?_⟩
  · simp only [← held, Option.eq_none_iff_forall_ne_some]
  · intro parser path content e refused
    refine ⟨parse_of_error refused, ?_, fun listed => lintContent_of_error listed refused⟩
    simp only [take, parse_of_error refused]
    rfl
  · exact fun path out => lintContent_of_excluded (s := s) out
  · intro parser path content f keeps given listed cancelled
    have place : f.path = path := keeps path content f given
    refine ⟨s.add f, lintContent_of_ok listed given cancelled, ?_, ?_, fun g => ?_⟩
    · exact own ▸ lint_false (s.add f) f
    · rw [file?_add, if_pos place]
    · rw [(order.add f).mem_iff, file?_add, order.mem_iff, place]
      by_cases same : path = g.path
      · simp [same, eq_comm]
      · have other : g ≠ f := fun eq => same (eq ▸ place.symm)
        simp [same, other, Ne.symm same]
  · rw [lintAll, lintEach_eq, ← own]
    rfl
  · rw [lintAll, lintAll, lintEach_eq]
    exact s.lintEach_isPrefix true s.files

/-- Reads every text but the empty one. -/
def textParser : SourceParser := fun path content =>
  if content.isEmpty then .error .unreadable else .ok (.ofBytes path content none)

theorem keepsPaths_textParser : KeepsPaths textParser := by
  intro path content f h
  unfold textParser at h
  split at h
  · cases h
  · exact Except.ok.inj h ▸ rfl

/-- Two files, of which one is replaced and keeps its place through a text that does not parse, and
the other is removed; a third is excluded. -/
def mixedTurns : List Turn :=
  [⟨fun _ => false, .parse textParser "A.sol" "a".toUTF8⟩,
    ⟨fun _ => false, .lintContent textParser false "B.sol" "b".toUTF8⟩,
    ⟨fun _ => false, .parse textParser "A.sol" "c".toUTF8⟩,
    ⟨fun _ => false, .lintContent textParser false "A.sol" .empty⟩,
    ⟨(· == "C.sol"), .lintContent textParser false "C.sol" "d".toUTF8⟩,
    ⟨fun _ => false, .remove "B.sol"⟩]

theorem sessions_hold_last_files_mixedTurns :
    (∀ t ∈ mixedTurns, t.KeepsPaths) ∧
      ((after [] mixedTurns).under fun _ => false).file? "A.sol" =
        some (.ofBytes "A.sol" "c".toUTF8 none) ∧
      ((after [] mixedTurns).under fun _ => false).file? "B.sol" = none := by
  have names : ∀ t ∈ mixedTurns, t.KeepsPaths := by
    simp [mixedTurns, Turn.KeepsPaths, keepsPaths_textParser]
  obtain ⟨held, absent, -⟩ := sessions_hold_last_files [] mixedTurns names fun _ => false
  refine ⟨names, (held _ _).mpr ⟨mixedTurns.take 2, _, mixedTurns.drop 3, rfl, rfl, ?_⟩,
    (absent _).mpr fun f last => ?_⟩
  · have refused : textParser "A.sol" .empty = .error .unreadable := rfl
    simp [mixedTurns, Turn.Concerns, Turn.stored?, Turn.forgotten?, refused, Except.toOption]
  · -- The last turn is about the path and stores nothing.
    rcases lastStored_append.mp (show LastStored (mixedTurns.take 5 ++ [_]) _ _ from last) with
      stored | ⟨silent, -⟩
    · cases stored
    · exact silent (.inr rfl)

end SolidityLint
