import SolidityLint.Proofs.FileTree.Change

/-!
# FileTree — where a path leads

A path leads to a name in a directory, whether or not something stands there.

* `locate_eq_ok_iff`: where that is.
* `Leads.lstat`: what stands there is what the path means, a link at its end not followed.
* `Leads.alike`: a change that the path does not go through leaves it where it is.
* `Leads.append`: what is put behind the path is put behind the name.
-/

namespace SolidityLint

/-! ### Suffixes -/

/-- What is put behind a text is put behind its last part. -/
theorem splitAtChar_append {sep : Char} (cs : List Char) {suffix : List Char} (clear : sep ∉ suffix) :
    ∃ front last, splitAtChar sep cs = front ++ [last] ∧
      splitAtChar sep (cs ++ suffix) = front ++ [last ++ suffix] ∧
      (last = [] → cs = [] ∨ cs.getLast? = some sep) := by
  simp only [splitAtChar_eq_splitOn]
  induction cs with
  | nil => exact ⟨[], [], by simp, by simp [List.splitOn_eq_singleton clear], fun _ => .inl rfl⟩
  | cons c cs ih =>
      obtain ⟨front, last, own, longer, ends⟩ := ih
      have ends' (later : cs = [] → c = sep) (none : last = []) :
          c :: cs = [] ∨ (c :: cs).getLast? = some sep := by
        rcases ends none with empty | ends
        · exact .inr (by simp [empty, later empty])
        · exact .inr (by simp [List.getLast?_cons, ends])
      rw [List.cons_append, List.splitOn_cons_eq_if_modifyHead, List.splitOn_cons_eq_if_modifyHead, own,
        longer]
      split
      · next same => exact ⟨[] :: front, last, rfl, rfl, ends' fun _ => beq_iff_eq.mp same⟩
      · cases front with
        | nil => exact ⟨[], c :: last, rfl, rfl, nofun⟩
        | cons first front =>
            refine ⟨(c :: first) :: front, last, rfl, rfl, ends' fun empty => ?_⟩
            have parts := congrArg List.length own
            simp [empty] at parts

namespace Path

theorem components_append {p suffix : String} (clear : '/' ∉ suffix.toList) (solid : suffix ≠ "")
    {front : List String} {name : String} (parts : components p = front ++ [name])
    (closed : p.toList.getLast? ≠ some '/') : components (p ++ suffix) = front ++ [name ++ suffix] := by
  obtain ⟨before, last, own, longer, ends⟩ := splitAtChar_append p.toList clear
  have there : last ≠ [] := fun none => by
    rcases ends none with empty | open_
    · simp [components, empty, splitAtChar, splitAtChar.go] at parts
    · exact closed open_
  have solid : suffix.toList ≠ [] := by simpa using solid
  have own_parts : components p =
      ((before.filter (!·.isEmpty)).map String.ofList) ++ [String.ofList last] := by
    simp [components, own, there]
  obtain ⟨rfl, same⟩ := List.append_inj' (own_parts.symm.trans parts) rfl
  obtain rfl : String.ofList last = name := by simpa using same
  simp [components, longer, there, String.ofList_append]

/-- **What is put behind a path** is put behind its last step. -/
theorem steps_append {p suffix : String} (clear : '/' ∉ suffix.toList) (solid : suffix ≠ "")
    {front : List String} {name : String} (parts : steps p = front ++ [name]) (here : name ≠ ".") :
    steps (p ++ suffix) = front ++ [name ++ suffix] := by
  have closed : p.toList.getLast? ≠ some '/' := fun isOpen => by
    rw [steps, isOpen, BEq.rfl] at parts
    cases names : components p with
    | nil => simp [names, stepsOf] at parts
    | cons first rest =>
        rw [names, stepsOf, if_pos rfl] at parts
        exact here (by simpa using (List.append_inj' parts rfl).2.symm)
  have solid' : suffix.toList ≠ [] := by simpa using solid
  have closed' : (p ++ suffix).toList.getLast? ≠ some '/' := fun isOpen => by
    rw [String.toList_append, List.getLast?_append, List.getLast?_eq_some_getLast solid'] at isOpen
    exact clear (Option.some.inj isOpen ▸ List.getLast_mem solid')
  have stay (names : List String) : stepsOf names false = names := by cases names <;> simp [stepsOf]
  rw [steps, beq_eq_false_iff_ne.mpr closed, stay] at parts
  rw [steps, beq_eq_false_iff_ne.mpr closed', stay, components_append clear solid parts closed]

/-- What is put behind a path leaves its directory as it is. -/
theorem dir_append_suffix {p suffix : String} (clear : '/' ∉ suffix.toList) :
    dir (p ++ suffix) = dir p := by
  have passed : ∀ c ∈ suffix.toList.reverse, (c != '/') = true := fun c among =>
    bne_iff_ne.mpr fun same => clear (same ▸ List.mem_reverse.mp among)
  simp only [dir, String.toList_append, List.reverse_append, List.dropWhile_append_of_pos passed]

end Path

namespace FileTree

/-! ### Resolving the last name -/

variable {root : Entry} {links : Nat} {dir : List String} {name : String}

/-- Names behind those of a directory are resolved from it on, with fewer links left. -/
theorem resolveFrom_append (follow : Bool) {done front rest : List String}
    (h : Resolves root true links done front dir) (more : rest ≠ []) :
    ∃ left, resolveFrom root follow links done (front ++ rest) =
      resolveFrom root follow left dir rest := by
  induction h with
  | done => exact ⟨_, rfl⟩
  | here stands _ ih =>
      obtain ⟨left, same⟩ := ih
      exact ⟨left, by rw [← same, List.cons_append, resolveFrom, stands]; simp⟩
  | up stands _ ih =>
      obtain ⟨left, same⟩ := ih
      exact ⟨left, by rw [← same, List.cons_append, resolveFrom, stands]; simp⟩
  | down here up real _ ih =>
      obtain ⟨left, same⟩ := ih
      obtain ⟨child, there, plain⟩ := real
      obtain ⟨children, stands, found⟩ := Entry.get?_concat_eq_some.mp there
      refine ⟨left, ?_⟩
      rw [← same, List.cons_append, resolveFrom, stands]
      cases child with
      | file | dir => simp [here, up, found]
      | link target => exact absurd rfl (plain target)
  | through here up link goes _ ih =>
      obtain ⟨left, same⟩ := ih
      obtain ⟨children, stands, found⟩ := Entry.get?_concat_eq_some.mp link
      exact ⟨left, by rw [← same, List.cons_append, resolveFrom, stands]; simp [here, up, found, more]⟩
  | last _ _ _ stays => cases stays

theorem resolveFrom_last {children : List (String × Entry)}
    (stands : root.get? dir = some (.dir children)) (here : name ≠ ".") (up : name ≠ "..") :
    resolveFrom root false links dir [name] =
      match root.get? (dir ++ [name]) with
      | some _ => .ok (dir ++ [name])
      | none => .error .notExist := by
  rw [resolveFrom, stands, Entry.get?_append, stands]
  cases found : children.lookup name with
  | none => simp [here, up, found, Entry.get?]
  | some child => cases child <;> simp [here, up, found, Entry.get?, resolveFrom]

/-! ### Places -/

variable {t t' : FileTree} {path : String} {place : List String}

/-- A path leads to a name in a directory. -/
structure Leads (t : FileTree) (path : String) (dir : List String) (name : String) : Prop where
  parts : ∃ front, Path.steps path = front ++ [name] ∧ Resolves t.root true maxLinks [] front dir
  stands : ∃ children, t.root.get? dir = some (.dir children)
  here : name ≠ "."
  up : name ≠ ".."

/-- **The place of a path.** -/
theorem locate_eq_ok_iff :
    t.locate path = .ok place ↔ ∃ dir name, t.Leads path dir name ∧ place = dir ++ [name] := by
  simp only [locate, bind, Except.bind]
  constructor
  · intro h
    split at h
    · cases h
    · next dir leads =>
        split at h
        · next children name stands last =>
            split at h
            · cases h
            · next other =>
                cases h
                obtain ⟨here, up⟩ : name ≠ "." ∧ name ≠ ".." := by simpa using other
                obtain ⟨front, parts⟩ := List.getLast?_eq_some_iff.mp last
                rw [parts, List.dropLast_concat] at leads
                have resolves := resolves_of_resolveFrom leads
                exact ⟨dir, name, ⟨⟨front, parts, resolves⟩, ⟨_, stands⟩, here, up⟩, rfl⟩
        · cases h
  · rintro ⟨dir, name, ⟨⟨front, parts, resolves⟩, ⟨children, stands⟩, here, up⟩, rfl⟩
    rw [parts, List.dropLast_concat, resolveFrom_of_resolves resolves]
    simp [stands, here, up]

namespace Leads

theorem locate (h : t.Leads path dir name) : t.locate path = .ok (dir ++ [name]) :=
  locate_eq_ok_iff.mpr ⟨dir, name, h, rfl⟩

theorem isName (h : t.Leads path dir name) : Path.IsName name := by
  obtain ⟨front, parts, -⟩ := h.parts
  have among : name ∈ Path.steps path := by simp [parts]
  exact ⟨(Path.mem_steps among).1, (Path.mem_steps among).2, h.here, h.up⟩

theorem base (h : t.Leads path dir name) : Path.base path = name := by
  obtain ⟨front, parts, -⟩ := h.parts
  have last : (Path.steps path).getLast? = some name := by simp [parts]
  rw [Path.base, Path.getLast?_components_of_steps last h.here]

/-- What stands at the place of a path is what the path means. -/
theorem lstat (h : t.Leads path dir name) : t.lstat path =
    match t.root.get? (dir ++ [name]) with
    | some e => .ok e
    | none => .error .notExist := by
  obtain ⟨front, parts, resolves⟩ := h.parts
  obtain ⟨children, stands⟩ := h.stands
  obtain ⟨left, same⟩ := resolveFrom_append false resolves (List.cons_ne_nil name [])
  rw [FileTree.lstat, parts, same, resolveFrom_last stands h.here h.up]
  cases there : t.root.get? (dir ++ [name]) <;> simp [bind, Except.bind, there]

theorem stat_file (h : t.Leads path dir name) {data : FileData}
    (there : t.root.get? (dir ++ [name]) = some (.file data)) : t.stat path = .ok (.file data) := by
  obtain ⟨front, parts, resolves⟩ := h.parts
  obtain ⟨children, stands, found⟩ := Entry.get?_concat_eq_some.mp there
  obtain ⟨left, same⟩ := resolveFrom_append true resolves (List.cons_ne_nil name [])
  rw [stat, resolve, parts, same, resolveFrom, stands]
  simp [h.here, h.up, found, resolveFrom, bind, Except.bind, there]

/-- A change that the way does not go through leaves the place where it is. -/
theorem alike (h : t.Leads path dir name) {changed : List String}
    (alike : Entry.AlikeBut changed t.root t'.root) (dead : DeadEnd t.root changed) :
    t'.Leads path dir name := by
  obtain ⟨front, parts, resolves⟩ := h.parts
  obtain ⟨children, stands⟩ := h.stands
  have other : dir ≠ changed := fun same => dead.not_dir (same ▸ stands)
  exact ⟨⟨front, parts, resolves.alike alike dead other⟩,
    (alike dir (dead.apart stands other)).dir stands, h.here, h.up⟩

/-- What is put behind the path is put behind the name. -/
theorem append (h : t.Leads path dir name) {suffix : String} (clear : '/' ∉ suffix.toList)
    (long : 2 < suffix.length) : t.Leads (path ++ suffix) dir (name ++ suffix) := by
  obtain ⟨front, parts, resolves⟩ := h.parts
  have solid : suffix ≠ "" := fun none => by simp [none] at long
  have other {s : String} (short : s.length ≤ 2) : name ++ suffix ≠ s := fun same => by
    have := congrArg String.length same
    rw [String.length_append] at this
    omega
  exact ⟨⟨front, Path.steps_append clear solid parts h.here, resolves⟩, h.stands,
    other (by decide), other (by decide)⟩

end Leads

end FileTree

end SolidityLint
