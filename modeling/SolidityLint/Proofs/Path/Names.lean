import Mathlib.Data.List.TakeWhile
import SolidityLint.Proofs.Text.Parts
import SolidityLint.Run.Options

/-!
# Path — paths as lists of names

An absolute path in its shortest form is the list of the names that lead to it: `components` takes the
names out of `ofComponents true` again (`components_ofComponents`), and every path that a run works
with is of this form (`exists_names_absolute`).  Relations between paths are then relations between
lists: going down appends a name (`child_ofComponents`), and what is inside a directory has names
that begin with those of the directory (`inside?_iff`).
-/

namespace SolidityLint

namespace Path

/-- A name that an entry of a directory can have. -/
structure IsName (name : String) : Prop where
  nonempty : name ≠ ""
  slash : '/' ∉ name.toList
  here : name ≠ "."
  up : name ≠ ".."

instance : DecidablePred IsName := fun name =>
  decidable_of_iff (name ≠ "" ∧ '/' ∉ name.toList ∧ name ≠ "." ∧ name ≠ "..")
    ⟨fun ⟨solid, slash, here, up⟩ => ⟨solid, slash, here, up⟩, fun h => ⟨h.nonempty, h.slash, h.here, h.up⟩⟩

/-- All of them are names. -/
def Names (names : List String) : Prop := ∀ name ∈ names, IsName name

instance (names : List String) : Decidable (Names names) :=
  inferInstanceAs (Decidable (∀ name ∈ names, IsName name))

theorem Names.append {ns ms : List String} (h : Names ns) (h' : Names ms) : Names (ns ++ ms) :=
  List.forall_mem_append.mpr ⟨h, h'⟩

theorem Names.of_append {ns ms : List String} (h : Names (ns ++ ms)) : Names ns ∧ Names ms :=
  List.forall_mem_append.mp h

/-! ### Components -/

theorem mem_components {p name : String} (h : name ∈ components p) :
    name ≠ "" ∧ '/' ∉ name.toList := by
  obtain ⟨cs, hc, rfl⟩ := List.mem_map.mp h
  obtain ⟨part, solid⟩ := List.mem_filter.mp hc
  rw [String.toList_ofList]
  refine ⟨fun empty => ?_, not_mem_of_mem_splitAtChar part⟩
  simp_all

theorem toList_ofComponents (names : List String) :
    (ofComponents true names).toList = '/' :: ['/'].intercalate (names.map String.toList) := by
  simp [ofComponents, String.toList_intercalate]

theorem components_ofComponents {names : List String} (h : Names names) :
    components (ofComponents true names) = names := by
  rw [components, toList_ofComponents, splitAtChar_eq_splitOn]
  have front (cs : List Char) : ('/' :: cs).splitOn '/' = [] :: cs.splitOn '/' := by
    simp [List.splitOn, List.splitOnP_cons_eq_if_modifyHead]
  rw [front, List.filter_cons_of_neg (by simp)]
  cases names with
  | nil => rfl
  | cons name names =>
      have parts : ∀ part ∈ (name :: names).map String.toList, '/' ∉ part ∧ part ≠ [] := by
        intro part hp
        obtain ⟨n, hn, rfl⟩ := List.mem_map.mp hp
        exact ⟨(h n hn).slash, by simpa using (h n hn).nonempty⟩
      rw [List.splitOn_intercalate '/' (fun part hp => (parts part hp).1) (by simp),
        List.filter_eq_self.mpr fun part hp => by simpa using (parts part hp).2, List.map_map]
      simp [Function.comp_def]

/-! ### Shortest forms -/

theorem resolve_names {absolute : Bool} {names : List String} (h : Names names) (done : List String) :
    resolve absolute done names = done.reverse ++ names := by
  induction names generalizing done with
  | nil => simp [resolve]
  | cons name names ih =>
      obtain ⟨first, others⟩ := List.forall_mem_cons.mp h
      rw [resolve.eq_5 _ _ _ _ first.here first.up, ih others]
      simp

theorem isAbsolute_ofComponents (names : List String) : isAbsolute (ofComponents true names) := by
  simp [isAbsolute, toList_ofComponents]

theorem cleanComponents_ofComponents {names : List String} (h : Names names) :
    cleanComponents (ofComponents true names) = names := by
  rw [cleanComponents, components_ofComponents h, resolve_names h]
  rfl

theorem clean_ofComponents {names : List String} (h : Names names) :
    clean (ofComponents true names) = ofComponents true names := by
  rw [clean, cleanComponents_ofComponents h, isAbsolute_ofComponents]

theorem ofComponents_inj {ns ms : List String} (hn : Names ns) (hm : Names ms)
    (h : ofComponents true ns = ofComponents true ms) : ns = ms := by
  rw [← components_ofComponents hn, h, components_ofComponents hm]

/-- What is left of the components of an absolute path are names. -/
theorem names_resolve {done cs : List String} (before : Names done)
    (parts : ∀ c ∈ cs, c ≠ "" ∧ '/' ∉ c.toList) : Names (resolve true done cs) := by
  fun_induction resolve true done cs with
  | case1 done => exact fun name hn => before name (List.mem_reverse.mp hn)
  | case2 done cs ih => exact ih before (List.forall_mem_cons.mp parts).2
  | case3 cs _ ih => exact ih before (List.forall_mem_cons.mp parts).2
  | case4 cs relative _ => exact absurd rfl relative
  | case5 cs c rest up _ =>
      have name := (List.forall_mem_cons.mp before).1
      exact absurd (beq_iff_eq.mp up) name.up
  | case6 cs c rest _ ih =>
      exact ih (List.forall_mem_cons.mp before).2 (List.forall_mem_cons.mp parts).2
  | case7 done c cs here up ih =>
      obtain ⟨first, others⟩ := List.forall_mem_cons.mp parts
      exact ih (List.forall_mem_cons.mpr ⟨⟨first.1, first.2, here, up⟩, before⟩) others

theorem names_cleanComponents {p : String} (h : isAbsolute p) : Names (cleanComponents p) := by
  rw [cleanComponents, h]
  exact names_resolve (fun _ hn => absurd hn List.not_mem_nil) fun c hc => mem_components hc

theorem clean_of_isAbsolute {p : String} (h : isAbsolute p) :
    clean p = ofComponents true (cleanComponents p) := by
  rw [clean, h]

theorem ne_empty_of_isAbsolute {p : String} (h : isAbsolute p) : p ≠ "" := by
  rintro rfl
  simp [isAbsolute] at h

theorem isAbsolute_append {p : String} (h : isAbsolute p) (rest : String) : isAbsolute (p ++ rest) := by
  cases cs : p.toList with
  | nil => simp [isAbsolute, cs] at h
  | cons c cs' => simpa [isAbsolute, cs] using h

theorem join_of_ne_empty {dir path : String} (hd : dir ≠ "") (hp : path ≠ "") :
    join [dir, path] = clean (dir ++ "/" ++ path) := by
  simp [join, hd, hp, String.intercalate_cons_cons]

/-- **The paths of a run** are lists of names. -/
theorem exists_names_absolute {dir : String} (h : isAbsolute dir) (path : String) :
    ∃ names, Names names ∧ Path.absolute dir path = ofComponents true names := by
  have cleaned {p : String} (h : isAbsolute p) :
      ∃ names, Names names ∧ clean p = ofComponents true names :=
    ⟨_, names_cleanComponents h, clean_of_isAbsolute h⟩
  have solid := ne_empty_of_isAbsolute h
  unfold Path.absolute
  split
  · next own => exact cleaned own
  · by_cases empty : path = ""
    · have joined : join [dir, path] = clean dir := by simp [join, solid, empty]
      exact joined ▸ cleaned h
    · rw [join_of_ne_empty solid empty]
      exact cleaned (isAbsolute_append (isAbsolute_append h "/") path)

theorem resolve_here (absolute : Bool) (done cs : List String) :
    resolve absolute done (cs ++ ["."]) = resolve absolute done cs := by
  fun_induction resolve absolute done cs with
  | case1 done => simp [resolve]
  | case2 done cs ih => simpa [resolve] using ih
  | case3 cs rooted ih => simpa [resolve, rooted] using ih
  | case4 cs relative ih => simpa [resolve, relative] using ih
  | case5 cs c rest up ih => simpa [resolve, up] using ih
  | case6 cs c rest up ih => simpa [resolve, up] using ih
  | case7 done c cs here up ih =>
      rw [List.cons_append, resolve.eq_5 _ _ _ _ here up]
      exact ih

/-- The working directory is `.` to itself. -/
theorem absolute_here {dir : String} (h : isAbsolute dir) : Path.absolute dir "." = clean dir := by
  have parts : components (dir ++ "/" ++ ".") = components dir ++ ["."] := by
    have text : (dir ++ "/" ++ ".").toList = dir.toList ++ '/' :: ['.'] := by simp
    rw [components, text, splitAtChar_eq_splitOn, List.splitOn, List.splitOnP_append_cons _ _ (by simp),
      List.filter_append, List.map_append, components, splitAtChar_eq_splitOn, List.splitOn]
    rfl
  have still := isAbsolute_append (isAbsolute_append h "/") "."
  rw [Path.absolute, if_neg (by decide), join_of_ne_empty (ne_empty_of_isAbsolute h) (by decide),
    clean_of_isAbsolute still, clean_of_isAbsolute h, cleanComponents, cleanComponents, parts, still, h,
    resolve_here]

/-! ### Going down -/

/-- The path of an entry of a directory. -/
def child (path name : String) : String := if path == "/" then "/" ++ name else path ++ "/" ++ name

theorem child_ofComponents {names : List String} (h : Names names) (name : String) :
    child (ofComponents true names) name = ofComponents true (names ++ [name]) := by
  unfold child
  by_cases top : names = []
  · subst top
    simp [ofComponents]
  · have deeper : ofComponents true names ≠ "/" := by
      intro root
      have none : names = [] := by
        rw [← components_ofComponents h, root]
        rfl
      exact top none
    rw [if_neg (by simpa using deeper)]
    simp [ofComponents, String.intercalate_append_of_ne_nil top, String.append_assoc]

/-- The path at the end of names that lead down from another one. -/
def below (path : String) (names : List String) : String := names.foldl child path

@[simp]
theorem below_nil (path : String) : below path [] = path := rfl

@[simp]
theorem below_cons (path name : String) (names : List String) :
    below path (name :: names) = below (child path name) names := rfl

theorem below_ofComponents {ns ms : List String} (hn : Names ns) (hm : Names ms) :
    below (ofComponents true ns) ms = ofComponents true (ns ++ ms) := by
  induction ms generalizing ns with
  | nil => simp
  | cons m ms ih =>
      obtain ⟨name, others⟩ := List.forall_mem_cons.mp hm
      rw [below_cons, child_ofComponents hn, ih (hn.append (by simpa [Names] using name)) others]
      simp

/-- A name is joined to a directory by going down. -/
theorem join_ofComponents {names : List String} {name : String} (h : Names (names ++ [name])) :
    join [ofComponents true names, name] = ofComponents true (names ++ [name]) := by
  obtain ⟨front, last⟩ := h.of_append
  have own := last name List.mem_cons_self
  have absolute := isAbsolute_ofComponents names
  have rooted := isAbsolute_append (isAbsolute_append absolute "/") name
  have one : name.toList.splitOn '/' = [name.toList] := by
    rw [List.splitOn, List.splitOnP_eq_singleton]
    intro c hc
    exact beq_eq_false_iff_ne.mpr fun slash => own.slash (slash ▸ hc)
  have parts : components (ofComponents true names ++ "/" ++ name) = names ++ [name] := by
    have text : (ofComponents true names ++ "/" ++ name).toList =
        (ofComponents true names).toList ++ '/' :: name.toList := by simp
    have before := components_ofComponents front
    rw [components, splitAtChar_eq_splitOn] at before ⊢
    rw [text, List.splitOn, List.splitOnP_append_cons _ _ (by simp), List.filter_append,
      List.map_append]
    rw [List.splitOn] at before one
    simp [before, one, own.nonempty]
  rw [join_of_ne_empty (ne_empty_of_isAbsolute absolute) own.nonempty,
    clean_of_isAbsolute rooted, cleanComponents, parts, rooted, resolve_names h]
  rfl

/-! ### Going up -/

theorem bne_slash_of_mem_reverse {name : String} (slash : '/' ∉ name.toList) :
    ∀ c ∈ name.toList.reverse, (c != '/') = true := by
  intro c hc
  refine bne_iff_ne.mpr ?_
  rintro rfl
  exact slash (List.mem_reverse.mp hc)

theorem dir_append {front : List Char} {name : String} (slash : '/' ∉ name.toList) :
    dir (String.ofList (front ++ '/' :: name.toList)) = clean (String.ofList (front ++ ['/'])) := by
  rw [dir, String.toList_ofList, List.reverse_append, List.reverse_cons, List.append_assoc,
    List.dropWhile_append_of_pos (bne_slash_of_mem_reverse slash), List.singleton_append,
    List.dropWhile_cons, if_neg (by simp)]
  simp

/-- The directory of an entry. -/
theorem dir_ofComponents {names : List String} {name : String} (h : Names (names ++ [name])) :
    dir (ofComponents true (names ++ [name])) = ofComponents true names := by
  obtain ⟨hn, own⟩ := h.of_append
  have slash : '/' ∉ name.toList := (own name (by simp)).slash
  by_cases top : names = []
  · subst top
    have text : ofComponents true ([] ++ [name]) = String.ofList ([] ++ '/' :: name.toList) := by
      rw [← String.toList_inj]
      simp [toList_ofComponents]
    rw [text, dir_append slash]
    decide
  · have text : ofComponents true (names ++ [name]) =
        String.ofList ((ofComponents true names).toList ++ '/' :: name.toList) := by
      rw [← String.toList_inj]
      simp [ofComponents, String.intercalate_append_of_ne_nil top]
    have parts : components (String.ofList ((ofComponents true names).toList ++ ['/'])) = names := by
      rw [components, String.toList_ofList, splitAtChar_eq_splitOn, List.splitOn,
        List.splitOnP_append_cons _ _ (by simp), List.filter_append]
      simpa [components, splitAtChar_eq_splitOn, List.splitOn] using components_ofComponents hn
    have absolute : isAbsolute (String.ofList ((ofComponents true names).toList ++ ['/'])) := by
      simp [isAbsolute, toList_ofComponents]
    rw [text, dir_append slash, clean_of_isAbsolute absolute, cleanComponents, parts, absolute,
      resolve_names hn]
    rfl

/-! ### The last name -/

theorem exists_front_ofComponents (names : List String) (name : String) :
    ∃ front, (ofComponents true (names ++ [name])).toList = front ++ '/' :: name.toList := by
  by_cases top : names = []
  · subst top
    exact ⟨[], by simp [toList_ofComponents]⟩
  · exact ⟨(ofComponents true names).toList,
      by simp [ofComponents, String.intercalate_append_of_ne_nil top]⟩

theorem extension_ofComponents (names : List String) {name : String} (slash : '/' ∉ name.toList) :
    extension (ofComponents true (names ++ [name])) = extension name := by
  have solid := bne_slash_of_mem_reverse slash
  obtain ⟨front, text⟩ := exists_front_ofComponents names name
  have last : (front ++ '/' :: name.toList).reverse.takeWhile (· != '/') =
      name.toList.reverse.takeWhile (· != '/') := by
    rw [List.reverse_append, List.reverse_cons, List.append_assoc, List.takeWhile_append_of_pos solid,
      List.takeWhile_eq_self_iff.mpr solid]
    simp
  rw [extension, extension, text, last]

theorem getLast?_components {names : List String} {name : String} (h : Names (names ++ [name])) :
    (components (ofComponents true (names ++ [name]))).getLast? = some name := by
  rw [components_ofComponents h, List.getLast?_append]
  rfl

theorem base_ofComponents {names : List String} {name : String} (h : Names (names ++ [name])) :
    base (ofComponents true (names ++ [name])) = name := by
  rw [base, getLast?_components h]

/-! ### Steps -/

theorem stepsOf_eq (names : List String) (isOpen : Bool) :
    stepsOf names isOpen = names ∨ stepsOf names isOpen = names ++ ["."] := by
  cases names <;> cases isOpen <;> simp [stepsOf]

/-- The steps of a path of names are the names. -/
theorem steps_ofComponents {names : List String} (h : Names names) :
    steps (ofComponents true names) = names := by
  rw [steps, components_ofComponents h]
  rcases names.eq_nil_or_concat with rfl | ⟨front, name, rfl⟩
  · rfl
  · rw [List.concat_eq_append] at h ⊢
    have own := h.of_append.2 name List.mem_cons_self
    obtain ⟨before, text⟩ := exists_front_ofComponents front name
    have closed : ((ofComponents true (front ++ [name])).toList.getLast? == some '/') = false := by
      rw [text, List.getLast?_append, List.getLast?_cons]
      refine beq_eq_false_iff_ne.mpr fun same => own.slash ?_
      cases last : name.toList.getLast? with
      | none => exact absurd (List.getLast?_eq_none_iff.mp last) (by simpa using own.nonempty)
      | some c =>
          obtain rfl : c = '/' := by simpa [last] using same
          exact List.mem_of_getLast? last
    rw [closed]
    cases front <;> simp [stepsOf]

theorem mem_steps {p name : String} (h : name ∈ steps p) : name ≠ "" ∧ '/' ∉ name.toList := by
  rw [steps] at h
  rcases stepsOf_eq (components p) (p.toList.getLast? == some '/') with same | same
  · exact mem_components (same ▸ h)
  · rw [same] at h
    rcases List.mem_append.mp h with own | here
    · exact mem_components own
    · rw [List.mem_singleton.mp here]
      decide

/-- Only a step that stays where it is can be last without being the last component. -/
theorem getLast?_components_of_steps {p name : String} (h : (steps p).getLast? = some name)
    (other : name ≠ ".") : (components p).getLast? = some name := by
  rw [steps] at h
  rcases stepsOf_eq (components p) (p.toList.getLast? == some '/') with same | same
  · exact same ▸ h
  · rw [same] at h
    simp [Ne.symm other] at h

/-! ### Inside a directory -/

theorem dropCommon_append (base rest : List String) : dropCommon base (base ++ rest) = ([], rest) := by
  induction base with
  | nil => cases rest <;> rfl
  | cons b base ih => simpa [dropCommon] using ih

/-- What two lists share is their front. -/
theorem exists_append_of_dropCommon {as bs up down : List String}
    (h : dropCommon as bs = (up, down)) : ∃ shared, as = shared ++ up ∧ bs = shared ++ down := by
  fun_induction dropCommon as bs with
  | case1 a as b bs same ih =>
      obtain ⟨shared, rfl, rfl⟩ := ih h
      exact ⟨a :: shared, rfl, by rw [beq_iff_eq.mp same]; rfl⟩
  | case2 a as b bs _ =>
      cases h
      exact ⟨[], rfl, rfl⟩
  | case3 as bs =>
      cases h
      exact ⟨[], rfl, rfl⟩

/-- The way down to names is no way up: its components would show it. -/
theorem not_up_intercalate {names : List String} (h : Names names) :
    String.intercalate "/" names ≠ ".." ∧ hasFront "../" (String.intercalate "/" names) = false := by
  have none : ".." ∉ names := fun up => (h _ up).up rfl
  rw [← components_ofComponents h, components, toList_ofComponents] at none
  rw [Ne, ← String.toList_inj, hasFront, String.toList_intercalate,
    show "/".toList = ['/'] from rfl]
  generalize ['/'].intercalate (names.map String.toList) = cs at none ⊢
  constructor
  · rintro rfl
    exact none (by decide)
  · rw [← Bool.not_eq_true, List.isPrefixOf_iff_prefix]
    rintro ⟨rest, rfl⟩
    refine none (List.mem_map.mpr ⟨['.', '.'], ?_, by decide⟩)
    simp [splitAtChar, splitAtChar.go]

/-- A way that begins upwards shows it. -/
theorem up_intercalate (names : List String) :
    String.intercalate "/" (".." :: names) = ".." ∨
      hasFront "../" (String.intercalate "/" (".." :: names)) = true := by
  cases names with
  | nil => exact .inl (by simp)
  | cons name names => exact .inr (by simp [String.intercalate_cons_cons, hasFront])

/-- The way from one list of names to another: up as far as they are not shared, and then down. -/
theorem relative?_ofComponents {base target : List String} (hb : Names base) (ht : Names target) :
    relative? (ofComponents true base) (ofComponents true target) =
      if base = target then some "."
      else
        let common := dropCommon base target
        if common.1.head? == some ".." then none
        else some (String.intercalate "/" (common.1.map (fun _ => "..") ++ common.2)) := by
  have same : (ofComponents true base = ofComponents true target) ↔ base = target :=
    ⟨ofComponents_inj hb ht, congrArg _⟩
  simp only [relative?, clean_ofComponents hb, clean_ofComponents ht, isAbsolute_ofComponents,
    cleanComponents_ofComponents hb, cleanComponents_ofComponents ht, beq_iff_eq, same,
    bne_self_eq_false, Bool.false_eq_true, if_false]

end Path

/-- **Inside a directory** are the paths whose names begin with those of the directory; the rest of
the names is the way down. -/
theorem IgnoreRule.inside?_iff {base target : List String} (hb : Path.Names base)
    (ht : Path.Names target) {r : String} :
    inside? (Path.ofComponents true base) (Path.ofComponents true target) = some r ↔
      ∃ rest, target = base ++ rest ∧ r = Path.ofComponents false rest := by
  unfold inside?
  rw [Path.relative?_ofComponents hb ht]
  constructor
  · intro h
    by_cases equal : base = target
    · subst equal
      exact ⟨[], by simp, by simpa [hasFront, Path.ofComponents] using h.symm⟩
    · obtain ⟨up, down, common⟩ : ∃ up down, Path.dropCommon base target = (up, down) := ⟨_, _, rfl⟩
      obtain ⟨shared, rfl, rfl⟩ := Path.exists_append_of_dropCommon common
      simp only [equal, if_false, common] at h
      cases up with
      | nil =>
          have further : down ≠ [] := fun none => equal (by rw [none])
          obtain ⟨out, front⟩ := Path.not_up_intercalate ht.of_append.2
          refine ⟨down, by simp, ?_⟩
          simpa [out, front, Path.ofComponents, further] using h.symm
      | cons name up =>
          have out := Path.up_intercalate (up.map (fun _ => "..") ++ down)
          split at h
          · cases h
          · next text way =>
              split at way
              · cases way
              · cases way
                rw [if_pos (by simpa using out)] at h
                cases h
  · rintro ⟨rest, rfl, rfl⟩
    obtain ⟨-, names⟩ := ht.of_append
    cases rest with
    | nil => simp [hasFront, Path.ofComponents]
    | cons name rest =>
        obtain ⟨up, front⟩ := Path.not_up_intercalate names
        simp [Path.dropCommon_append, up, front, Path.ofComponents]

end SolidityLint
