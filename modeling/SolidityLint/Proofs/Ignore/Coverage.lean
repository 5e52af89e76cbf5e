import SolidityLint.Proofs.Library.Glob.Meaning
import SolidityLint.Proofs.Path.Names

/-!
# Ignore — what a rule covers

A rule stands for up to four patterns: its body, everything below it, and both at any depth.  Those
come in pairs of a pattern and the same pattern with `/**` behind it, so a rule that matches a
directory matches all that lies below (`hits_below`), unless the directory is the base itself.

* `Sound`: what has to be known of a pattern for this.  It takes nothing in again, escapes nothing and
  leaves no brace open, and its matchers accept what the pattern means.
* `ignores_below`: what holds of the rules holds of all of them together.
-/

namespace SolidityLint

namespace IgnoreRule

/-! ### Reading a rule -/

/-- What is left of the text of a rule without slashes around it. -/
def bodyOf (cs : List Char) : String := String.ofList (trimBoth (· == '/') (dropHere cs))

/-- The patterns that the text of a rule stands for. -/
def variantsOf (cs : List Char) : List String :=
  variants ((dropHere cs).head? == some '/' || (trimBoth (· == '/') (dropHere cs)).contains '/')
    (bodyOf cs)

/-- A rule keeps the directory that its pattern is relative to. -/
theorem base_of_ofPattern? {base pattern : String} {r : IgnoreRule}
    (h : ofPattern? base pattern = some r) : r.base = base := by
  unfold ofPattern? at h
  simp only at h
  split at h
  · cases h
  · cases h
  · -- With or without a mark, the body and its variants decide whether there is a rule.
    split at h
    all_goals
      split at h
      · cases h
      · split at h
        · cases h
        · cases h
          rfl

/-- A pattern that takes nothing in again gives a rule with the matchers of all its variants. -/
theorem ofPattern?_eq_some {base pattern : String} {r : IgnoreRule}
    (positive : (trimSpace pattern).toList.head? ≠ some '!') (h : ofPattern? base pattern = some r) :
    r.base = base ∧ r.negated = false ∧
      (variantsOf (trimSpace pattern).toList).mapM Glob.ofPattern? = some r.globs := by
  unfold ofPattern? at h
  simp only at h
  split at h
  · cases h
  · cases h
  · split at h
    · next rest marked => exact absurd (by rw [marked]; rfl) positive
    · split at h
      · cases h
      · split at h
        · cases h
        · next globs compiled =>
            cases h
            exact ⟨rfl, rfl, by simpa only [variantsOf, bodyOf] using compiled⟩

/-- What has to be known of a pattern so that it covers what lies below its matches. -/
structure Sound (pattern : String) : Prop where
  positive : (trimSpace pattern).toList.head? ≠ some '!'
  escapes : '\\' ∉ pattern.toList
  closed : Glob.Closed (bodyOf (trimSpace pattern).toList)
  /-- The matchers accept what the patterns mean. -/
  faithful : ∀ v ∈ variantsOf (trimSpace pattern).toList, Glob.Faithful v

theorem trimBoth_subset (p : Char → Bool) (cs : List Char) : trimBoth p cs ⊆ cs := by
  intro c hc
  have inner := (List.dropWhile_suffix p).subset (List.mem_reverse.mp hc)
  exact (List.dropWhile_suffix p).subset (List.mem_reverse.mp inner)

theorem dropHere_subset (cs : List Char) : dropHere cs ⊆ cs := by
  fun_induction dropHere cs with
  | case1 cs ih => exact fun c hc => List.mem_cons_of_mem _ (List.mem_cons_of_mem _ (ih hc))
  | case2 cs => exact fun c hc => hc

theorem Sound.escapes_body {pattern : String} (h : Sound pattern) :
    '\\' ∉ (bodyOf (trimSpace pattern).toList).toList := by
  intro there
  rw [bodyOf, String.toList_ofList] at there
  have inner := dropHere_subset _ (trimBoth_subset _ _ there)
  rw [trimSpace, String.toList_ofList] at inner
  exact h.escapes (trimBoth_subset _ _ inner)

/-! ### Covering -/

/-- The patterns of a rule come in pairs. -/
theorem exists_stem {anchored : Bool} {body v : String} (h : v ∈ variants anchored body) :
    ∃ stem, (stem = body ∨ stem = "**/" ++ body) ∧ stem ∈ variants anchored body ∧
      stem ++ "/**" ∈ variants anchored body ∧ (v = stem ∨ v = stem ++ "/**") := by
  cases anchored with
  | true =>
      refine ⟨body, .inl rfl, by simp [variants], by simp [variants], ?_⟩
      simpa [variants] using h
  | false =>
      simp only [variants, Bool.false_eq_true, if_false, List.cons_append, List.nil_append,
        List.mem_cons, List.not_mem_nil, or_false] at h
      rcases h with h | h | h | h
      · exact ⟨body, .inl rfl, by simp [variants], by simp [variants], .inl h⟩
      · exact ⟨body, .inl rfl, by simp [variants], by simp [variants], .inr h⟩
      · exact ⟨"**/" ++ body, .inr rfl, by simp [variants], by simp [variants], .inl h⟩
      · exact ⟨"**/" ++ body, .inr rfl, by simp [variants], by simp [variants], .inr h⟩

/-- A pattern and what lies below it: what either accepts, the second accepts further down. -/
theorem accepts_below {stem : String} (plain : '\\' ∉ stem.toList) (closed : Glob.Closed stem)
    {g g' : Glob} (hg : Glob.ofPattern? stem = some g) (hg' : Glob.ofPattern? (stem ++ "/**") = some g')
    (faithful : Glob.Faithful stem) (faithful' : Glob.Faithful (stem ++ "/**")) {path : String}
    (h : g.accepts path ∨ g'.accepts path) (rest : String) : g'.accepts (path ++ "/" ++ rest) := by
  obtain ⟨ps, parsed, -⟩ := Option.map_eq_some_iff.mp hg
  obtain ⟨qs, parsed', below, further⟩ := Glob.parse?_below plain closed parsed
  rw [faithful' qs g' parsed' hg']
  have text : (path ++ "/" ++ rest).toList = path.toList ++ '/' :: rest.toList := by simp
  rw [text]
  rcases h with h | h
  · exact below _ _ ((faithful ps g parsed hg path).mp h)
  · exact further _ _ ((faithful' qs g' parsed' hg' path).mp h)

theorem closed_atAnyDepth {body : String} (h : Glob.Closed body) : Glob.Closed ("**/" ++ body) := by
  intro n open_
  refine h n ?_
  simpa [Glob.openBraces_char] using open_

theorem mem_of_mapM {α β : Type} {f : α → Option β} {xs : List α} {ys : List β}
    (h : xs.mapM f = some ys) :
    (∀ x ∈ xs, ∃ y ∈ ys, f x = some y) ∧ ∀ y ∈ ys, ∃ x ∈ xs, f x = some y := by
  induction xs generalizing ys with
  | nil =>
      cases h
      simp
  | cons x xs ih =>
      simp only [List.mapM_cons, Option.bind_eq_bind, Option.bind_eq_some_iff, Option.pure_def,
        Option.some.injEq] at h
      obtain ⟨y, hy, ys', hys, rfl⟩ := h
      obtain ⟨forward, backward⟩ := ih hys
      constructor
      · intro x' hx
        rcases List.mem_cons.mp hx with rfl | hx
        · exact ⟨y, List.mem_cons_self, hy⟩
        · obtain ⟨y', hy', eq⟩ := forward x' hx
          exact ⟨y', List.mem_cons_of_mem _ hy', eq⟩
      · intro y' hy'
        rcases List.mem_cons.mp hy' with rfl | hy'
        · exact ⟨x, List.mem_cons_self, hy⟩
        · obtain ⟨x', hx', eq⟩ := backward y' hy'
          exact ⟨x', List.mem_cons_of_mem _ hx', eq⟩

/-- A rule only matches inside of its base. -/
theorem exists_down {base names : List String} (hb : Path.Names base) (hn : Path.Names names)
    {r : IgnoreRule} (same : r.base = Path.ofComponents true base)
    (hit : r.hits (Path.ofComponents true names)) : ∃ down, names = base ++ down := by
  rw [hits, same] at hit
  cases inside : inside? (Path.ofComponents true base) (Path.ofComponents true names) with
  | none => simp [inside] at hit
  | some rel =>
      obtain ⟨down, names, -⟩ := (inside?_iff hb hn).mp inside
      exact ⟨down, names⟩

/-- **A rule covers what lies below its matches**, its base apart. -/
theorem hits_below {base down rest : List String} {pattern : String} {r : IgnoreRule}
    (sound : Sound pattern) (h : ofPattern? (Path.ofComponents true base) pattern = some r)
    (names : Path.Names (base ++ (down ++ rest))) (proper : down ≠ []) (further : rest ≠ [])
    (hit : r.hits (Path.ofComponents true (base ++ down))) :
    r.hits (Path.ofComponents true (base ++ (down ++ rest))) := by
  obtain ⟨hb, hd⟩ := names.of_append
  have hd' := hd.of_append.1
  obtain ⟨same, -, compiled⟩ := ofPattern?_eq_some sound.positive h
  obtain ⟨toGlob, ofGlob⟩ := mem_of_mapM compiled
  have inside (down : List String) (hd : Path.Names down) :
      inside? r.base (Path.ofComponents true (base ++ down)) = some (Path.ofComponents false down) := by
    rw [same]
    exact (inside?_iff hb (hb.append hd)).mpr ⟨down, rfl, rfl⟩
  rw [hits, inside down hd'] at hit
  rw [hits, inside (down ++ rest) hd]
  obtain ⟨g, hg, accepted⟩ := List.any_eq_true.mp hit
  obtain ⟨v, hv, read⟩ := ofGlob g hg
  -- The variant that matched is a stem or lies below one; the pattern below the stem matches here.
  obtain ⟨stem, form, there, there', which⟩ := exists_stem hv
  obtain ⟨g₁, -, read₁⟩ := toGlob stem there
  obtain ⟨g₂, hg₂, read₂⟩ := toGlob (stem ++ "/**") there'
  have plain : '\\' ∉ stem.toList ∧ Glob.Closed stem := by
    rcases form with rfl | rfl
    · exact ⟨sound.escapes_body, sound.closed⟩
    · exact ⟨by simpa using sound.escapes_body, closed_atAnyDepth sound.closed⟩
  have either : g₁.accepts (Path.ofComponents false down) ∨ g₂.accepts (Path.ofComponents false down) := by
    rcases which with rfl | rfl
    · rw [read₁] at read
      cases read
      exact .inl accepted
    · rw [read₂] at read
      cases read
      exact .inr accepted
  have text : Path.ofComponents false (down ++ rest) =
      Path.ofComponents false down ++ "/" ++ Path.ofComponents false rest := by
    simp [Path.ofComponents, proper, further, String.intercalate_append_of_ne_nil proper further]
  refine List.any_eq_true.mpr ⟨g₂, hg₂, ?_⟩
  rw [text]
  exact accepts_below plain.1 plain.2 read₁ read₂ (sound.faithful stem there)
    (sound.faithful (stem ++ "/**") there') either _

end IgnoreRule

namespace IgnoreRules

/-- Rules that take nothing in again ignore what one of them matches. -/
theorem ignores_iff {m : IgnoreRules} (positive : ∀ r ∈ m.rules, r.negated = false) {path : String} :
    m.ignores path ↔ ∃ r ∈ m.rules, r.hits path := by
  have fold (rules : List IgnoreRule) (positive : ∀ r ∈ rules, r.negated = false) (verdict : Bool) :
      rules.foldl (fun verdict r => if r.hits path then !r.negated else verdict) verdict = true ↔
        verdict = true ∨ ∃ r ∈ rules, r.hits path := by
    induction rules generalizing verdict with
    | nil => simp
    | cons r rules ih =>
        obtain ⟨first, others⟩ := List.forall_mem_cons.mp positive
        rw [List.foldl_cons, ih others]
        cases hit : r.hits path <;> simp [hit, first]
  rw [ignores, fold _ positive]
  simp

/-- Where no rule takes anything in again, rules among others ignore what they ignore by themselves,
and what the others do. -/
theorem ignores_among {m own others : IgnoreRules} {before after : List IgnoreRule}
    (positive : ∀ r ∈ m.rules, r.negated = false) (outer : others.rules = before ++ after)
    (whole : m.rules = before ++ own.rules ++ after) {path : String} :
    m.ignores path = false ↔ own.ignores path = false ∧ others.ignores path = false := by
  have own_positive : ∀ r ∈ own.rules, r.negated = false := fun r hr => positive r (by simp [whole, hr])
  have others_positive : ∀ r ∈ others.rules, r.negated = false := by
    intro r hr
    rw [outer] at hr
    refine positive r ?_
    rcases List.mem_append.mp hr with hr | hr <;> simp [whole, hr]
  simp only [← Bool.not_eq_true, ignores_iff positive, ignores_iff own_positive,
    ignores_iff others_positive, whole, outer, ← not_or]
  refine not_congr ⟨?_, ?_⟩
  · rintro ⟨r, hr, hit⟩
    rcases List.mem_append.mp hr with hr | hr
    · rcases List.mem_append.mp hr with hr | hr
      · exact .inr ⟨r, List.mem_append_left _ hr, hit⟩
      · exact .inl ⟨r, hr, hit⟩
    · exact .inr ⟨r, List.mem_append_right _ hr, hit⟩
  · rintro (⟨r, hr, hit⟩ | ⟨r, hr, hit⟩)
    · exact ⟨r, by simp [hr], hit⟩
    · exact ⟨r, by rcases List.mem_append.mp hr with hr | hr <;> simp [hr], hit⟩

theorem exists_pattern {dir : String} {patterns : List String} {r : IgnoreRule}
    (h : r ∈ (ofPatterns dir patterns).rules) :
    ∃ pattern ∈ patterns, IgnoreRule.ofPattern? (Path.clean dir) pattern = some r := by
  simpa [ofPatterns, add, List.mem_filterMap] using h

theorem not_negated_of_sound {dir : String} {patterns : List String}
    (sound : ∀ pattern ∈ patterns, IgnoreRule.Sound pattern) :
    ∀ r ∈ (ofPatterns dir patterns).rules, r.negated = false := by
  intro r hr
  obtain ⟨pattern, hp, read⟩ := exists_pattern hr
  exact (IgnoreRule.ofPattern?_eq_some (sound pattern hp).positive read).2.1

/-- **What lies below an ignored directory** is ignored, the base apart. -/
theorem ignores_below {dir : String} (absolute : Path.isAbsolute dir) {patterns : List String}
    (sound : ∀ pattern ∈ patterns, IgnoreRule.Sound pattern) {names rest : List String}
    (hn : Path.Names (names ++ rest)) (further : rest ≠ [])
    (proper : names ≠ Path.cleanComponents dir)
    (h : (ofPatterns dir patterns).ignores (Path.ofComponents true names)) :
    (ofPatterns dir patterns).ignores (Path.ofComponents true (names ++ rest)) := by
  have base : Path.clean dir = Path.ofComponents true (Path.cleanComponents dir) :=
    Path.clean_of_isAbsolute absolute
  have hb := Path.names_cleanComponents absolute
  rw [ignores_iff (not_negated_of_sound sound)] at h ⊢
  obtain ⟨r, hr, hit⟩ := h
  obtain ⟨pattern, hp, read⟩ := exists_pattern hr
  refine ⟨r, hr, ?_⟩
  rw [base] at read
  obtain ⟨same, -⟩ := IgnoreRule.ofPattern?_eq_some (sound pattern hp).positive read
  obtain ⟨down, rfl⟩ := IgnoreRule.exists_down hb hn.of_append.1 same hit
  rw [List.append_assoc] at hn ⊢
  refine IgnoreRule.hits_below (sound pattern hp) read hn ?_ further hit
  rintro rfl
  exact proper (List.append_nil _)

end IgnoreRules

end SolidityLint
