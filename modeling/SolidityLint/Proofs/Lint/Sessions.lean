import Mathlib.Data.List.Sort
import SolidityLint.Lint.Session

/-!
# Lint — the files of a session

A session holds one file for each path, in the order of the paths (`Session.InOrder`).  It is
determined by what it has for each path (`Session.files_eq`), and adding and removing files change
that for one path each.  `parse_ok` and `parse_error` are the inversion of `Session.parse`.
-/

namespace SolidityLint

/-- The parser gives its files the paths that it was asked for. -/
def KeepsPaths (parser : SourceParser) : Prop :=
  ∀ path content f, parser path content = .ok f → f.path = path

namespace Session

/-- The files stand in the order of their paths, and no path stands twice. -/
def InOrder (s : Session) : Prop := s.files.Pairwise fun a b => a.path < b.path

/-! ### What stands at a path -/

theorem path_of_file? {s : Session} {path : String} {f : SourceFile} (h : s.file? path = some f) :
    f.path = path := by
  have found := List.find?_some h
  exact beq_iff_eq.mp found

theorem find?_insert (f : SourceFile) (path : String) (gs : List SourceFile) :
    (insert f gs).find? (·.path == path) =
      if f.path = path then some f else gs.find? (·.path == path) := by
  by_cases own : f.path = path
  · -- The file stands in front of all that has its path.
    rw [if_pos own]
    induction gs with
    | nil => simp [insert, own]
    | cons g gs ih =>
        simp only [insert]
        split
        · simp [own]
        · rename_i other
          split
          · simp [own]
          · rw [List.find?_cons_of_neg (by simpa [own] using other), ih]
  · rw [if_neg own]
    induction gs with
    | nil => simp [insert, own]
    | cons g gs ih =>
        simp only [insert]
        split
        · rename_i same
          have other : g.path ≠ path := beq_iff_eq.mp same ▸ own
          rw [List.find?_cons_of_neg (by simpa using own),
            List.find?_cons_of_neg (by simpa using other)]
        · split
          · rw [List.find?_cons_of_neg (by simpa using own)]
          · rw [List.find?_cons, List.find?_cons, ih]

theorem file?_add (s : Session) (f : SourceFile) (path : String) :
    (s.add f).file? path = if f.path = path then some f else s.file? path :=
  find?_insert f path s.files

/-- Of the files whose paths pass a test, the one of a path is there if the path passes. -/
theorem find?_filter_path (q : String → Bool) (path : String) (fs : List SourceFile) :
    (fs.filter fun f => q f.path).find? (·.path == path) =
      if q path then fs.find? (·.path == path) else none := by
  rw [List.find?_filter]
  induction fs with
  | nil => simp
  | cons f fs ih =>
      by_cases own : f.path = path
      · cases hq : q path with
        | true => simp [own, hq]
        | false => simpa [own, hq] using ih
      · simpa [own] using ih

theorem file?_remove (s : Session) (gone path : String) :
    (s.remove gone).file? path = if path = gone then none else s.file? path := by
  refine (find?_filter_path (· != gone) path s.files).trans ?_
  by_cases h : path = gone
  · simp [h]
  · simp [h, file?]

/-! ### Parsing -/

section Parsing

variable {s t : Session} {parser : SourceParser} {path : String} {content : ByteArray}

theorem parse_ok {f : SourceFile} (h : s.parse parser path content = .ok (f, t)) :
    parser path content = .ok f ∧ t = s.add f := by
  unfold parse at h
  split at h
  · rename_i accepted
    cases h
    exact ⟨accepted, rfl⟩
  · cases h

theorem parse_error {e : Failure} (h : s.parse parser path content = .error e) :
    ∃ reason, parser path content = .error reason ∧ e = .within ("parse " ++ path) reason := by
  unfold parse at h
  split at h
  · cases h
  · rename_i reason refused
    cases h
    exact ⟨reason, refused, rfl⟩

end Parsing

/-! ### The order -/

theorem mem_insert {f g : SourceFile} {gs : List SourceFile} (h : g ∈ insert f gs) :
    g = f ∨ g ∈ gs := by
  induction gs with
  | nil => exact Or.inl (List.mem_singleton.mp h)
  | cons e gs ih =>
      simp only [insert] at h
      split at h
      · exact (List.mem_cons.mp h).imp_right (List.mem_cons_of_mem e)
      · split at h
        · exact List.mem_cons.mp h
        · rcases List.mem_cons.mp h with rfl | h
          · exact Or.inr List.mem_cons_self
          · exact (ih h).imp_right (List.mem_cons_of_mem e)

theorem InOrder.add {s : Session} (h : s.InOrder) (f : SourceFile) : (s.add f).InOrder := by
  unfold InOrder at h ⊢
  simp only [Session.add]
  generalize s.files = gs at h
  induction gs with
  | nil => exact List.pairwise_singleton _ f
  | cons g gs ih =>
      obtain ⟨first, rest⟩ := List.pairwise_cons.mp h
      simp only [insert]
      split
      · rename_i same
        exact .cons (fun e he => beq_iff_eq.mp same ▸ first e he) rest
      · rename_i other
        split
        · rename_i below
          refine .cons (fun e he => ?_) h
          rcases List.mem_cons.mp he with rfl | he
          · exact below
          · exact String.lt_trans below (first e he)
        · rename_i above
          refine .cons (fun e he => ?_) (ih rest)
          rcases mem_insert he with rfl | he
          · refine String.not_le.mp fun le => other (beq_iff_eq.mpr ?_)
            exact String.le_antisymm (String.not_lt.mp above) le
          · exact first e he

theorem InOrder.filter {s : Session} (h : s.InOrder) (p : SourceFile → Bool) :
    ({ s with files := s.files.filter p } : Session).InOrder :=
  List.Pairwise.filter p h

/-- A file is in the session exactly when it stands at its path. -/
theorem InOrder.mem_iff {s : Session} (h : s.InOrder) (f : SourceFile) :
    f ∈ s.files ↔ s.file? f.path = some f := by
  refine ⟨fun hf => ?_, List.mem_of_find?_eq_some⟩
  unfold InOrder at h
  unfold file?
  generalize s.files = gs at h hf
  induction gs with
  | nil => exact absurd hf List.not_mem_nil
  | cons g gs ih =>
      obtain ⟨first, rest⟩ := List.pairwise_cons.mp h
      rcases List.mem_cons.mp hf with rfl | hf
      · simp
      · have below := first f hf
        have other : g.path ≠ f.path := fun same => String.lt_irrefl f.path (same ▸ below)
        rw [List.find?_cons_of_neg (by simpa using other)]
        exact ih rest hf

/-- **Files by paths.**  The session holds the given files, in the order of their paths, if it has
them at their paths and nothing else. -/
theorem files_eq {s : Session} (h : s.InOrder) {fs : List SourceFile}
    (order : fs.Pairwise fun a b => a.path < b.path)
    (same : ∀ f, s.file? f.path = some f ↔ f ∈ fs) : s.files = fs := by
  have irrefl : Std.Irrefl fun a b : SourceFile => a.path < b.path :=
    ⟨fun a => String.lt_irrefl a.path⟩
  have antisymm : Std.Antisymm fun a b : SourceFile => a.path < b.path :=
    ⟨fun a b ab ba => absurd (String.lt_trans ab ba) (String.lt_irrefl a.path)⟩
  exact List.Pairwise.eq_of_mem_iff h order fun f => (h.mem_iff f).trans (same f)

end Session

end SolidityLint
