import Mathlib.Data.List.Forall2
import SolidityLint.Position.Span
import SolidityLint.Proofs.Text.Integer

/-!
# Position — the texts of spans

A span is two or three integers with colons between them (`Span.Written`).  The reader takes the
text apart at the colons (`fields_eq`) and reads each field, so that it accepts these texts and no
others (`Span.parse_eq_ok_iff`); a text that it refuses has another number of fields, or a field
that is no integer (`Span.parse_cases`).

* `spans_read_as_written`: what is read, what is refused, and that a span written is read back.
-/

namespace SolidityLint

/-- No separator of fields is part of a numeral. -/
theorem Integer.Numeral.colon_not_mem {cs : List Char} {v : Int} (h : Integer.Numeral cs v) :
    ':' ∉ cs := by
  intro hc
  obtain eq | eq | digit := h.sign_or_digit ':' hc
  · cases eq
  · cases eq
  · cases digit

/-! ### Errors -/

/-- The text that an error is about. -/
def SpanError.text : SpanError → String
  | .shape text | .field text _ _ => text

/-- What the error says of the text. -/
def SpanError.reason : SpanError → String
  | .shape _ => "want offset:length"
  | .field _ numeral error => "strconv.Atoi: parsing " ++ quoted numeral ++ ": " ++ error.reason

theorem SpanError.message_eq (e : SpanError) :
    e.message = "malformed span: " ++ quoted e.text ++ ": " ++ e.reason := by
  cases e with
  | shape text =>
      change "malformed span: " ++ quoted text ++ ": want offset:length" =
        "malformed span: " ++ quoted text ++ ": " ++ "want offset:length"
      generalize "malformed span: " ++ quoted text = front
      rw [String.append_assoc]
      rfl
  | field text numeral error =>
      change "malformed span: " ++ quoted text ++ ": strconv.Atoi: parsing " ++ quoted numeral
          ++ ": " ++ error.reason =
        "malformed span: " ++ quoted text ++ ": " ++
          ("strconv.Atoi: parsing " ++ quoted numeral ++ ": " ++ error.reason)
      generalize "malformed span: " ++ quoted text = front
      generalize quoted numeral = numeral
      simp only [← String.append_assoc]
      congr 3
      rw [String.append_assoc]
      rfl

/-! ### Fields -/

namespace Span

theorem fields_eq (s : String) : fields s = (s.toList.splitOn ':').map String.ofList := by
  have split (cs cur : List Char) :
      fields.go cs cur = List.splitOnPPrepend (· == ':') cs cur := by
    fun_induction fields.go cs cur with
    | case1 cur => rfl
    | case2 cs cur ih => rw [List.splitOnPPrepend, ih]; rfl
    | case3 c cs cur other ih =>
        have other : (c == ':') = false := beq_eq_false_iff_ne.mpr other
        rw [List.splitOnPPrepend, ih, other]
        rfl
  exact congrArg (List.map String.ofList) (split s.toList [])

/-- The text of a span: its integers with colons between them; without the number of a source
that is `-1`. -/
inductive Written : List Char → Span → Prop where
  | pair {a b : List Char} {offset length : Int64} (ha : Integer.Numeral a offset.toInt)
      (hb : Integer.Numeral b length.toInt) : Written (a ++ ':' :: b) ⟨offset, length, -1⟩
  | triple {a b c : List Char} {offset length file : Int64} (ha : Integer.Numeral a offset.toInt)
      (hb : Integer.Numeral b length.toInt) (hc : Integer.Numeral c file.toInt) :
      Written (a ++ ':' :: (b ++ ':' :: c)) ⟨offset, length, file⟩

/-- The fields are read if each of them is an integer. -/
theorem readFields_eq_ok_iff {text : String} {fs : List String} {ns : List Int64} :
    readFields text fs = .ok ns ↔ List.Forall₂ (fun f n => Integer.read f = .ok n) fs ns := by
  induction fs generalizing ns with
  | nil => simp [readFields, eq_comm]
  | cons f fs ih =>
      rw [readFields, List.forall₂_cons_left_iff]
      cases read : Integer.read f with
      | error e => simp
      | ok n =>
        simp only [← ih, Except.ok.injEq]
        cases rest : readFields text fs with
        | error e => simp [Except.map]
        | ok ms => simp [Except.map, eq_comm]

/-- Fields are refused for one that is no integer. -/
theorem exists_of_readFields_error {text : String} {fs : List String} {e : SpanError}
    (h : readFields text fs = .error e) :
    ∃ f ∈ fs, ∃ reason, Integer.read f = .error reason ∧ e = .field text f reason := by
  induction fs with
  | nil => cases h
  | cons f fs ih =>
      rw [readFields] at h
      cases read : Integer.read f with
      | error reason =>
          rw [read] at h
          exact ⟨f, List.mem_cons_self, reason, read, (Except.error.inj h).symm⟩
      | ok n =>
          rw [read] at h
          cases rest : readFields text fs with
          | error e' =>
              rw [rest] at h
              obtain ⟨g, hg, refused⟩ := ih (rest.trans h)
              exact ⟨g, List.mem_cons_of_mem f hg, refused⟩
          | ok ns =>
              rw [rest] at h
              cases h

theorem reads_fields_iff {s : String} {ns : List Int64} :
    List.Forall₂ (fun f n => Integer.read f = .ok n) (fields s) ns ↔
      List.Forall₂ (fun cs n => Integer.Numeral cs n.toInt) (s.toList.splitOn ':') ns := by
  simp only [fields_eq, List.forall₂_map_left_iff, Integer.read_eq_ok_iff, String.toList_ofList]

/-- A text with two or three fields that are integers is the text of a span. -/
theorem exists_written {s : String} {ns : List Int64}
    (h : List.Forall₂ (fun f n => Integer.read f = .ok n) (fields s) ns)
    (count : ns.length = 2 ∨ ns.length = 3) : ∃ span, Written s.toList span := by
  rw [reads_fields_iff] at h
  -- The text is its fields with the colons put back.
  have text : [':'].intercalate (s.toList.splitOn ':') = s.toList := List.intercalate_splitOn ':'
  rw [← text]
  match ns, count with
  | [offset, length], _ =>
      obtain ⟨a, _, ha, others, eq⟩ := List.forall₂_cons_right_iff.mp h
      obtain ⟨b, _, hb, none, rfl⟩ := List.forall₂_cons_right_iff.mp others
      obtain rfl := List.forall₂_nil_right_iff.mp none
      rw [eq]
      exact ⟨_, by simpa using Written.pair ha hb⟩
  | [offset, length, file], _ =>
      obtain ⟨a, _, ha, others, eq⟩ := List.forall₂_cons_right_iff.mp h
      obtain ⟨b, _, hb, last, rfl⟩ := List.forall₂_cons_right_iff.mp others
      obtain ⟨c, _, hc, none, rfl⟩ := List.forall₂_cons_right_iff.mp last
      obtain rfl := List.forall₂_nil_right_iff.mp none
      rw [eq]
      exact ⟨_, by simpa using Written.triple ha hb hc⟩

/-- The fields of the text of a span are its integers. -/
theorem fields_of_written {s : String} {span : Span} (h : Written s.toList span) :
    ∃ ns, List.Forall₂ (fun f n => Integer.read f = .ok n) (fields s) ns ∧
      (ns = [span.offset, span.length] ∧ span.file = -1 ∨
        ns = [span.offset, span.length, span.file]) := by
  simp only [reads_fields_iff]
  generalize s.toList = cs at h
  cases h with
  | pair ha hb =>
      refine ⟨_, ?_, .inl ⟨rfl, rfl⟩⟩
      rw [List.splitOn_append_cons_self_of_not_mem ha.colon_not_mem,
        List.splitOn_eq_singleton hb.colon_not_mem]
      exact .cons ha (.cons hb .nil)
  | triple ha hb hc =>
      refine ⟨_, ?_, .inr rfl⟩
      rw [List.splitOn_append_cons_self_of_not_mem ha.colon_not_mem,
        List.splitOn_append_cons_self_of_not_mem hb.colon_not_mem,
        List.splitOn_eq_singleton hc.colon_not_mem]
      exact .cons ha (.cons hb (.cons hc .nil))

theorem parse_of_written {s : String} {span : Span} (h : Written s.toList span) :
    parse s = .ok span := by
  obtain ⟨ns, reads, shape⟩ := fields_of_written h
  have count := reads.length_eq
  unfold parse
  dsimp only
  rw [readFields_eq_ok_iff.mpr reads]
  obtain ⟨offset, length, file⟩ := span
  obtain ⟨rfl, rfl⟩ | rfl := shape
  · rw [if_pos (.inl count)]
  · rw [if_pos (.inr count)]

/-- **How a text is read.** -/
theorem parse_cases (s : String) :
    (∃ span, Written s.toList span) ∨
      (parse s = .error (.shape s) ∧ (fields s).length ≠ 2 ∧ (fields s).length ≠ 3) ∨
      ∃ f ∈ fields s, ∃ reason, Integer.read f = .error reason ∧
        parse s = .error (.field s f reason) := by
  by_cases count : (fields s).length = 2 ∨ (fields s).length = 3
  · cases read : readFields s (fields s) with
    | ok ns =>
        have reads := readFields_eq_ok_iff.mp read
        exact .inl (exists_written reads (reads.length_eq ▸ count))
    | error e =>
        obtain ⟨f, hf, reason, refused, rfl⟩ := exists_of_readFields_error read
        refine .inr (.inr ⟨f, hf, reason, refused, ?_⟩)
        unfold parse
        dsimp only
        rw [if_pos count, read]
  · exact .inr (.inl ⟨if_neg count, not_or.mp count⟩)

theorem parse_eq_ok_iff {s : String} {span : Span} :
    parse s = .ok span ↔ Written s.toList span := by
  refine ⟨fun h => ?_, parse_of_written⟩
  obtain ⟨span', written⟩ | ⟨refused, -⟩ | ⟨f, -, reason, -, refused⟩ := parse_cases s
  · obtain rfl := Except.ok.inj ((parse_of_written written).symm.trans h)
    exact written
  · rw [refused] at h
    cases h
  · rw [refused] at h
    cases h

/-- A text is read if it has two or three fields that are integers. -/
theorem exists_parse_iff {s : String} :
    (∃ span, parse s = .ok span) ↔
      ((fields s).length = 2 ∨ (fields s).length = 3) ∧
        ∀ f ∈ fields s, ∃ n, Integer.read f = .ok n := by
  constructor
  · rintro ⟨span, accepted⟩
    obtain ⟨ns, reads, shape⟩ := fields_of_written (parse_eq_ok_iff.mp accepted)
    refine ⟨?_, fun f hf => ?_⟩
    · rw [reads.length_eq]
      exact shape.imp (fun pair => congrArg List.length pair.1) (congrArg List.length)
    · obtain ⟨i, hi, rfl⟩ := List.getElem_of_mem hf
      exact ⟨_, reads.get hi (reads.length_eq ▸ hi)⟩
  · rintro ⟨count, integers⟩
    obtain ⟨span, written⟩ | ⟨-, two, three⟩ | ⟨f, hf, reason, refused, -⟩ := parse_cases s
    · exact ⟨span, parse_of_written written⟩
    · exact absurd count (not_or.mpr ⟨two, three⟩)
    · obtain ⟨n, read⟩ := integers f hf
      rw [refused] at read
      cases read

/-- A span is written as a text of its own. -/
theorem written_render (span : Span) : Written span.render.toList span := by
  have colon : (":" : String).toList = [':'] := rfl
  obtain ⟨offset, length, file⟩ := span
  unfold render
  -- A source that is `-1` is left out, and a text without one is read as `-1`.
  by_cases none : file = -1
  · subst none
    rw [if_pos (beq_self_eq_true _)]
    simpa [colon] using
      Written.pair (Integer.numeral_render offset) (Integer.numeral_render length)
  · rw [if_neg (by simpa using none)]
    simpa [colon] using Written.triple (Integer.numeral_render offset)
      (Integer.numeral_render length) (Integer.numeral_render file)

end Span

open SolidityLint.Span

/-- **Spans are read as they are written.**  A text is read if it has two or three fields that are
numerals with values of 64 bits, and as the span of these values; the number of the source is `-1`
when the text has none.  Any other text is refused as a malformed span, for its fields or for one of
them.  What is written of a span is read as that span, however it was written before. -/
theorem spans_read_as_written :
    (∀ s, (∃ span, parse s = .ok span) ↔
      let parts := s.toList.splitOn ':'
      (parts.length = 2 ∨ parts.length = 3) ∧
        ∀ part ∈ parts, ∃ v, Integer.Numeral part v ∧
          Int64.minValue.toInt ≤ v ∧ v ≤ Int64.maxValue.toInt) ∧
    (∀ s span, parse s = .ok span ↔ Written s.toList span) ∧
    (∀ s e, parse s = .error e → e.text = s ∧
      e.message = "malformed span: " ++ quoted s ++ ": " ++ e.reason ∧
      (e = .shape s ∨ ∃ f ∈ fields s, ∃ reason, Integer.read f = .error reason ∧
        e = .field s f reason)) ∧
    (∀ span, parse span.render = .ok span) ∧
    ∀ s span, parse s = .ok span → parse span.render = parse s := by
  refine ⟨fun s => ?_, fun s span => parse_eq_ok_iff, fun s e refused => ?_,
    fun span => parse_of_written (written_render span), fun s span accepted => ?_⟩
  · rw [exists_parse_iff, fields_eq]
    simp only [List.length_map, List.forall_mem_map, Integer.exists_read_iff, String.toList_ofList]
  · obtain ⟨span, written⟩ | ⟨shape, -⟩ | ⟨f, hf, reason, read, field⟩ := parse_cases s
    · rw [parse_of_written written] at refused
      cases refused
    · obtain rfl := Except.error.inj (shape.symm.trans refused)
      exact ⟨rfl, SpanError.message_eq _, .inl rfl⟩
    · obtain rfl := Except.error.inj (field.symm.trans refused)
      exact ⟨rfl, SpanError.message_eq _, .inr ⟨f, hf, reason, read, rfl⟩⟩
  · rw [accepted]
    exact parse_of_written (written_render span)

/-- A text with signs and zeros in front, of a span without a source. -/
theorem spans_read_as_written_signs :
    parse "+07:-0:-1" = .ok ⟨7, 0, -1⟩ ∧ (Span.mk 7 0 (-1)).render = "7:0" ∧
      parse "7:0" = parse "+07:-0:-1" := by
  have seven : Integer.Numeral "+07".toList (7 : Int64).toInt := .plus (by decide)
  have zero : Integer.Numeral "-0".toList (0 : Int64).toInt := .minus (by decide)
  have none : Integer.Numeral "-1".toList (-1 : Int64).toInt := .minus (by decide)
  obtain ⟨-, reads, -, -, again⟩ := spans_read_as_written
  have accepted : parse "+07:-0:-1" = .ok ⟨7, 0, -1⟩ := (reads _ _).mpr (.triple seven zero none)
  have written : (Span.mk 7 0 (-1)).render = "7:0" := rfl
  exact ⟨accepted, written, written ▸ again _ _ accepted⟩

end SolidityLint
