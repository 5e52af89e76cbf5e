import SolidityLint.Proofs.Config.RuleSetText
import SolidityLint.Proofs.FrontEnd.Rebuild
import SolidityLint.Proofs.Json.Reading

/-!
# Json — text behind the first value

Rule sets and trees are read with the reader that stops behind the first value.  So a text that is
not one value is refused, as it should be, unless a value that gives a rule set or a tree leads it:
then the rest is never looked at.

* `RuleSet.parse_json_iff` and `Node.decode_iff`: what is accepted.
* `RuleSet.isOf_of_parse` and `Node.isOf_of_decode`: what is refused has its kind.
* `refused_unless_value_leads`: the texts that are not one value.
-/

namespace SolidityLint

namespace RuleSet

/-- The value gives the rule set, and the rule set passes its check. -/
def Given (v : Json) (rs : RuleSet) : Prop := ofJson v = .ok rs ∧ check 0 rs.rules = .ok ()

theorem kind_of_check {i : Nat} {es : List RuleEntry} {f : Failure} (h : check i es = .error f) :
    f.isOf .configDeserialization := by
  induction es generalizing i with
  | nil => cases h
  | cons e es ih =>
      unfold check at h
      split at h
      · cases h
        rfl
      · split at h
        · cases h
          rfl
        · exact ih h

/-- **A rule set is read** if the first value gives it. -/
theorem parse_json_iff {text : String} {rs : RuleSet} :
    parse .json text = .ok rs ↔ ∃ v, Json.parseFirst? text = some v ∧ Given v rs := by
  constructor
  · intro h
    unfold parse at h
    cases first : Json.parseFirst? text with
    | none => simp [first, bind, Except.bind] at h
    | some v =>
        cases read : ofJson v with
        | error e => simp [first, read, bind, Except.bind] at h
        | ok rs' =>
            cases passes : check 0 rs'.rules with
            | error e => simp [first, read, passes, bind, Except.bind] at h
            | ok _ =>
                simp only [first, read, passes, bind, Except.bind] at h
                cases h
                exact ⟨v, rfl, read, passes⟩
  · rintro ⟨v, first, read, passes⟩
    exact parse_json first read passes

/-- A text that gives no rule set fails with the kind of malformed rule sets. -/
theorem isOf_of_parse {text : String} {f : Failure} (h : parse .json text = .error f) :
    f.isOf .configDeserialization := by
  unfold parse at h
  cases first : Json.parseFirst? text with
  | none =>
      simp only [first, bind, Except.bind] at h
      cases h
      rfl
  | some v =>
      cases read : ofJson v with
      | error e =>
          simp only [first, read, bind, Except.bind] at h
          cases h
          rfl
      | ok rs =>
          cases passes : check 0 rs.rules with
          | error e =>
              simp only [first, read, passes, bind, Except.bind] at h
              cases h
              exact kind_of_check passes
          | ok _ => simp [first, read, passes, bind, Except.bind] at h

end RuleSet

namespace Node

/-- **A tree is read** if the first value declares it. -/
theorem decode_iff {text : String} {n : Node} :
    decode text = .ok n ↔ ∃ v, Json.parseFirst? text = some v ∧ ofJson v = .ok n := by
  unfold decode
  cases first : Json.parseFirst? text with
  | none => simp
  | some v => simp

/-- Whatever a tree is refused for is of the kind of malformed trees. -/
theorem isOf_of_decode (e : DecodeError) : (Failure.decode e).isOf .astDeserialization := by
  cases e <;> rfl

end Node

/-- What fails only in one way fails in this way unless it succeeds. -/
theorem exists_error_iff {ε α : Type} {x : Except ε α} {K : ε → Prop} (h : ∀ e, x = .error e → K e) :
    (∃ e, x = .error e ∧ K e) ↔ ¬ ∃ a, x = .ok a := by
  cases x with
  | error e => simpa using h e rfl
  | ok a => simp

/-- The first value of a text is one that leads it.  Only for a number it matters what follows. -/
theorem Json.exists_parseFirst?_iff (text : String) {P : Json → Prop} (number : ∀ n, ¬ P (.num n)) :
    (∃ v, parseFirst? text = some v ∧ P v) ↔
      ∃ v rest, Leads v text.toList rest ∧ v.depth ≤ maxDepth ∧ P v := by
  constructor
  · rintro ⟨v, first, given⟩
    obtain ⟨⟨rest, leads⟩, shallow⟩ := leads_of_parseFirst? first
    exact ⟨v, rest, leads, shallow, given⟩
  · rintro ⟨v, rest, leads, shallow, given⟩
    have solid : ∀ n, v ≠ .num n := by
      rintro n rfl
      exact number n given
    exact ⟨v, parseFirst?_of_leads leads (.inl solid) shallow, given⟩

/-- Some value that leads the text gives a rule set. -/
theorem RuleSet.exists_parse_json_iff (text : String) :
    (∃ rs, parse .json text = .ok rs) ↔
      ∃ v rest rs, Json.Leads v text.toList rest ∧ v.depth ≤ Json.maxDepth ∧ Given v rs := by
  have number : ∀ n, ¬ ∃ rs, Given (.num n) rs := by
    rintro n ⟨rs, ⟨⟩, -⟩
  have first := Json.exists_parseFirst?_iff (P := fun v => ∃ rs, Given v rs) text number
  simp only [parse_json_iff]
  constructor
  · rintro ⟨rs, v, read, given⟩
    obtain ⟨v, rest, leads, shallow, rs, given⟩ := first.mp ⟨v, read, rs, given⟩
    exact ⟨v, rest, rs, leads, shallow, given⟩
  · rintro ⟨v, rest, rs, leads, shallow, given⟩
    obtain ⟨v, read, rs, given⟩ := first.mpr ⟨v, rest, leads, shallow, rs, given⟩
    exact ⟨rs, v, read, given⟩

/-- Some value that leads the text declares a tree. -/
theorem Node.exists_decode_iff (text : String) :
    (∃ n, decode text = .ok n) ↔
      ∃ v rest n, Json.Leads v text.toList rest ∧ v.depth ≤ Json.maxDepth ∧ ofJson v = .ok n := by
  have number : ∀ n, ¬ ∃ root, ofJson (.num n) = .ok root := by
    rintro n ⟨root, ⟨⟩⟩
  have first := Json.exists_parseFirst?_iff (P := fun v => ∃ n, ofJson v = .ok n) text number
  simp only [decode_iff]
  constructor
  · rintro ⟨n, v, read, declared⟩
    obtain ⟨v, rest, leads, shallow, n, declared⟩ := first.mp ⟨v, read, n, declared⟩
    exact ⟨v, rest, n, leads, shallow, declared⟩
  · rintro ⟨v, rest, n, leads, shallow, declared⟩
    obtain ⟨v, read, n, declared⟩ := first.mpr ⟨v, rest, leads, shallow, n, declared⟩
    exact ⟨n, v, read, declared⟩

/-- **Texts that are not one value.**  A byte string that is not one value with white space around it
is refused by the reader of whole texts.  Reading it as a rule set fails as a malformed rule set, and
reading it as a tree fails as a malformed tree, each exactly unless a value leads the text that gives
one: what stands behind that value is not looked at. -/
theorem refused_unless_value_leads (bytes : ByteArray)
    (not_one : ¬ ∃ v, Json.Alone v (textOfBytes bytes).toList) :
    Json.parse? (textOfBytes bytes) = none ∧
      ((∃ f, RuleSet.parse .json (textOfBytes bytes) = .error f ∧ f.isOf .configDeserialization) ↔
        ¬ ∃ v rest rs, Json.Leads v (textOfBytes bytes).toList rest ∧ v.depth ≤ Json.maxDepth ∧
          RuleSet.Given v rs) ∧
      ((∃ e, Node.decode (textOfBytes bytes) = .error e ∧
          (Failure.decode e).isOf .astDeserialization) ↔
        ¬ ∃ v rest n, Json.Leads v (textOfBytes bytes).toList rest ∧ v.depth ≤ Json.maxDepth ∧
          Node.ofJson v = .ok n) := by
  refine ⟨?_, ?_, ?_⟩
  · by_contra some
    obtain ⟨v, read⟩ := Option.ne_none_iff_exists'.mp some
    exact not_one ⟨v, (Json.parse?_iff.mp read).1⟩
  · rw [← RuleSet.exists_parse_json_iff]
    exact exists_error_iff fun f refused => RuleSet.isOf_of_parse refused
  · rw [← Node.exists_decode_iff]
    exact exists_error_iff fun e _ => Node.isOf_of_decode e

/-- Two values, of which the first gives nothing. -/
def listThenSet : String := "[] \x7b\"rules\": []\x7d"

theorem readValue_listThenSet :
    Json.readValue (Json.lex listThenSet.toList) .value [] 0 =
      some (.arr [], [.openObj, .str "rules", .colon, .openArr, .closeArr, .closeObj]) := by
  cbv

/-- A list gives no rule set, so the text is refused. -/
theorem refused_unless_value_leads_list :
    (¬ ∃ v, Json.Alone v (textOfBytes listThenSet.toUTF8).toList) ∧
      ∃ f, RuleSet.parse .json (textOfBytes listThenSet.toUTF8) = .error f ∧
        f.isOf .configDeserialization := by
  have not_one : ¬ ∃ v, Json.Alone v (textOfBytes listThenSet.toUTF8).toList := by
    rw [textOfBytes_toUTF8]
    rintro ⟨v, alone⟩
    exact Json.not_alone_of_readValue readValue_listThenSet (by simp) v alone
  refine ⟨not_one, (refused_unless_value_leads listThenSet.toUTF8 not_one).2.1.mpr ?_⟩
  rw [textOfBytes_toUTF8, ← RuleSet.exists_parse_json_iff]
  rintro ⟨rs, read⟩
  obtain ⟨v, first, given⟩ := RuleSet.parse_json_iff.mp read
  rw [Json.parseFirst?_of_readValue readValue_listThenSet] at first
  cases first
  cases given.1

/-- A rule set that a merge has left half of a conflict behind. -/
def setThenConflict : String := "\x7b\"name\": \"team\", \"rules\": []\x7d\n>>>>>>> theirs\n"

theorem readValue_setThenConflict :
    Json.readValue (Json.lex setThenConflict.toList) .value [] 0 =
      some (.obj [("name", .str "team"), ("rules", .arr [])], [.bad]) := by
  cbv

/-- A tree and a letter behind it. -/
def treeThenLetter : String :=
  "\x7b\"absolutePath\": \"T.sol\", \"nodeType\": \"SourceUnit\", \"src\": \"0:14:0\"\x7d x"

theorem readValue_treeThenLetter :
    Json.readValue (Json.lex treeThenLetter.toList) .value [] 0 = some (tokenTree, [.bad]) := by
  cbv

/-- Neither text is one value, and both are accepted. -/
theorem text_behind_value_accepted :
    (¬ ∃ v, Json.Alone v (textOfBytes setThenConflict.toUTF8).toList) ∧
      RuleSet.parse .json (textOfBytes setThenConflict.toUTF8) =
        .ok { name := "team", rules? := some [] } ∧
      (¬ ∃ v, Json.Alone v (textOfBytes treeThenLetter.toUTF8).toList) ∧
      ∃ n, Node.decode (textOfBytes treeThenLetter.toUTF8) = .ok n := by
  simp only [textOfBytes_toUTF8]
  refine ⟨?_, ?_, ?_, ?_⟩
  · rintro ⟨v, alone⟩
    exact Json.not_alone_of_readValue readValue_setThenConflict (by simp) v alone
  · have first := Json.parseFirst?_of_readValue readValue_setThenConflict
    exact RuleSet.parse_json first (by cbv) rfl
  · rintro ⟨v, alone⟩
    exact Json.not_alone_of_readValue readValue_treeThenLetter (by simp) v alone
  · have first := Json.parseFirst?_of_readValue readValue_treeThenLetter
    obtain ⟨root, tree⟩ := ofJson_tokenTree
    exact ⟨root, Node.decode_iff.mpr ⟨tokenTree, first, tree⟩⟩

end SolidityLint
