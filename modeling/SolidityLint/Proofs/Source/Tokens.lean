import SolidityLint.Source.Header

/-!
# Source — the tokens of a header

`Reads text ts` is the reading of a header by one scan from left to right: blanks, words,
parentheses, comments, string literals and other marks follow each other, and each token ends where
the scan ends it.  A comment marker inside a literal is part of the literal, and a quote inside a
comment is part of the comment.  `outside` lists the words of a reading that stand outside
parentheses, with their offsets.

`Sealed ts` says that no comment marker inside a literal reaches out of it: whatever a search for
comments finds when it starts inside a literal, it finds the end of it there as well.
-/

namespace SolidityLint

namespace Header

/-! ### Tokens -/

/-- A token of a header. -/
inductive Token where
  | blank (b : UInt8)
  | word (w : List UInt8)
  | opening
  | closing
  /-- A comment with its markers. -/
  | comment (text : List UInt8)
  /-- A string literal, given by its quote and what stands between the quotes. -/
  | literal (quote : UInt8) (body : List UInt8)
  /-- Other punctuation. -/
  | mark (b : UInt8)
deriving DecidableEq, Repr

/-- The bytes of a token. -/
def Token.bytes : Token → List UInt8
  | blank b | mark b => [b]
  | word w => w
  | opening => [0x28]
  | closing => [0x29]
  | comment text => text
  | literal quote body => quote :: (body ++ [quote])

/-- The bytes of a token, with blanks for comments and literals. -/
def Token.blanked : Token → List UInt8
  | comment text => List.replicate text.length space
  | literal _ body => List.replicate (body.length + 2) space
  | t => t.bytes

/-- The bytes of tokens. -/
def textOf (ts : List Token) : List UInt8 := ts.flatMap Token.bytes

/-- White space: the blank, tabs and the ends of lines and pages. -/
def isBlank (b : UInt8) : Bool := b == space || (0x09 ≤ b && b ≤ 0x0D)

/-- The quotes of string literals. -/
def isQuote (b : UInt8) : Bool := b == 0x22 || b == 0x27

/-- A printing character that is in no word and is neither a parenthesis nor a quote. -/
def isMark (b : UInt8) : Bool :=
  0x21 ≤ b && b ≤ 0x7E && !continuesWord b && !isQuote b && b != 0x28 && b != 0x29

/-- What can stand between the quotes of a literal: no quote and no end of a line, except that a
backslash takes the byte after it along.  `escaped` says that a backslash stands in front. -/
def LiteralBody (quote : UInt8) : Bool → List UInt8 → Prop
  | escaped, [] => escaped = false
  | true, b :: rest => b ≠ newline ∧ LiteralBody quote false rest
  | false, b :: rest => b ≠ newline ∧ b ≠ quote ∧ LiteralBody quote (b == backslash) rest

/-- The reading of a text by one scan from left to right. -/
inductive Reads : List UInt8 → List Token → Prop where
  | nil : Reads [] []
  | blank {b : UInt8} {rest : List UInt8} {ts : List Token} (hb : isBlank b = true)
      (h : Reads rest ts) : Reads (b :: rest) (.blank b :: ts)
  | word {b : UInt8} {w rest : List UInt8} {ts : List Token} (hb : startsWord b = true)
      (hw : ∀ c ∈ w, continuesWord c = true) (stop : ∀ c ∈ rest.head?, continuesWord c = false)
      (h : Reads rest ts) : Reads (b :: (w ++ rest)) (.word (b :: w) :: ts)
  | opening {rest : List UInt8} {ts : List Token} (h : Reads rest ts) :
      Reads (0x28 :: rest) (.opening :: ts)
  | closing {rest : List UInt8} {ts : List Token} (h : Reads rest ts) :
      Reads (0x29 :: rest) (.closing :: ts)
  | line {body rest : List UInt8} {ts : List Token} (hb : newline ∉ body)
      (stop : ∀ c ∈ rest.head?, c = newline) (h : Reads rest ts) :
      Reads (slash :: slash :: (body ++ rest)) (.comment (slash :: slash :: body) :: ts)
  | block {body rest : List UInt8} {ts : List Token} (hb : ¬ [star, slash] <:+: body)
      (h : Reads rest ts) :
      Reads (slash :: star :: (body ++ star :: slash :: rest))
        (.comment (slash :: star :: (body ++ [star, slash])) :: ts)
  | literal {quote : UInt8} {body rest : List UInt8} {ts : List Token}
      (hq : isQuote quote = true) (hb : LiteralBody quote false body) (h : Reads rest ts) :
      Reads (quote :: (body ++ quote :: rest)) (.literal quote body :: ts)
  | mark {b : UInt8} {rest : List UInt8} {ts : List Token} (hb : isMark b = true)
      (apart : b = slash → ∀ c ∈ rest.head?, c ≠ slash ∧ c ≠ star) (h : Reads rest ts) :
      Reads (b :: rest) (.mark b :: ts)

/-- The words outside parentheses, with the offsets of their first bytes; the tokens start at
offset `i` inside `depth` parentheses. -/
def outside : List Token → Nat → Nat → List (Nat × List UInt8)
  | [], _, _ => []
  | .word w :: ts, i, depth =>
    (if depth = 0 then [(i, w)] else []) ++ outside ts (i + w.length) depth
  | .opening :: ts, i, depth => outside ts (i + 1) (depth + 1)
  | .closing :: ts, i, depth => outside ts (i + 1) (depth - 1)
  | t :: ts, i, depth => outside ts (i + t.bytes.length) depth

theorem Reads.text_eq {text : List UInt8} {ts : List Token} (h : Reads text ts) :
    textOf ts = text := by
  induction h with
  | nil => rfl
  | blank _ _ ih | mark _ _ _ ih => exact congrArg (List.cons _) ih
  | opening _ ih | closing _ ih => exact congrArg (List.cons _) ih
  | word _ _ _ _ ih | line _ _ _ ih | block _ _ ih | literal _ _ _ ih =>
      rw [← ih]; simp [textOf, Token.bytes]

/-! ### Comment markers inside literals -/

/-- A comment starts at the front of the text, whatever stands before. -/
def OpensComment (text : List UInt8) : Prop :=
  [slash, slash] <+: text ∨ ∃ body, slash :: star :: (body ++ [star, slash]) <+: text

/-- No comment that starts in these bytes reaches into what follows them. -/
inductive Contained (after : List UInt8) : List UInt8 → Prop where
  | nil : Contained after []
  | byte {b : UInt8} {bytes : List UInt8} (hb : ¬ OpensComment (b :: (bytes ++ after)))
      (h : Contained after bytes) : Contained after (b :: bytes)
  | block {body bytes : List UInt8} (hb : ¬ [star, slash] <:+: body)
      (h : Contained after bytes) :
      Contained after (slash :: star :: (body ++ star :: slash :: bytes))

/-- No comment that starts in a literal reaches out of it. -/
def Sealed : List Token → Prop
  | [] => True
  | .literal quote body :: ts => Contained (quote :: textOf ts) body ∧ Sealed ts
  | _ :: ts => Sealed ts

end Header

end SolidityLint
