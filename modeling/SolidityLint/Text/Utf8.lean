/-!
# Text — reading bytes as characters

Source files are byte strings, and every offset of the program counts bytes.  Text leaves the
program as characters, so `decode` reads bytes as UTF-8 and puts the replacement character for
each byte that no well-formed sequence covers.  `encode` is the way back.
-/

namespace SolidityLint

namespace Utf8

/-- What stands for a byte that is not part of well-formed UTF-8. -/
def replacement : Char := '\uFFFD'

/-- A continuation byte. -/
def isTail (b : UInt8) : Bool := 0x80 ≤ b && b < 0xC0

private def bits (b : UInt8) (mask : UInt8) : Nat := (b &&& mask).toNat

/-- The character at the front of a byte string and the number of bytes it takes; a byte that
starts no well-formed sequence gives the replacement character and counts alone. -/
def next (b : UInt8) (rest : List UInt8) : Char × Nat :=
  if b < 0x80 then (Char.ofNat b.toNat, 1)
  else if 0xC2 ≤ b && b < 0xE0 then
    match rest with
    | c :: _ => if isTail c then (Char.ofNat (bits b 0x1F * 64 + bits c 0x3F), 2) else (replacement, 1)
    | _ => (replacement, 1)
  else if 0xE0 ≤ b && b < 0xF0 then
    match rest with
    | c :: d :: _ =>
      let low : UInt8 := if b == 0xE0 then 0xA0 else 0x80
      let high : UInt8 := if b == 0xED then 0xA0 else 0xC0
      if low ≤ c && c < high && isTail d then
        (Char.ofNat ((bits b 0x0F * 64 + bits c 0x3F) * 64 + bits d 0x3F), 3)
      else (replacement, 1)
    | _ => (replacement, 1)
  else if 0xF0 ≤ b && b < 0xF5 then
    match rest with
    | c :: d :: e :: _ =>
      let low : UInt8 := if b == 0xF0 then 0x90 else 0x80
      let high : UInt8 := if b == 0xF4 then 0x90 else 0xC0
      if low ≤ c && c < high && isTail d && isTail e then
        (Char.ofNat (((bits b 0x07 * 64 + bits c 0x3F) * 64 + bits d 0x3F) * 64 + bits e 0x3F), 4)
      else (replacement, 1)
    | _ => (replacement, 1)
  else (replacement, 1)

/-- The characters of a byte string, each with the number of bytes it takes. -/
def decodeSized (bytes : List UInt8) : List (Char × Nat) :=
  go bytes 0
where
  /-- `skip` counts the bytes at the front that the last character already took. -/
  go : List UInt8 → Nat → List (Char × Nat)
    | [], _ => []
    | _ :: rest, skip + 1 => go rest skip
    | b :: rest, 0 =>
      let (c, n) := next b rest
      (c, n) :: go rest (n - 1)

/-- The characters of a byte string. -/
def decode (bytes : List UInt8) : List Char := (decodeSized bytes).map (·.1)

/-! ### Keeping every byte

A text can carry bytes that are no characters through a conversion: each of them stands as a
character of its own at the very end of the private code points. -/

/-- The character that stands for a byte that is none. -/
def carrier (b : UInt8) : Char := Char.ofNat (0x10FF00 + b.toNat)

/-- The characters of a byte string, with carriers for the bytes that are none. -/
def decodeKeeping (bytes : List UInt8) : List Char :=
  go bytes 0
where
  /-- `skip` counts the bytes at the front that the last character already took. -/
  go : List UInt8 → Nat → List Char
    | [], _ => []
    | _ :: rest, skip + 1 => go rest skip
    | b :: rest, 0 =>
      let (c, n) := next b rest
      (if n = 1 && 0x80 ≤ b then carrier b else c) :: go rest (n - 1)

/-- The bytes of characters, and those that carriers stand for. -/
def encodeKeeping (cs : List Char) : ByteArray :=
  cs.foldl (fun out c =>
    if 0x10FF80 ≤ c.toNat then out.push (UInt8.ofNat (c.toNat - 0x10FF00))
    else out ++ (String.singleton c).toUTF8) .empty

/-- The bytes of a text. -/
def encode (s : String) : ByteArray := s.toUTF8

end Utf8

/-- The text of a byte string, with the replacement character for each byte that is not part of
well-formed UTF-8. -/
def textOfBytes (bytes : ByteArray) : String :=
  match String.fromUTF8? bytes with
  | some s => s
  | none => String.ofList (Utf8.decode bytes.toList)

end SolidityLint
