/-!
# Digest — SHA-256

The SHA-256 hash of a byte string, by which a run notices that a file has changed.
-/

namespace SolidityLint

namespace Sha256

/-- The round constants: the first 32 bits of the fractional parts of the cube roots of the first
64 primes. -/
def roundConstants : Array UInt32 := #[
  0x428a2f98, 0x71374491, 0xb5c0fbcf, 0xe9b5dba5, 0x3956c25b, 0x59f111f1, 0x923f82a4, 0xab1c5ed5,
  0xd807aa98, 0x12835b01, 0x243185be, 0x550c7dc3, 0x72be5d74, 0x80deb1fe, 0x9bdc06a7, 0xc19bf174,
  0xe49b69c1, 0xefbe4786, 0x0fc19dc6, 0x240ca1cc, 0x2de92c6f, 0x4a7484aa, 0x5cb0a9dc, 0x76f988da,
  0x983e5152, 0xa831c66d, 0xb00327c8, 0xbf597fc7, 0xc6e00bf3, 0xd5a79147, 0x06ca6351, 0x14292967,
  0x27b70a85, 0x2e1b2138, 0x4d2c6dfc, 0x53380d13, 0x650a7354, 0x766a0abb, 0x81c2c92e, 0x92722c85,
  0xa2bfe8a1, 0xa81a664b, 0xc24b8b70, 0xc76c51a3, 0xd192e819, 0xd6990624, 0xf40e3585, 0x106aa070,
  0x19a4c116, 0x1e376c08, 0x2748774c, 0x34b0bcb5, 0x391c0cb3, 0x4ed8aa4a, 0x5b9cca4f, 0x682e6ff3,
  0x748f82ee, 0x78a5636f, 0x84c87814, 0x8cc70208, 0x90befffa, 0xa4506ceb, 0xbef9a3f7, 0xc67178f2]

/-- The chaining value: eight words. -/
structure State where
  a : UInt32
  b : UInt32
  c : UInt32
  d : UInt32
  e : UInt32
  f : UInt32
  g : UInt32
  h : UInt32
deriving DecidableEq, Inhabited

/-- The first 32 bits of the fractional parts of the square roots of the first eight primes. -/
def State.initial : State :=
  ⟨0x6a09e667, 0xbb67ae85, 0x3c6ef372, 0xa54ff53a, 0x510e527f, 0x9b05688c, 0x1f83d9ab, 0x5be0cd19⟩

/-- Word by word addition. -/
def State.add (s t : State) : State :=
  ⟨s.a + t.a, s.b + t.b, s.c + t.c, s.d + t.d, s.e + t.e, s.f + t.f, s.g + t.g, s.h + t.h⟩

def rotateRight (x : UInt32) (n : UInt32) : UInt32 := (x >>> n) ||| (x <<< (32 - n))

/-- The byte of the padded message at an index: the message, a one bit, zeros, and the number of
bits in the last eight bytes. -/
def paddedByte (message : ByteArray) (total i : Nat) : UInt8 :=
  if h : i < message.size then message[i]
  else if i = message.size then 0x80
  else if total - 8 ≤ i then
    UInt8.ofNat ((message.size * 8) >>> (8 * (total - 1 - i)))
  else 0

/-- The size of the padded message: a multiple of 64 bytes. -/
def paddedSize (n : Nat) : Nat := (n + 9 + 63) / 64 * 64

/-- The big-endian word at an offset of the padded message. -/
def paddedWord (message : ByteArray) (total i : Nat) : UInt32 :=
  let byte (k : Nat) : UInt32 := (paddedByte message total (i + k)).toUInt32
  (byte 0 <<< 24) ||| (byte 1 <<< 16) ||| (byte 2 <<< 8) ||| byte 3

/-- The message schedule of the block at an offset. -/
def schedule (message : ByteArray) (total start : Nat) : Array UInt32 :=
  let words := (Array.range 16).map fun i => paddedWord message total (start + 4 * i)
  (List.range 48).foldl (fun w k =>
    let i := k + 16
    let x := w.getD (i - 15) 0
    let y := w.getD (i - 2) 0
    let s0 := rotateRight x 7 ^^^ rotateRight x 18 ^^^ (x >>> 3)
    let s1 := rotateRight y 17 ^^^ rotateRight y 19 ^^^ (y >>> 10)
    w.push (w.getD (i - 16) 0 + s0 + w.getD (i - 7) 0 + s1)) words

/-- One round. -/
def round (w k : UInt32) (s : State) : State :=
  let s1 := rotateRight s.e 6 ^^^ rotateRight s.e 11 ^^^ rotateRight s.e 25
  let choice := (s.e &&& s.f) ^^^ (~~~s.e &&& s.g)
  let t1 := s.h + s1 + choice + k + w
  let s0 := rotateRight s.a 2 ^^^ rotateRight s.a 13 ^^^ rotateRight s.a 22
  let majority := (s.a &&& s.b) ^^^ (s.a &&& s.c) ^^^ (s.b &&& s.c)
  ⟨t1 + (s0 + majority), s.a, s.b, s.c, s.d + t1, s.e, s.f, s.g⟩

/-- Takes a block into the chaining value. -/
def compress (w : Array UInt32) (s : State) : State :=
  s.add ((List.range 64).foldl (fun s i => round (w.getD i 0) (roundConstants.getD i 0) s) s)

/-- The chaining value after the whole message. -/
def state (message : ByteArray) : State :=
  let total := paddedSize message.size
  Nat.fold (total / 64) (fun i _ s => compress (schedule message total (64 * i)) s) .initial

/-- The hexadecimal digits of a word. -/
def hexWord (x : UInt32) : String :=
  String.ofList ((List.range 8).map fun i => Nat.digitChar ((x.toNat >>> (4 * (7 - i))) % 16))

/-- The digest in hexadecimal digits. -/
def State.hex (s : State) : String :=
  String.join ([s.a, s.b, s.c, s.d, s.e, s.f, s.g, s.h].map hexWord)

end Sha256

/-- The SHA-256 digest of a byte string, in hexadecimal digits. -/
def sha256 (message : ByteArray) : String := (Sha256.state message).hex

end SolidityLint
