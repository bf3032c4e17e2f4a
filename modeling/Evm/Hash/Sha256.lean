import Evm.Bytes

namespace Evm.Sha256

/-!
# SHA-256

The hash of the precompiled contract at address 2.

* `pad` — the message, a one bit, zeros and the length in bits, up to whole blocks of 64 bytes.
* `schedule` — the 64 words that a block expands to.
* `compress` — one block mixed into the eight chaining words.
* `digest` — the 32 bytes of the hash.
-/

/-- The 64 round constants. -/
def roundConstants : Array UInt32 :=
  #[0x428a2f98, 0x71374491, 0xb5c0fbcf, 0xe9b5dba5, 0x3956c25b, 0x59f111f1, 0x923f82a4, 0xab1c5ed5,
    0xd807aa98, 0x12835b01, 0x243185be, 0x550c7dc3, 0x72be5d74, 0x80deb1fe, 0x9bdc06a7, 0xc19bf174,
    0xe49b69c1, 0xefbe4786, 0x0fc19dc6, 0x240ca1cc, 0x2de92c6f, 0x4a7484aa, 0x5cb0a9dc, 0x76f988da,
    0x983e5152, 0xa831c66d, 0xb00327c8, 0xbf597fc7, 0xc6e00bf3, 0xd5a79147, 0x06ca6351, 0x14292967,
    0x27b70a85, 0x2e1b2138, 0x4d2c6dfc, 0x53380d13, 0x650a7354, 0x766a0abb, 0x81c2c92e, 0x92722c85,
    0xa2bfe8a1, 0xa81a664b, 0xc24b8b70, 0xc76c51a3, 0xd192e819, 0xd6990624, 0xf40e3585, 0x106aa070,
    0x19a4c116, 0x1e376c08, 0x2748774c, 0x34b0bcb5, 0x391c0cb3, 0x4ed8aa4a, 0x5b9cca4f, 0x682e6ff3,
    0x748f82ee, 0x78a5636f, 0x84c87814, 0x8cc70208, 0x90befffa, 0xa4506ceb, 0xbef9a3f7, 0xc67178f2]

/-- The eight chaining words. -/
structure Chain where
  a : UInt32
  b : UInt32
  c : UInt32
  d : UInt32
  e : UInt32
  f : UInt32
  g : UInt32
  h : UInt32

/-- The chaining words before the first block. -/
def Chain.start : Chain where
  a := 0x6a09e667
  b := 0xbb67ae85
  c := 0x3c6ef372
  d := 0xa54ff53a
  e := 0x510e527f
  f := 0x9b05688c
  g := 0x1f83d9ab
  h := 0x5be0cd19

/-- Rotation to the right, by 1 to 31. -/
def rotateRight (w n : UInt32) : UInt32 := (w >>> n) ||| (w <<< (32 - n))

/-! ### Padding and the message schedule -/

/-- The message, a byte `0x80`, zeros, and the length in bits as eight bytes. -/
def pad (m : Bytes) : Bytes :=
  let zeros := (119 - m.size % 64) % 64
  m.push 0x80 ++ Array.replicate zeros (0 : UInt8) ++ Bytes.ofNat 8 (8 * m.size)

/-- The big-endian 32-bit number that starts at `i`. -/
def wordAt (b : Bytes) (i : Nat) : UInt32 :=
  (List.range 4).foldl (fun n k => (n <<< 8) ||| (b.getD (i + k) 0).toUInt32) 0

/-- The next word of a schedule from the sixteen before it. -/
def nextWord (w : Array UInt32) : UInt32 :=
  let back (k : Nat) : UInt32 := w.getD (w.size - k) 0
  let s0 := rotateRight (back 15) 7 ^^^ rotateRight (back 15) 18 ^^^ (back 15 >>> 3)
  let s1 := rotateRight (back 2) 17 ^^^ rotateRight (back 2) 19 ^^^ (back 2 >>> 10)
  back 16 + s0 + back 7 + s1

/-- The sixteen words of the block that starts at `start`, and 48 more derived from them. -/
def schedule (padded : Bytes) (start : Nat) : Array UInt32 :=
  let first : Array UInt32 := Array.ofFn fun i : Fin 16 => wordAt padded (start + 4 * i.val)
  (List.range 48).foldl (fun w _ => w.push (nextWord w)) first

/-! ### Compression -/

/-- One round with its constant and its schedule word. -/
def round (s : Chain) (k w : UInt32) : Chain :=
  let s1 := rotateRight s.e 6 ^^^ rotateRight s.e 11 ^^^ rotateRight s.e 25
  let choice := (s.e &&& s.f) ^^^ (~~~s.e &&& s.g)
  let t1 := s.h + s1 + choice + k + w
  let s0 := rotateRight s.a 2 ^^^ rotateRight s.a 13 ^^^ rotateRight s.a 22
  let majority := (s.a &&& s.b) ^^^ (s.a &&& s.c) ^^^ (s.b &&& s.c)
  { a := t1 + s0 + majority, b := s.a, c := s.b, d := s.c,
    e := s.d + t1, f := s.e, g := s.f, h := s.g }

/-- Mixes the block that starts at `start` into the chaining words. -/
def compress (padded : Bytes) (s : Chain) (start : Nat) : Chain :=
  let w := schedule padded start
  let t := (List.range 64).foldl
    (fun t i => round t (roundConstants.getD i 0) (w.getD i 0)) s
  { a := s.a + t.a, b := s.b + t.b, c := s.c + t.c, d := s.d + t.d,
    e := s.e + t.e, f := s.f + t.f, g := s.g + t.g, h := s.h + t.h }

/-- The chaining words one after the other, most significant byte first. -/
def Chain.toBytes (s : Chain) : Bytes :=
  [s.a, s.b, s.c, s.d, s.e, s.f, s.g, s.h].foldl (fun out w => out ++ Bytes.ofNat 4 w.toNat) #[]

/-- The 32 bytes of the hash. -/
def digest (m : Bytes) : Bytes :=
  let padded := pad m
  let blocks := List.range (padded.size / 64)
  (blocks.foldl (fun s k => compress padded s (64 * k)) Chain.start).toBytes

end Evm.Sha256
