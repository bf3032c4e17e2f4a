import Evm.Word.Basic

namespace Evm

namespace Keccak

/-!
# Keccak-256

The hash behind contract addresses, code hashes and the KECCAK256 instruction: the Keccak
permutation on 25 lanes of 64 bits, absorbing 136 bytes at a time, with the padding that starts
with a single one bit.

* `State.lane`, `State.ofLanes` — the lanes as a five by five torus.
* `theta`, `rhoPi`, `chi`, `iota` — the steps of a round, and `permute`, the 24 rounds.
* `pad` — fills the message up to whole blocks.
* `keccak256` — the digest as a word.
-/

/-- The 25 lanes; lane `(x, y)` stands at `x + 5 * y`. -/
abbrev State := Vector UInt64 25

/-- Lane `(x, y)`, both coordinates modulo five. -/
def State.lane (s : State) (x y : Nat) : UInt64 :=
  s.get ⟨x % 5 + 5 * (y % 5), by omega⟩

/-- The state with the given lanes. -/
def State.ofLanes (f : Nat → Nat → UInt64) : State :=
  Vector.ofFn fun i => f (i.val % 5) (i.val / 5)

/-- Rotation to the left. -/
def rotateLeft (w : UInt64) (n : UInt64) : UInt64 :=
  if n = 0 then w else (w <<< n) ||| (w >>> (64 - n))

/-- Rotation distances, at `x + 5 * y`. -/
def offsets : Array UInt64 :=
  #[0, 1, 62, 28, 27, 36, 44, 6, 55, 20, 3, 10, 43, 25, 39, 41, 45, 15, 21, 8, 18, 2, 61, 56, 14]

/-- One constant for each round. -/
def roundConstants : List UInt64 :=
  [0x0000000000000001, 0x0000000000008082, 0x800000000000808A, 0x8000000080008000,
    0x000000000000808B, 0x0000000080000001, 0x8000000080008081, 0x8000000000008009,
    0x000000000000008A, 0x0000000000000088, 0x0000000080008009, 0x000000008000000A,
    0x000000008000808B, 0x800000000000008B, 0x8000000000008089, 0x8000000000008003,
    0x8000000000008002, 0x8000000000000080, 0x000000000000800A, 0x800000008000000A,
    0x8000000080008081, 0x8000000000008080, 0x0000000080000001, 0x8000000080008008]

/-! ### The permutation -/

/-- Adds to each lane the parities of two neighbouring columns. -/
def theta (s : State) : State :=
  let column : Vector UInt64 5 := Vector.ofFn fun x =>
    s.lane x 0 ^^^ s.lane x 1 ^^^ s.lane x 2 ^^^ s.lane x 3 ^^^ s.lane x 4
  let parity (x : Nat) : UInt64 := column.get ⟨x % 5, by omega⟩
  State.ofLanes fun x y => s.lane x y ^^^ (parity (x + 4) ^^^ rotateLeft (parity (x + 1)) 1)

/-- Rotates every lane and moves it to its new place. -/
def rhoPi (s : State) : State :=
  State.ofLanes fun x y =>
    rotateLeft (s.lane (x + 3 * y) x) (offsets.getD ((x + 3 * y) % 5 + 5 * (x % 5)) 0)

/-- The nonlinear step along each row. -/
def chi (s : State) : State :=
  State.ofLanes fun x y => s.lane x y ^^^ (~~~(s.lane (x + 1) y) &&& s.lane (x + 2) y)

/-- Adds the round constant to the first lane. -/
def iota (c : UInt64) (s : State) : State := s.set 0 (s.lane 0 0 ^^^ c)

/-- All 24 rounds. -/
def permute (s : State) : State :=
  roundConstants.foldl (fun s c => iota c (chi (rhoPi (theta s)))) s

/-! ### The sponge -/

/-- Bytes absorbed at a time. -/
abbrev rate : Nat := 136

/-- The message, a byte with its lowest bit set, zeros, and the top bit of the last byte set, up
    to a whole number of blocks. -/
def pad (m : Bytes) : Bytes :=
  let missing := rate - m.size % rate
  if missing = 1 then m.push 0x81
  else (m.push 0x01 ++ Array.replicate (missing - 2) (0 : UInt8)).push 0x80

/-- The little-endian 64-bit number that starts at `i`. -/
def laneAt (b : Bytes) (i : Nat) : UInt64 :=
  (List.range 8).foldr (fun k n => (n <<< 8) ||| (b.getD (i + k) 0).toUInt64) 0

/-- Adds the block that starts at `start` to the state and permutes. -/
def absorb (padded : Bytes) (start : Nat) (s : State) : State :=
  permute (Vector.ofFn fun i =>
    if i.val < 17 then s.get i ^^^ laneAt padded (start + 8 * i.val) else s.get i)

/-- The first four lanes of the state, each least significant byte first. -/
def squeeze (s : State) : Bytes :=
  Array.ofFn fun i : Fin 32 =>
    (s.get ⟨i.val / 8, by omega⟩ >>> (8 * (i.val % 8)).toUInt64).toUInt8

/-- The 32 bytes of the digest. -/
def digest (m : Bytes) : Bytes :=
  let padded := pad m
  squeeze <| (List.range (padded.size / rate)).foldl
    (fun s k => absorb padded (rate * k) s) (Vector.replicate 25 0)

end Keccak

/-- The Keccak-256 digest of a byte string, as a word. -/
def keccak256 (m : Bytes) : Word := Word.ofBytes (Keccak.digest m)

end Evm
