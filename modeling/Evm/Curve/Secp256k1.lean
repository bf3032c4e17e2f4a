namespace Evm.Secp256k1

/-!
# The curve secp256k1

Points with `y ^ 2 = x ^ 3 + 7` over a prime field, and the key that made a signature.

* `Point`, `Point.add`, `Point.mul` — the group of the curve.
* `liftX` — the point with a given first coordinate and parity.
* `recover` — the public key from a digest and a signature.
-/

/-- The prime of the field, `2 ^ 256 - 2 ^ 32 - 977`. -/
def prime : Nat := 0xfffffffffffffffffffffffffffffffffffffffffffffffffffffffefffffc2f

/-- The prime order of the group. -/
def order : Nat := 0xfffffffffffffffffffffffffffffffebaaedce6af48a03bbfd25e8cd0364141

/-! ### Modular arithmetic -/

/-- Square and multiply: `acc * b ^ e` modulo `m`, if `fuel` covers the bits of `e`. -/
def powModLoop (m : Nat) : Nat → Nat → Nat → Nat → Nat
  | 0, _, _, acc => acc
  | fuel + 1, b, e, acc =>
    if e = 0 then acc
    else powModLoop m fuel (b * b % m) (e / 2) (if e % 2 = 1 then acc * b % m else acc)

/-- The power `b ^ e` modulo `m`, for exponents below `2 ^ 256`. -/
def powMod (m b e : Nat) : Nat := powModLoop m 256 (b % m) e (1 % m)

/-- The inverse modulo a prime. -/
def invMod (m a : Nat) : Nat := powMod m a (m - 2)

/-! ### Points -/

/-- A point of the curve. -/
inductive Point where
  /-- The neutral element. -/
  | infinity
  | affine (x y : Nat)
  deriving DecidableEq

/-- The generator of the group. -/
def generator : Point :=
  .affine 0x79be667ef9dcbbac55a06295ce870b07029bfcdb2dce28d959f2815b16f81798
    0x483ada7726a3c4655da4fbfc0e1108a8fd17b448a68554199c47d08ffb10d4b8

namespace Point

/-- The third point on the line with slope `k` through points at `x1` and `x2`, reflected. -/
def chord (k x1 y1 x2 : Nat) : Point :=
  let x := (k * k + 2 * prime - x1 - x2) % prime
  .affine x ((k * (x1 + prime - x) + prime - y1) % prime)

/-- Twice a point. -/
def double : Point → Point
  | infinity => infinity
  | affine x y =>
    if y = 0 then infinity
    else chord (3 * x * x % prime * invMod prime (2 * y)) x y x

/-- The sum of two points. -/
def add : Point → Point → Point
  | infinity, q => q
  | p, infinity => p
  | affine x1 y1, affine x2 y2 =>
    if x1 = x2 then
      if y1 = y2 then double (affine x1 y1) else infinity
    else
      chord ((y2 + prime - y1) % prime * invMod prime (x2 + prime - x1) % prime) x1 y1 x2

/-- Double and add: `acc + k * p`, if `fuel` covers the bits of `k`. -/
def mulLoop : Nat → Nat → Point → Point → Point
  | 0, _, _, acc => acc
  | fuel + 1, k, p, acc =>
    if k = 0 then acc
    else mulLoop fuel (k / 2) (double p) (if k % 2 = 1 then add acc p else acc)

/-- A multiple of a point, for factors below `2 ^ 256`. -/
def mul (k : Nat) (p : Point) : Point := mulLoop 256 k p infinity

end Point

/-- The point with first coordinate `x` whose second coordinate is odd or even as asked. -/
def liftX (x : Nat) (odd : Bool) : Option Point :=
  let square := (x * x % prime * x + 7) % prime
  let y := powMod prime square ((prime + 1) / 4)
  if x < prime ∧ y * y % prime = square then
    some (.affine x (if (y % 2 == 1) = odd then y else (prime - y) % prime))
  else none

/-- The public key under which `(r, s)` signs the digest `z`, if the nonce point has first
    coordinate `r` and the given parity. -/
def recover (z r s : Nat) (odd : Bool) : Option (Nat × Nat) := do
  let nonce ← liftX r odd
  let inv := invMod order r
  let u := (order - inv * (z % order) % order) % order
  let v := inv * s % order
  match (generator.mul u).add (nonce.mul v) with
  | .infinity => none
  | .affine x y => some (x, y)

end Evm.Secp256k1
