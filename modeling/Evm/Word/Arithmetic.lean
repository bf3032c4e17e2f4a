import Evm.Word.Basic

namespace Evm.Word

/-!
# Word arithmetic

The operations behind the arithmetic, comparison and bit instructions, as far as they are not
plain operations on bit vectors.  Signed operations work on magnitudes and put the sign back.

* `sdiv`, `smod`, `slt` — two's complement division, remainder and comparison.
* `addMod`, `mulMod` — sum and product of double width, reduced once.
* `exp` — powers by repeated squaring.
* `signExtend`, `byteAt`, `shiftLeft`, `shiftRight`, `shiftRightSigned` — the index or the
  amount is a whole word and comes first.
-/

/-! ### Signed operations -/

/-- The top bit is set. -/
def isNegative (w : Word) : Bool := w.msb

/-- The distance from zero of the signed reading. -/
def magnitude (w : Word) : Word := if w.isNegative then -w else w

/-- Less than, for the signed readings. -/
def slt (a b : Word) : Bool :=
  match a.isNegative, b.isNegative with
  | true, false => true
  | false, true => false
  | _, _ => decide (a < b)

/-- Signed quotient, truncated toward zero; zero if the divisor is zero. -/
def sdiv (a b : Word) : Word :=
  if b = 0 then 0
  else
    let q := a.magnitude / b.magnitude
    if a.isNegative = b.isNegative then q else -q

/-- Signed remainder with the sign of the dividend; zero if the divisor is zero. -/
def smod (a b : Word) : Word :=
  if b = 0 then 0
  else
    let r := a.magnitude % b.magnitude
    if a.isNegative then -r else r

/-! ### Modular arithmetic -/

/-- A word with as many zero bits again in front of it. -/
def widen (w : Word) : BitVec 512 := w.setWidth 512

/-- `(a + b) mod n` by way of 512 bits; zero if `n` is zero. -/
def addMod (a b n : Word) : Word :=
  if n = 0 then 0 else ((a.widen + b.widen) % n.widen).setWidth 256

/-- `(a * b) mod n` by way of 512 bits; zero if `n` is zero. -/
def mulMod (a b n : Word) : Word :=
  if n = 0 then 0 else ((a.widen * b.widen) % n.widen).setWidth 256

/-- Square and multiply: `acc * base ^ exponent`, if `fuel` covers the bits of the exponent. -/
def expLoop : Nat → Word → Word → Word → Word
  | 0, _, _, acc => acc
  | fuel + 1, base, exponent, acc =>
    if exponent = 0 then acc
    else
      expLoop fuel (base * base) (exponent >>> 1)
        (if exponent.getLsbD 0 then acc * base else acc)

/-- The power `base ^ exponent`; an exponent has 256 bits. -/
def exp (base exponent : Word) : Word := expLoop 256 base exponent 1

/-! ### Bytes and shifts -/

/-- Extends the sign of byte `k`, counted from the least significant one. -/
def signExtend (k w : Word) : Word :=
  if 31 ≤ k.toNat then w
  else
    let bit := 8 * k.toNat + 7
    let mask := ((1 : Word) <<< bit) - 1
    if w.getLsbD bit then w ||| ~~~mask else w &&& mask

/-- Byte `i`, counted from the most significant one; zero past the end. -/
def byteAt (i w : Word) : Word :=
  if 32 ≤ i.toNat then 0 else (w >>> (8 * (31 - i.toNat))) &&& 0xff

/-- Shift to the left; zero from 256 on. -/
def shiftLeft (s w : Word) : Word := if 256 ≤ s.toNat then 0 else w <<< s.toNat

/-- Shift to the right that fills with zeros; zero from 256 on. -/
def shiftRight (s w : Word) : Word := if 256 ≤ s.toNat then 0 else w >>> s.toNat

/-- Shift to the right that fills with the sign; all sign from 256 on. -/
def shiftRightSigned (s w : Word) : Word :=
  if 256 ≤ s.toNat then (if w.isNegative then BitVec.allOnes 256 else 0)
  else if w.isNegative && 0 < s.toNat then
    (w >>> s.toNat) ||| (BitVec.allOnes 256 <<< (256 - s.toNat))
  else w >>> s.toNat

/-- The number of bytes of the shortest big-endian form; zero has none. -/
def byteLength (w : Word) : Nat := if w = 0 then 0 else w.toNat.log2 / 8 + 1

end Evm.Word
