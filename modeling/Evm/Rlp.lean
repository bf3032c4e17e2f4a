import Evm.Bytes

namespace Evm.Rlp

/-!
# Recursive length encoding

The serialisation of byte strings and lists whose digest names a created contract.

* `Item` — a byte string or a list of items.
* `minimalBytes` — a number without leading zero bytes; zero is the empty string.
* `encode` — a header that tells the kind and the length, and then the payload.
-/

/-- What can be encoded. -/
inductive Item where
  | bytes (b : Bytes)
  | list (items : List Item)

/-- The shortest big-endian form of a number. -/
def minimalBytes (n : Nat) : Bytes :=
  if n = 0 then #[] else Bytes.ofNat (n.log2 / 8 + 1) n

/-- The header of a payload: one byte up to length 55, else the length of the length and the
    length. -/
def header (base : UInt8) (len : Nat) : Bytes :=
  if len ≤ 55 then #[base + UInt8.ofNat len]
  else
    let digits := minimalBytes len
    #[base + 55 + UInt8.ofNat digits.size] ++ digits

/-- A byte below 128 stands for itself; every other string gets a header. -/
def encodeBytes (b : Bytes) : Bytes :=
  if b.size = 1 ∧ b.getD 0 0 < 0x80 then b else header 0x80 b.size ++ b

mutual

/-- The encoding of an item. -/
def encode : Item → Bytes
  | .bytes b => encodeBytes b
  | .list items =>
    let payload := encodeAll items
    header 0xc0 payload.size ++ payload

/-- The encodings of several items, one after the other. -/
def encodeAll : List Item → Bytes
  | [] => #[]
  | item :: rest => encode item ++ encodeAll rest

end

end Evm.Rlp
