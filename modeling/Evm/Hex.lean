import Evm.Word.Basic

namespace Evm

/-!
# Hexadecimal text

How byte strings, addresses and words are written for people, and how they are read.

* `Bytes.hex`, `Address.hex`, `Word.hex` — every byte as two lower-case digits after `0x`.
* `Word.shortHex` — no more digits than the number needs.
* `Address.abbreviated`, `Word.abbreviated`, `Bytes.abbreviated` — the ends only.
* `Hex.digits?`, `Hex.number?`, `Bytes.ofHex?` — digits of either case after `0x`.
-/

namespace Hex

/-- Two lower-case digits. -/
def byte (b : UInt8) : List Char :=
  [Nat.digitChar (b.toNat / 16), Nat.digitChar (b.toNat % 16)]

/-- Two digits for each byte. -/
def bytes (b : Bytes) : String := String.ofList (b.toList.flatMap byte)

/-- Two upper-case digits after `0x`. -/
def opcode (b : UInt8) : String := "0x" ++ String.ofList ((byte b).map Char.toUpper)

end Hex

/-- Every byte, after `0x`. -/
def Bytes.hex (b : Bytes) : String := "0x" ++ Hex.bytes b

/-- Up to eight bytes in full; of more the first four and their number. -/
def Bytes.abbreviated (b : Bytes) : String :=
  if b.size ≤ 8 then Bytes.hex b
  else Bytes.hex (b.extract 0 4) ++ "..(" ++ toString b.size ++ " bytes)"

/-- The first four bytes, three dots and the last `tail` bytes. -/
def Bytes.ends (b : Bytes) (tail : Nat) : String :=
  Bytes.hex (b.extract 0 4) ++ "..." ++ Hex.bytes (b.extract (b.size - tail) b.size)

/-- All 20 bytes. -/
def Address.hex (a : Address) : String := a.toBytes.hex

/-- The first four and the last two bytes. -/
def Address.abbreviated (a : Address) : String := a.toBytes.ends 2

/-- All 32 bytes. -/
def Word.hex (w : Word) : String := w.toBytes.hex

/-- The first four and the last four bytes. -/
def Word.abbreviated (w : Word) : String := w.toBytes.ends 4

/-- The number without leading zeros; zero has one digit. -/
def Word.shortHex (w : Word) : String := "0x" ++ String.ofList (Nat.toDigits 16 w.toNat)

/-- The number in decimal. -/
def Word.decimal (w : Word) : String := toString w.toNat

/-- A word that names a storage slot. -/
def Word.keyText (w : Word) : String := "StorageKey(" ++ w.decimal ++ ")"

/-- A word that a storage slot holds. -/
def Word.valueText (w : Word) : String := "StorageValue(" ++ w.decimal ++ ")"

/-! ### Reading -/

namespace Hex

/-- The value of a digit. -/
def digit? (c : Char) : Option Nat :=
  if c.isDigit then some (c.toNat - '0'.toNat)
  else if 'a' ≤ c ∧ c ≤ 'f' then some (c.toNat - 'a'.toNat + 10)
  else if 'A' ≤ c ∧ c ≤ 'F' then some (c.toNat - 'A'.toNat + 10)
  else none

/-- The number with these digits. -/
def ofDigits (ds : List Nat) : Nat := ds.foldl (fun n d => 16 * n + d) 0

/-- The digits after `0x`. -/
def digits? (s : String) : Option (List Nat) :=
  match s.toList with
  | '0' :: 'x' :: rest => rest.mapM digit?
  | _ => none

/-- A number with no more digits than `width` bits have room for. -/
def number? (width : Nat) (s : String) : Option (BitVec width) := do
  let ds ← digits? s
  if 4 * ds.length ≤ width then some (BitVec.ofNat width (ofDigits ds)) else none

/-- Two digits for each byte. -/
def ofPairs? : List Nat → Option (List UInt8)
  | [] => some []
  | [_] => none
  | a :: b :: rest => (UInt8.ofNat (16 * a + b) :: ·) <$> ofPairs? rest

end Hex

/-- The bytes that are written with two digits each after `0x`. -/
def Bytes.ofHex? (s : String) : Option Bytes := do
  let ds ← Hex.digits? s
  return (← Hex.ofPairs? ds).toArray

end Evm
