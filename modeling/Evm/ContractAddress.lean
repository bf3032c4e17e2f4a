import Evm.Hash.Keccak

namespace Evm.Address

/-!
# Derived addresses

An address that is not chosen is the low 20 bytes of a Keccak-256 digest.

* `nonceDigits`, `nonceItem` — a nonce without zero bytes in front, and how it stands in a list.
* `ofCreate` — of the pair of sender and nonce, `createPreimage`.
* `ofCreate2` — of the sender, a salt and the digest of the init code, `create2Preimage`.
* `ofPublicKey` — of the 64 bytes of a public key.
-/

/-- How many of the 64 bits of a number are zero in front of the first one bit. -/
def leadingZeros (n : Nat) : Nat := if n = 0 then 64 else 63 - n.log2

/-- The eight bytes of a nonce without the zero bytes in front; none for zero. -/
def nonceDigits (nonce : Nat) : Bytes := (Bytes.ofNat 8 nonce).extract (leadingZeros nonce / 8) 8

/-- A single byte below 128 needs no header. -/
def isBare (digits : Bytes) : Bool := digits.size = 1 && digits.getD 0 0 < 0x80

/-- How many bytes the nonce takes in the list. -/
def nonceSize (digits : Bytes) : Nat := if isBare digits then 1 else 1 + digits.size

/-- The nonce as it stands in the list. -/
def nonceItem (digits : Bytes) : Bytes :=
  if isBare digits then digits else #[0x80 + UInt8.ofNat digits.size] ++ digits

/-- The encoded list of sender and nonce.  At most 30 bytes follow the first one, so that the
    headers of the list and of the sender are single bytes. -/
def createPreimage (sender : Address) (nonce : Nat) : Bytes :=
  let digits := nonceDigits nonce
  #[0xc0 + UInt8.ofNat (21 + nonceSize digits), 0x80 + 20] ++ sender.toBytes ++ nonceItem digits

/-- Where a contract goes that `sender` creates at this nonce. -/
def ofCreate (sender : Address) (nonce : Nat) : Address :=
  (keccak256 (createPreimage sender nonce)).toAddress

/-- The byte `0xff`, the sender, the salt and the digest of the init code. -/
def create2Preimage (sender : Address) (salt codeHash : Word) : Bytes :=
  #[0xff] ++ sender.toBytes ++ salt.toBytes ++ codeHash.toBytes

/-- Where a contract goes that `sender` creates with a salt. -/
def ofCreate2 (sender : Address) (salt : Word) (initCode : Bytes) : Address :=
  (keccak256 (create2Preimage sender salt (keccak256 initCode))).toAddress

/-- The account that a public key controls. -/
def ofPublicKey (key : Bytes) : Address := (keccak256 key).toAddress

end Evm.Address
