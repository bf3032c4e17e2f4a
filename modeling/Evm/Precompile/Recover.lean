import Evm.ContractAddress
import Evm.Curve.Secp256k1
import Evm.Precompile.Basic

namespace Evm.Precompile

/-!
# Recovery of a signer

The contract at address 1 tells which account signed a digest.  Its input is four words: the
digest, the number 27 or 28, and the two numbers of the signature.  It leaves the arithmetic of the
curve to a library.

* `Signature` — the two numbers; `Signature.ofBytes?` reads them, `Signature.reflect` negates the
  second one, and `Signature.publicKey?` is the key that a signature was made with.
* `SignatureLibrary` — what the contract uses; `SignatureLibrary.secp256k1` for this curve.
* `SignatureLibrary.signer` — the account that signed.
* `recoverWith`, `recover` — the contract, with any library and with that one.
-/

/-- The two numbers of a signature. -/
structure Signature where
  r : Nat
  s : Nat
  deriving DecidableEq

namespace Signature

/-- A number of a signature lies strictly between zero and the order of the group. -/
def inRange (n : Nat) : Bool := 0 < n && n < Secp256k1.order

/-- The signature in 64 bytes. -/
def ofBytes? (b : Bytes) : Option Signature :=
  let r := Bytes.toNat (b.extract 0 32)
  let s := Bytes.toNat (b.extract 32 64)
  if inRange r && inRange s then some { r, s } else none

/-- The second number lies in the upper half of its range. -/
def isHigh (sig : Signature) : Bool := Secp256k1.order < 2 * sig.s

/-- The signature with its second number negated, which belongs to the reflected nonce point. -/
def reflect (sig : Signature) : Signature := { sig with s := Secp256k1.order - sig.s }

/-- The reflected signature, if its second number is the smaller one. -/
def lower? (sig : Signature) : Option Signature := if sig.isHigh then some sig.reflect else none

/-- The coordinates of the public key under which a signature signs a digest. -/
def publicKey? (digest : Bytes) (sig : Signature) (odd : Bool) : Option Bytes := do
  let (x, y) ← Secp256k1.recover digest.toNat sig.r sig.s odd
  some (Bytes.ofNat 32 x ++ Bytes.ofNat 32 y)

end Signature

/-- The parity that the second word stands for. -/
def parity? (v : Word) : Option Bool :=
  if v = 27 then some false else if v = 28 then some true else none

/-- What the contract uses of a library for signatures. -/
structure SignatureLibrary where
  /-- The signature in 64 bytes, if they hold one. -/
  read : Bytes → Option Signature
  /-- The signature with its second number negated, if that makes it smaller. -/
  normalize : Signature → Option Signature
  /-- The 64 bytes of the public key that belongs to a digest, a signature and the parity of its
      nonce point. -/
  recoverKey : Bytes → Signature → Bool → Option Bytes

namespace SignatureLibrary

/-- The library for the curve secp256k1. -/
def secp256k1 : SignatureLibrary where
  read := Signature.ofBytes?
  normalize := Signature.lower?
  recoverKey := Signature.publicKey?

/-- The signature that the library is asked about.  The parity changes with the second number. -/
def normalized (lib : SignatureLibrary) (sig : Signature) (odd : Bool) : Signature × Bool :=
  match lib.normalize sig with
  | some low => (low, !odd)
  | none => (sig, odd)

/-- The account that signed. -/
def signer (lib : SignatureLibrary) (input : Bytes) : Option Address := do
  let odd ← parity? (.ofBytes (input.window 32 32))
  let sig ← lib.read (input.window 64 64)
  let (sig, odd) := lib.normalized sig odd
  let key ← lib.recoverKey (input.window 0 32) sig odd
  some (Address.ofPublicKey key)

/-- The signer as a word, or nothing.  Missing input counts as zero, and input past four words
    is not looked at. -/
def recoverOutput (lib : SignatureLibrary) (input : Bytes) : Bytes :=
  match lib.signer input with
  | some a => a.toWord.toBytes
  | none => #[]

end SignatureLibrary

/-- Recovery of a signer with a library, for a fixed price. -/
def recoverWith (lib : SignatureLibrary) : Precompile :=
  .ofFunction 1 (fun _ => 3000) lib.recoverOutput

/-- Recovery of a signer. -/
def recover : Precompile := recoverWith .secp256k1

end Evm.Precompile
