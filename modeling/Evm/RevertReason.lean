import Evm.Result

namespace Evm

/-!
# Revert reasons

Code that rolls back can give its reason: the data of a call to `Error(string)`, that is a
selector of four bytes, a word that is not looked at, a word with the length of a text, and the
text in UTF-8.

* `RevertReason.Fault`, `slice`, `sum` — accesses that must not leave the data or 64 bits.
* `RevertReason.decode` — the text in such data.
* `ExecutionResult.revertReason` — the text in the output of a rollback.
-/

namespace RevertReason

/-- The first four bytes of the data. -/
def selector : Bytes := #[0x08, 0xc3, 0x79, 0xa0]

/-- What no data may bring about. -/
inductive Fault where
  /-- A range that does not lie in the data. -/
  | range (first last size : Nat)
  /-- A sum that is no 64-bit number. -/
  | overflow (a b : Nat)
  deriving DecidableEq, Repr

/-- The bytes from `first` up to `last`, which must be there. -/
def slice (data : Bytes) (first last : Nat) : Except Fault Bytes :=
  if first ≤ last ∧ last ≤ data.size then .ok (data.extract first last)
  else .error (.range first last data.size)

/-- The bytes from `first` up to `last`, if they are there. -/
def slice? (data : Bytes) (first last : Nat) : Option Bytes :=
  if first ≤ last ∧ last ≤ data.size then some (data.extract first last) else none

/-- A sum that must be a 64-bit number. -/
def sum (a b : Nat) : Except Fault Nat :=
  if a + b ≤ Counter.limit then .ok (a + b) else .error (.overflow a b)

/-- The text of `length` bytes from `start` on, if the data has room for all of it and it is
    valid. -/
def textAt (data : Bytes) (start : Nat) (length : Word) : Option String := do
  let len ← Counter.checked length.toNat
  let last ← Counter.checked (start + len)
  let text ← slice? data start last
  String.fromUTF8? ⟨text⟩

/-- The text in the data, which need not have one. -/
def decode (data : Bytes) : Except Fault (Option String) := do
  if data.size < 68 then return none
  if (← slice data 0 4) ≠ selector then return none
  let lengthStart ← sum 4 32
  let textStart ← sum lengthStart 32
  let length := Word.ofBytes (← slice data lengthStart textStart)
  return textAt data textStart length

end RevertReason

/-- The reason that a rolled back message gives. -/
def ExecutionResult.revertReason (r : ExecutionResult) : Option String :=
  if r.status = .reverted then (RevertReason.decode r.output).toOption.join else none

end Evm
