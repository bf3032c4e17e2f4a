import Evm.Counter
import Evm.Error
import Evm.Fork

namespace Evm

/-!
# Precompiled contracts

Contracts at fixed addresses that are part of the protocol and have no code.

* `Precompile` — what such a contract does with input and gas.
* `PrecompileSet` — which contracts there are, fork by fork.
* `Precompile.linearCost` — a price by the word.
-/

/-- What a precompiled contract delivers. -/
structure PrecompileOutput where
  gasUsed : Nat
  output : Bytes
  deriving DecidableEq

/-- A precompiled contract. -/
structure Precompile where
  address : Address
  /-- The answer to an input under a gas limit. -/
  run : Bytes → Nat → Except PrecompileError PrecompileOutput

/-- A registry of precompiled contracts. -/
structure PrecompileSet where
  /-- The contract at an address. -/
  lookup : Fork → Address → Option Precompile
  /-- The addresses of all contracts. -/
  addresses : Fork → List Address

namespace PrecompileSet

/-- There is a contract at the address. -/
def contains (p : PrecompileSet) (f : Fork) (a : Address) : Bool := (p.lookup f a).isSome

/-- The registry without contracts. -/
def none : PrecompileSet where
  lookup _ _ := .none
  addresses _ := []

/-- The registry of contracts that are there on every fork. -/
def ofList (contracts : List Precompile) : PrecompileSet where
  lookup _ a := contracts.find? (·.address == a)
  addresses _ := contracts.map (·.address)

end PrecompileSet

namespace Precompile

/-- A base price and a price for each word of input. -/
def linearCost (base perWord size : Nat) : Nat :=
  Counter.add base (Counter.mul perWord (wordCount size))

/-- A contract that computes its output from its input at a price that depends on the input's
    length. -/
def ofFunction (address : Address) (cost : Nat → Nat) (f : Bytes → Bytes) : Precompile where
  address := address
  run input gas :=
    if cost input.size ≤ gas then .ok { gasUsed := cost input.size, output := f input }
    else .error .outOfGas

/-- The reserved addresses, numbered from 1 to 9. -/
def reservedAddress (n : Nat) : Option Address :=
  if 1 ≤ n ∧ n ≤ 9 then some (BitVec.ofNat 160 n) else none

end Precompile

end Evm
