import Evm.Word.Basic

namespace Evm

/-!
# Block and transaction

What code can read that is not world state.

* `Block` — the block being executed; `Block.ancestorHash` finds the hash of an earlier one.
* `Transaction` — what all frames of a transaction share.
* `Environment` — both.
-/

/-- The block being executed. -/
structure Block where
  number : Nat := 0
  /-- Seconds of Unix time. -/
  timestamp : Nat := 0
  /-- The account that proposed the block. -/
  coinbase : Address := 0
  /-- The difficulty; from Paris on a random word. -/
  difficulty : Word := 0
  gasLimit : Nat := 30000000
  baseFee : Word := 0
  chainId : Nat := 1
  /-- Hashes of the blocks before, oldest first, down to the block just before. -/
  recentHashes : Array Word := #[]
  deriving DecidableEq

/-- How far back hashes can be asked for. -/
abbrev Block.hashWindow : Nat := 256

/-- The hash of block `n` if it is one of the last 256 and known; zero otherwise. -/
def Block.ancestorHash (b : Block) (n : Nat) : Word :=
  let distance := b.number - n
  if n < b.number ∧ distance ≤ hashWindow ∧ distance ≤ b.recentHashes.size then
    b.recentHashes.getD (b.recentHashes.size - distance) 0
  else 0

/-- What all frames of a transaction share. -/
structure Transaction where
  /-- The account that signed. -/
  origin : Address := 0
  gasPrice : Word := 0
  deriving DecidableEq

/-- Everything code can read that is not world state. -/
structure Environment where
  block : Block := {}
  tx : Transaction := {}
  deriving DecidableEq

end Evm
