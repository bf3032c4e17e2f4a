import Evm.Hash.Sha256
import Evm.Precompile.Recover

namespace Evm

/-!
# The standard contracts

* `Precompile.sha256` — the SHA-256 hash of the input, at address 2.
* `Precompile.identity` — the input itself, at address 4.
* `PrecompileSet.standard` — both and the recovery of a signer, on every fork.
-/

/-- The SHA-256 hash of the input. -/
def Precompile.sha256 : Precompile := .ofFunction 2 (linearCost 60 12) Sha256.digest

/-- The input itself. -/
def Precompile.identity : Precompile := .ofFunction 4 (linearCost 15 3) id

/-- The three contracts that are there from the first fork on. -/
def PrecompileSet.standard : PrecompileSet := .ofList [.recover, .sha256, .identity]

end Evm
