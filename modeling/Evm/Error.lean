import Evm.Hex

namespace Evm

/-!
# Errors

What can end a frame, and what a ledger or a precompiled contract can refuse.

* `StateError`, `PrecompileError`, `VmError` — the causes, each with its `message`.
* `VmError.isRevert` — the one failure that is a decision of the code itself.
* `VmError.consumesAllGas` — whether a frame that ends this way keeps its unused gas.
-/

/-- What a ledger refuses. -/
inductive StateError where
  /-- A balance is below the amount to be taken from it. -/
  | insufficientBalance (address : Address) (required available : Word)
  /-- A balance would leave the range of words. -/
  | balanceOverflow (address : Address)
  /-- A nonce would leave the range of counters. -/
  | nonceOverflow (address : Address)
  /-- The token names no open snapshot. -/
  | unknownSnapshot (token : Nat)
  deriving DecidableEq, Repr

/-- Why a precompiled contract failed. -/
inductive PrecompileError where
  /-- The gas does not cover the price. -/
  | outOfGas
  /-- The input cannot be processed. -/
  | invalidInput (reason : String)
  deriving DecidableEq, Repr

/-- Why a frame failed. -/
inductive VmError where
  /-- Too few items on the stack. -/
  | stackUnderflow
  /-- A push onto a full stack. -/
  | stackOverflow
  /-- The gas does not cover the price. -/
  | outOfGas
  /-- A jump that does not reach a jump destination. -/
  | invalidJumpDestination (target : Nat)
  /-- The byte is no instruction on this fork, or the designated invalid one. -/
  | invalidInstruction (opcode : UInt8)
  /-- A state change in a static frame. -/
  | staticStateChange
  /-- A range that ends past the bytes it is taken from. -/
  | outOfBounds (offset size : Nat)
  /-- The message is nested too deeply. -/
  | callDepthExceeded (depth max : Nat)
  /-- The sender of a creation has no nonce left. -/
  | nonceOverflow (address : Address)
  /-- The target of a creation is in use. -/
  | addressCollision (address : Address)
  /-- The precompiled contract failed. -/
  | precompileFailure (cause : PrecompileError)
  /-- The code asked for a rollback. -/
  | revert
  /-- The code to be deployed is too long. -/
  | codeSizeExceeded (size max : Nat)
  /-- The init code is too long. -/
  | initCodeSizeExceeded (size max : Nat)
  /-- The code to be deployed starts with a reserved byte. -/
  | reservedCode
  /-- The sender does not hold the value. -/
  | insufficientBalance (required available : Word)
  /-- The ledger refused. -/
  | state (cause : StateError)
  deriving DecidableEq, Repr

/-! ### Texts -/

/-- The text of a refusal. -/
def StateError.message : StateError → String
  | .insufficientBalance a required available =>
    "insufficient balance for " ++ a.hex ++ ": required " ++ required.decimal ++ ", available "
      ++ available.decimal
  | .balanceOverflow a => "balance overflow for " ++ a.hex
  | .nonceOverflow a => "nonce overflow for " ++ a.hex
  | .unknownSnapshot token => "unknown snapshot: " ++ toString token

/-- The text of a failed precompiled contract. -/
def PrecompileError.message : PrecompileError → String
  | .outOfGas => "precompile out of gas"
  | .invalidInput reason => "invalid input: " ++ reason

namespace VmError

/-- The text of a failed frame. -/
def message : VmError → String
  | stackUnderflow => "stack underflow"
  | stackOverflow => "stack overflow"
  | outOfGas => "out of gas"
  | invalidJumpDestination target => "invalid jump destination: " ++ toString target
  | invalidInstruction opcode => "invalid instruction: " ++ Hex.opcode opcode
  | staticStateChange => "state change in static context"
  | outOfBounds offset size =>
    "out of bounds memory access: offset " ++ toString offset ++ ", size " ++ toString size
  | callDepthExceeded depth max =>
    "call depth exceeded: " ++ toString depth ++ " > " ++ toString max
  | nonceOverflow a => "nonce overflow for " ++ a.hex
  | addressCollision a => "address collision at " ++ a.hex
  | precompileFailure cause => "precompile failure: " ++ cause.message
  | revert => "execution reverted"
  | codeSizeExceeded size max =>
    "code size exceeded: " ++ toString size ++ " > " ++ toString max ++ " bytes"
  | initCodeSizeExceeded size max =>
    "init code size exceeded: " ++ toString size ++ " > " ++ toString max ++ " bytes"
  | reservedCode => "code starts with 0xEF byte"
  | insufficientBalance required available =>
    "insufficient balance: required " ++ required.decimal ++ ", available " ++ available.decimal
  | state cause => "state error: " ++ cause.message

/-! ### Kinds -/

/-- The code asked for a rollback and keeps its unused gas. -/
def isRevert : VmError → Bool
  | revert => true
  | _ => false

/-- A frame that ends this way has used its whole limit.  The exceptions are a rollback that the
    code asked for, and failures before any code has run. -/
def consumesAllGas : VmError → Bool
  | revert | nonceOverflow _ | insufficientBalance _ _ | callDepthExceeded _ _ => false
  | _ => true

end VmError

end Evm
