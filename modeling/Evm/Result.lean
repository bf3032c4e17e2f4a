import Evm.Config
import Evm.Error
import Evm.Message

namespace Evm

/-!
# Results

What a message comes to, and what must hold of it.

* `ExecutionResult` — status, gas, output and effects; built by `success`, `reverted` and
  `failure`.
* `Violation` — a rule that a result breaks, with its `message`.
* `ExecutionResult.violations` — all rules that a result breaks; none exactly if all checks pass
  (`ExecutionResult.violations_eq_nil_iff`).
-/

/-- How a frame ended. -/
inductive Status where
  | success
  /-- Rolled back at the request of the code; unused gas is kept. -/
  | reverted
  /-- Failed. -/
  | failed
  deriving DecidableEq, Repr

/-- What a message comes to. -/
structure ExecutionResult where
  status : Status
  gasUsed : Nat
  /-- The refund counter; for the first message of a transaction, the refund granted. -/
  gasRefund : Nat := 0
  /-- Returned data; empty for a creation that succeeds. -/
  output : Bytes := #[]
  logs : Array Log := #[]
  /-- Accounts that destroyed themselves, each once. -/
  selfDestructs : Array Address := #[]
  error : Option VmError := none
  createdAddress : Option Address := none
  deriving DecidableEq

namespace ExecutionResult

/-- Success without effects. -/
def success (output : Bytes) (gasUsed : Nat) : ExecutionResult :=
  { status := .success, gasUsed, output }

/-- A rollback with the data that the code returned. -/
def reverted (output : Bytes) (gasUsed : Nat) : ExecutionResult :=
  { status := .reverted, gasUsed, output, error := some .revert }

/-- A failure. -/
def failure (error : VmError) (gasUsed : Nat) : ExecutionResult :=
  { status := .failed, gasUsed, error := some error }

/-- The message succeeded. -/
def isSuccess (r : ExecutionResult) : Bool := r.status = .success

/-! ### Rules -/

/-- No more gas is used than there was. -/
def withinGasLimit (r : ExecutionResult) (gasLimit : Nat) : Bool := r.gasUsed ≤ gasLimit

/-- Success goes without an error; anything else with one, and without effects. -/
def effectsOnlyOnSuccess (r : ExecutionResult) : Bool :=
  if r.status = .success then r.error.isNone
  else r.error.isSome && r.logs.isEmpty && r.selfDestructs.isEmpty && r.createdAddress.isNone

/-- A failure uses all gas. -/
def failureUsesAllGas (r : ExecutionResult) (gasLimit : Nat) : Bool :=
  r.status ≠ .failed || r.gasUsed = gasLimit

/-- The refund is within the bound of the fork. -/
def refundWithinCap (r : ExecutionResult) (fork : Fork) : Bool :=
  r.gasRefund ≤ r.gasUsed / fork.refundQuotient

/-- The depth is within the limit. -/
def depthWithinLimit (depth : Nat) (config : Config) : Bool := depth ≤ config.maxCallDepth

end ExecutionResult

/-- A rule that a result breaks. -/
inductive Violation where
  | gasLimitExceeded (used limit : Nat)
  | effectsOnFailure (logs selfDestructs : Nat)
  | gasNotConsumed (used limit : Nat)
  | refundOverCap (refund used : Nat)
  | callDepthExceeded (depth max : Nat)
  deriving DecidableEq, Repr

/-- The text of a broken rule. -/
def Violation.message : Violation → String
  | .gasLimitExceeded used limit =>
    "gas limit exceeded: used " ++ toString used ++ " > limit " ++ toString limit
  | .effectsOnFailure logs selfDestructs =>
    "failed frame kept effects: " ++ toString logs ++ " logs, " ++ toString selfDestructs
      ++ " self-destructs"
  | .gasNotConsumed used limit =>
    "failed frame used " ++ toString used ++ " of " ++ toString limit ++ " gas"
  | .refundOverCap refund used =>
    "refund " ++ toString refund ++ " over cap for " ++ toString used ++ " gas used"
  | .callDepthExceeded depth max =>
    "call depth exceeded: " ++ toString depth ++ " > " ++ toString max

/-- The rules that a result breaks, given what the message was allowed.  A failure need not use
    all gas if its cause keeps unused gas. -/
def ExecutionResult.violations (r : ExecutionResult) (gasLimit depth : Nat) (config : Config) :
    List Violation :=
  (if r.withinGasLimit gasLimit then [] else [.gasLimitExceeded r.gasUsed gasLimit])
  ++ (if r.effectsOnlyOnSuccess then []
      else [.effectsOnFailure r.logs.size r.selfDestructs.size])
  ++ (if r.error.any VmError.consumesAllGas && !r.failureUsesAllGas gasLimit then
        [.gasNotConsumed r.gasUsed gasLimit] else [])
  ++ (if r.refundWithinCap config.fork then [] else [.refundOverCap r.gasRefund r.gasUsed])
  ++ (if depthWithinLimit depth config then []
      else [.callDepthExceeded depth config.maxCallDepth])

/-- A result breaks no rule exactly if all checks pass. -/
theorem ExecutionResult.violations_eq_nil_iff (r : ExecutionResult) (gasLimit depth : Nat)
    (config : Config) : r.violations gasLimit depth config = [] ↔
      r.withinGasLimit gasLimit ∧ r.effectsOnlyOnSuccess
        ∧ (r.error.any VmError.consumesAllGas → r.failureUsesAllGas gasLimit)
        ∧ r.refundWithinCap config.fork ∧ depthWithinLimit depth config := by
  simp only [violations, List.append_eq_nil_iff]
  grind

end Evm
