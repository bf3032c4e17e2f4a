import Evm.Code
import Evm.Gas.Meter
import Evm.Memory
import Evm.Message
import Evm.Stack

namespace Evm

/-!
# Frames

A frame is one activation of a call or a creation.

* `Phase` — where a frame is in its life.
* `Continuation` — what its parent does with its result.
* `Frame` — message, stack, memory, gas, program and effects.
-/

/-- Where a frame is in its life: it is created, prepared, running, perhaps suspended and resuming
    for each child, then finalizing and done. -/
inductive Phase where
  /-- Nothing is done yet. -/
  | created
  /-- The snapshot is taken, the value moved, the code loaded. -/
  | prepared
  /-- Instructions run. -/
  | running
  /-- A child runs. -/
  | suspended
  /-- The child is done and its result taken in. -/
  | resuming
  /-- The frame has ended; its changes are to be kept or undone. -/
  | finalizing
  /-- The result is known. -/
  | done
  deriving DecidableEq, Repr

/-- What a parent does with the result of a child. -/
inductive Continuation where
  /-- Copies output to a reserved range of memory and pushes one or zero. -/
  | call (retOffset retLen : Nat)
  /-- Pushes the new address or zero. -/
  | create
  deriving DecidableEq, Repr

/-- One activation of a call or a creation. -/
structure Frame where
  message : Message
  stack : Stack
  memory : Memory := {}
  gas : Meter
  program : Program := default
  /-- Data given back by RETURN or REVERT. -/
  output : Bytes := #[]
  /-- The output of the last child. -/
  returnData : Bytes := #[]
  /-- Records of this frame and of its successful children. -/
  logs : Array Log := #[]
  /-- Accounts that are to be destroyed, each once. -/
  selfDestructs : Array Address := #[]
  phase : Phase := .created
  /-- The ledger snapshot to be kept or undone. -/
  snapshot : Option Nat := none
  /-- Set while a child runs. -/
  continuation : Option Continuation := none
  /-- Why the frame ended, if it failed. -/
  error : Option VmError := none

namespace Frame

/-- A new frame.  A child starts from the refund counter of its parent. -/
def ofMessage (message : Message) (refund stackLimit : Nat) : Frame where
  message := message
  stack := { limit := stackLimit }
  gas := .full message.gasLimit refund

/-- The account that the frame acts on. -/
def address (f : Frame) : Address := f.message.recipient

/-- The nesting depth. -/
def depth (f : Frame) : Nat := f.message.depth

/-- State changes are forbidden. -/
def isStatic (f : Frame) : Bool := f.message.isStatic

/-- Puts the program at the start of some code. -/
def loadCode (f : Frame) (code : Bytes) : Frame := { f with program := .ofBytes code }

/-- The account is to be destroyed. -/
def hasSelfDestructed (f : Frame) (a : Address) : Bool := f.selfDestructs.contains a

/-- Notes, once, that an account is to be destroyed. -/
def registerSelfDestruct (f : Frame) (a : Address) : Frame :=
  if f.hasSelfDestructed a then f else { f with selfDestructs := f.selfDestructs.push a }

/-- The account is registered, and what was registered before it. -/
theorem hasSelfDestructed_registerSelfDestruct (f : Frame) (a b : Address) :
    (f.registerSelfDestruct a).hasSelfDestructed b = (b = a || f.hasSelfDestructed b) := by
  unfold registerSelfDestruct hasSelfDestructed
  grind

/-- Ends the frame. -/
def finish (f : Frame) (error : Option VmError) : Frame := { f with error, phase := .finalizing }

/-- Takes over the effects of a successful child. -/
def absorb (f : Frame) (logs : Array Log) (selfDestructs : Array Address) : Frame :=
  selfDestructs.foldl registerSelfDestruct { f with logs := f.logs ++ logs }

end Frame

end Evm
