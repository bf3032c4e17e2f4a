import Evm.Instruction
import Evm.Error

namespace Evm

/-!
# Traces

What an observer sees of an execution.  It answers each start of an instruction with a number of its
own, which is handed back to it at the end of the instruction.  Nothing else depends on a trace.

* `Event` — something that happens to a frame or to an instruction.
* `Observer` — the events that are asked for, and the answers.
* `Trace` — the events so far, as far as they are asked for, and the count of instructions.
* `Trace.startInstruction` — shows the start of an instruction, and tells the answer.
-/

/-- Which events are kept. -/
inductive TraceLevel where
  | off
  /-- Events of frames, and failures of instructions. -/
  | frames
  /-- All events. -/
  | instructions
  deriving DecidableEq, Repr

/-- Something that an observer sees. -/
inductive Event where
  /-- A frame is about to be prepared. -/
  | framePrepare (depth : Nat)
  /-- A frame is prepared, or has failed to be. -/
  | frameStart (sender recipient : Address) (isCreate : Bool) (input : Bytes) (gasLimit : Nat)
      (value : Word)
  /-- An instruction is about to run.  The index is what the observer answers. -/
  | opcodeStart (pc : Nat) (instruction : Instruction) (gas depth index : Nat)
  /-- The fixed price of that instruction. -/
  | gasCost (instruction : Instruction) (cost gasRemaining depth : Nat)
  /-- The instruction is done; asking for a rollback counts as done.  The index is the answer to its
      start. -/
  | opcodeEnd (pc : Nat) (instruction : Instruction) (gas refund : Nat) (returnData : Bytes)
      (depth index : Nat)
  /-- The instruction failed. -/
  | fault (pc : Nat) (instruction : Instruction) (gas refund : Nat) (returnData : Bytes)
      (depth : Nat) (error : VmError)
  /-- A frame is done. -/
  | frameEnd (output : Bytes) (gasUsed : Nat) (error : Option VmError)
  deriving DecidableEq

namespace Event

/-- The event is kept on a level. -/
def isKept : TraceLevel → Event → Bool
  | .off, _ => false
  | .instructions, _ => true
  | .frames, opcodeStart .. | .frames, gasCost .. | .frames, opcodeEnd .. => false
  | .frames, _ => true

end Event

/-- Who looks at an execution.  Its answers may be any numbers: what it answers to the `n`th start
    of an instruction stands at place `n`, counted from one. -/
structure Observer where
  level : TraceLevel := .off
  answers : Nat → Nat := id

/-- An observer that counts the instructions. -/
instance : Coe TraceLevel Observer := ⟨fun level => { level }⟩

/-- An observer that looks at nothing. -/
def Observer.off : Observer := {}

/-- An observer that looks at everything. -/
def Observer.instructions (answers : Nat → Nat := id) : Observer := { level := .instructions, answers }

/-- What an observer has seen. -/
structure Trace extends Observer where
  /-- How many instructions have started. -/
  opcodes : Nat := 0
  events : Array Event := #[]

namespace Trace

/-- Shows an event to the observer. -/
def add (t : Trace) (e : Event) : Trace :=
  if e.isKept t.level then { t with events := t.events.push e } else t

/-- Counts an instruction and shows its start and its fixed price.  The answer to the start comes
    with the new trace. -/
def startInstruction (t : Trace) (pc : Nat) (i : Instruction) (cost gas depth : Nat) :
    Nat × Trace :=
  let opcodes := t.opcodes + 1
  let index := t.answers opcodes
  (index, (({ t with opcodes } : Trace).add (.opcodeStart pc i gas depth index)).add
    (.gasCost i cost gas depth))

end Trace

end Evm
