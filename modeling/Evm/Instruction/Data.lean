import Evm.Instruction.Effect

namespace Evm.Effect

/-!
# Moving data

Instructions that copy bytes into memory, hash memory, or hand memory out of the frame.

* `copyToMemory` — copies from any byte string; what lies past its end is zero.
* `returnDataCopy` — copies from the output of the last child and may not go past its end.
* `keccak256`, `log`, `setOutput` — hash, record or give back a range of memory.
-/

variable {L : Type}

/-- Copies `size` bytes of `source` from `src` to `dest`. -/
def copyRange (source : Bytes) (dest src size : Word) : Effect L Unit := do
  let dest := dest.clampOffset
  let size := size.clampOffset
  extendMemory dest size
  charge (Gas.copy size)
  writeMemory dest (source.window src.toNat size)

/-- Copies from a byte string, with the three operands on the stack. -/
def copyToMemory (source : Bytes) : Effect L Unit := do
  let (dest, src, size) ← pop3
  copyRange source dest src size

/-- Copies from the output of the last child; a range that ends past it is an error. -/
def returnDataCopy : Effect L Unit := do
  let (dest, src, size) ← pop3
  let source := (← frame).returnData
  if src.toNat + size.toNat ≤ source.size then copyRange source dest src size
  else throw (.outOfBounds src.clampOffset size.clampOffset)

/-- The word of call data at an offset. -/
def callDataLoad : Effect L Unit := do
  let offset ← pop
  push (Word.ofBytes ((← frame).message.input.window offset.toNat 32))

/-- Hashes a range of memory. -/
def keccak256 : Effect L Unit := do
  let (offset, size) ← pop2
  let offset := offset.clampOffset
  let size := size.clampOffset
  extendMemory offset size
  charge (Gas.keccakWords size)
  push (Evm.keccak256 (← readMemory offset size))

/-- Takes the topics of a record, one by one. -/
def popTopics : Nat → Effect L (List Word)
  | 0 => return []
  | n + 1 => do
    let topic ← pop
    return topic :: (← popTopics n)

/-- Leaves a record of a range of memory. -/
def log (topicCount : Nat) : Effect L Unit := do
  requireNonStatic
  let (offset, size) ← pop2
  let topics ← popTopics topicCount
  let offset := offset.clampOffset
  let size := size.clampOffset
  extendMemory offset size
  charge (Gas.log size topicCount)
  let data ← readMemory offset size
  modifyFrame fun f => { f with logs := f.logs.push { address := f.address, topics, data } }

/-- Gives back a range of memory. -/
def setOutput : Effect L Unit := do
  let (offset, size) ← pop2
  let offset := offset.clampOffset
  let size := size.clampOffset
  extendMemory offset size
  let output ← readMemory offset size
  modifyFrame ({ · with output })

/-- Reads a word of memory. -/
def mload : Effect L Unit := do
  let offset := (← pop).clampOffset
  extendMemory offset 32
  push ((← frame).memory.readWord offset)

/-- Writes a word of memory. -/
def mstore : Effect L Unit := do
  let (offset, value) ← pop2
  let offset := offset.clampOffset
  extendMemory offset 32
  writeMemory offset value.toBytes

/-- Writes a byte of memory. -/
def mstore8 : Effect L Unit := do
  let (offset, value) ← pop2
  let offset := offset.clampOffset
  extendMemory offset 1
  writeMemory offset #[value.lowByte]

end Evm.Effect
