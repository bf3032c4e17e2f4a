import Evm.Instruction.Data
import Evm.Instruction.Spawn
import Evm.Instruction.State
import Evm.Word.Arithmetic

namespace Evm.Effect

/-!
# Running an instruction

* `Effect.ofInstruction` — what each instruction does once its fixed price is paid.
-/

variable {L : Type}

/-! ### Small effects -/

/-- Replaces a word by a function of it. -/
def unary (f : Word → Word) : Effect L Unit := do push (f (← pop))

/-- Replaces two words by a function of them. -/
def binary (f : Word → Word → Word) : Effect L Unit := do
  let (a, b) ← pop2
  push (f a b)

/-- Replaces three words by a function of them. -/
def ternary (f : Word → Word → Word → Word) : Effect L Unit := do
  let (a, b, c) ← pop3
  push (f a b c)

/-- A power, paid for by the length of the exponent. -/
def exp (c : Context) : Effect L Unit := do
  let (base, exponent) ← pop2
  charge (Gas.expBytes c.fork exponent)
  push (Word.exp base exponent)

/-- The hash of an earlier block. -/
def blockHash (c : Context) : Effect L Unit := do
  let number ← pop
  push (if number.toNat ≤ Counter.limit then c.env.block.ancestorHash number.toNat else 0)

/-- Goes to a jump target.  A target that is no position at all counts as the last one. -/
def jumpTo (target : Word) : Effect L Flow := do
  match (← frame).program.jump (min target.toNat Counter.limit) with
  | .ok program =>
    modifyFrame ({ · with program })
    return .jumped
  | .error e => throw e

/-- A jump on condition. -/
def jumpIf : Effect L Flow := do
  let (target, condition) ← pop2
  if condition = 0 then return .next else jumpTo target

/-- The `n` bytes of code after the instruction. -/
def pushImmediate (n : Nat) : Effect L Unit := do
  push (Word.ofBytes ((← frame).program.immediate n))

/-- Ends the frame with a range of memory as its output. -/
def ret : Effect L Flow := do
  setOutput
  return .halt

/-- Asks for a rollback, with a range of memory as output. -/
def revert : Effect L Flow := do
  setOutput
  throw .revert

/-! ### The instruction set -/

variable [Ledger L]

/-- What an instruction does.  The ancestors are the frames below the running one, nearest
    first. -/
def ofInstruction (c : Context) (ancestors : List Frame) (i : Instruction) : Effect L Flow :=
  let next (e : Effect L Unit) : Effect L Flow := do e; return .next
  match i with
  | .stop => return .halt
  -- arithmetic
  | .add => next (binary (· + ·))
  | .mul => next (binary (· * ·))
  | .sub => next (binary (· - ·))
  | .div => next (binary (· / ·))
  | .sdiv => next (binary Word.sdiv)
  | .mod => next (binary fun a b => if b = 0 then 0 else a % b)
  | .smod => next (binary Word.smod)
  | .addMod => next (ternary Word.addMod)
  | .mulMod => next (ternary Word.mulMod)
  | .exp => next (exp c)
  | .signExtend => next (binary Word.signExtend)
  -- comparison and bits
  | .lt => next (binary fun a b => .ofBool (a < b))
  | .gt => next (binary fun a b => .ofBool (b < a))
  | .slt => next (binary fun a b => .ofBool (Word.slt a b))
  | .sgt => next (binary fun a b => .ofBool (Word.slt b a))
  | .eq => next (binary fun a b => .ofBool (a = b))
  | .isZero => next (unary fun a => .ofBool (a = 0))
  | .and => next (binary (· &&& ·))
  | .or => next (binary (· ||| ·))
  | .xor => next (binary (· ^^^ ·))
  | .not => next (unary (~~~ ·))
  | .byte => next (binary Word.byteAt)
  | .shl => next (binary Word.shiftLeft)
  | .shr => next (binary Word.shiftRight)
  | .sar => next (binary Word.shiftRightSigned)
  | .keccak256 => next keccak256
  -- the frame and the transaction
  | .address => next do pushAddress (← frame).address
  | .balance => next (balance c)
  | .origin => next (pushAddress c.env.tx.origin)
  | .caller => next do pushAddress (← frame).message.sender
  | .callValue => next do push (← frame).message.value
  | .callDataLoad => next callDataLoad
  | .callDataSize => next do pushNat (← frame).message.input.size
  | .callDataCopy => next do copyToMemory (← frame).message.input
  | .codeSize => next do pushNat (← frame).program.code.bytes.size
  | .codeCopy => next do copyToMemory (← frame).program.code.bytes
  | .gasPrice => next (push c.env.tx.gasPrice)
  | .extCodeSize => next (extCodeSize c)
  | .extCodeCopy => next do
    let a ← popAccessed c
    copyToMemory (Ledger.code (← ledger) a)
  | .returnDataSize => next do pushNat (← frame).returnData.size
  | .returnDataCopy => next returnDataCopy
  | .extCodeHash => next (extCodeHash c)
  -- the block
  | .blockHash => next (blockHash c)
  | .coinbase => next (pushAddress c.env.block.coinbase)
  | .timestamp => next (pushNat c.env.block.timestamp)
  | .number => next (pushNat c.env.block.number)
  | .prevRandao => next (push c.env.block.difficulty)
  | .gasLimit => next (pushNat c.env.block.gasLimit)
  | .chainId => next (pushNat c.env.block.chainId)
  | .selfBalance => next selfBalance
  | .baseFee => next (push c.env.block.baseFee)
  -- stack, memory and storage
  | .pop => next do let _ ← pop
  | .mload => next mload
  | .mstore => next mstore
  | .mstore8 => next mstore8
  | .sload => next (sload c)
  | .sstore => next (sstore c)
  | .pc => next do pushNat (← frame).program.pc
  | .msize => next do pushNat (← frame).memory.size
  | .gas => next do pushNat (← frame).gas.remaining
  | .push n => next (pushImmediate n)
  | .dup n => next (updateStack (·.dup n))
  | .swap n => next (updateStack (·.swap n))
  | .log n => next (log n)
  -- control
  | .jump => do jumpTo (← pop)
  | .jumpi => jumpIf
  | .jumpDest => return .next
  | .create => create c false
  | .create2 => create c true
  | .call => call c .call
  | .callCode => call c .callCode
  | .delegateCall => call c .delegateCall
  | .staticCall => call c .staticCall
  | .ret => ret
  | .revert => revert
  | .invalid => throw (.invalidInstruction 0xfe)
  | .selfDestruct => do
    selfDestruct c ancestors
    return .halt

end Evm.Effect
