import Evm.Gas.Schedule

namespace Evm

/-!
# Instructions

* `Instruction` — what a byte of code can mean.  Families carry their parameter.
* `Instruction.ofByte?`, `Instruction.introduced`, `Instruction.decode` — the meaning of a byte,
  the fork that brought it, and the meaning of a byte on a fork.
* `Instruction.immediateSize`, `pushSize` — how many bytes after the opcode belong to it.
* `Instruction.staticGas` — what is charged before the instruction runs.
* `Instruction.mnemonic` — its name in listings.
-/

/-- An instruction.  `push n` takes `n` bytes of code, `dup n` and `swap n` count from one, and
    `log n` takes `n` topics. -/
inductive Instruction where
  | stop | add | mul | sub | div | sdiv | mod | smod | addMod | mulMod | exp | signExtend
  | lt | gt | slt | sgt | eq | isZero | and | or | xor | not | byte | shl | shr | sar
  | keccak256
  | address | balance | origin | caller | callValue | callDataLoad | callDataSize | callDataCopy
  | codeSize | codeCopy | gasPrice | extCodeSize | extCodeCopy | returnDataSize | returnDataCopy
  | extCodeHash
  | blockHash | coinbase | timestamp | number | prevRandao | gasLimit | chainId | selfBalance
  | baseFee
  | pop | mload | mstore | mstore8 | sload | sstore | jump | jumpi | pc | msize | gas | jumpDest
  | push (n : Nat) | dup (n : Nat) | swap (n : Nat) | log (n : Nat)
  | create | call | callCode | ret | delegateCall | create2 | staticCall | revert | invalid
  | selfDestruct
  deriving DecidableEq, Repr

/-- How many bytes after this byte of code are data and not code: `n` after `0x5f + n`, for `n`
    from 1 to 32. -/
def pushSize (b : UInt8) : Nat :=
  if 0x60 ≤ b ∧ b ≤ 0x7f then b.toNat - 0x5f else 0

namespace Instruction

/-! ### Decoding -/

/-- The instruction that a byte stands for on the latest fork. -/
def ofByte? (b : UInt8) : Option Instruction :=
  match b with
  | 0x00 => some stop
  | 0x01 => some add
  | 0x02 => some mul
  | 0x03 => some sub
  | 0x04 => some div
  | 0x05 => some sdiv
  | 0x06 => some mod
  | 0x07 => some smod
  | 0x08 => some addMod
  | 0x09 => some mulMod
  | 0x0a => some exp
  | 0x0b => some signExtend
  | 0x10 => some lt
  | 0x11 => some gt
  | 0x12 => some slt
  | 0x13 => some sgt
  | 0x14 => some eq
  | 0x15 => some isZero
  | 0x16 => some and
  | 0x17 => some or
  | 0x18 => some xor
  | 0x19 => some not
  | 0x1a => some byte
  | 0x1b => some shl
  | 0x1c => some shr
  | 0x1d => some sar
  | 0x20 => some keccak256
  | 0x30 => some address
  | 0x31 => some balance
  | 0x32 => some origin
  | 0x33 => some caller
  | 0x34 => some callValue
  | 0x35 => some callDataLoad
  | 0x36 => some callDataSize
  | 0x37 => some callDataCopy
  | 0x38 => some codeSize
  | 0x39 => some codeCopy
  | 0x3a => some gasPrice
  | 0x3b => some extCodeSize
  | 0x3c => some extCodeCopy
  | 0x3d => some returnDataSize
  | 0x3e => some returnDataCopy
  | 0x3f => some extCodeHash
  | 0x40 => some blockHash
  | 0x41 => some coinbase
  | 0x42 => some timestamp
  | 0x43 => some number
  | 0x44 => some prevRandao
  | 0x45 => some gasLimit
  | 0x46 => some chainId
  | 0x47 => some selfBalance
  | 0x48 => some baseFee
  | 0x50 => some pop
  | 0x51 => some mload
  | 0x52 => some mstore
  | 0x53 => some mstore8
  | 0x54 => some sload
  | 0x55 => some sstore
  | 0x56 => some jump
  | 0x57 => some jumpi
  | 0x58 => some pc
  | 0x59 => some msize
  | 0x5a => some gas
  | 0x5b => some jumpDest
  | 0xf0 => some create
  | 0xf1 => some call
  | 0xf2 => some callCode
  | 0xf3 => some ret
  | 0xf4 => some delegateCall
  | 0xf5 => some create2
  | 0xfa => some staticCall
  | 0xfd => some revert
  | 0xfe => some invalid
  | 0xff => some selfDestruct
  | b =>
    if 0x5f ≤ b ∧ b ≤ 0x7f then some (push (b.toNat - 0x5f))
    else if 0x80 ≤ b ∧ b ≤ 0x8f then some (dup (b.toNat - 0x7f))
    else if 0x90 ≤ b ∧ b ≤ 0x9f then some (swap (b.toNat - 0x8f))
    else if 0xa0 ≤ b ∧ b ≤ 0xa4 then some (log (b.toNat - 0xa0))
    else none

/-- The fork that brought the instruction. -/
def introduced : Instruction → Fork
  | delegateCall => .homestead
  | returnDataSize | returnDataCopy | staticCall | revert => .byzantium
  | shl | shr | sar | extCodeHash | create2 => .constantinople
  | chainId | selfBalance => .istanbul
  | baseFee => .london
  | push 0 => .shanghai
  | _ => .frontier

/-- The instruction that a byte stands for on a fork, if any. -/
def decode (f : Fork) (b : UInt8) : Option Instruction :=
  (ofByte? b).filter fun i => i.introduced ≤ f

/-- How many bytes after the opcode belong to the instruction. -/
def immediateSize : Instruction → Nat
  | push n => n
  | _ => 0

/-! ### Price -/

/-- What is charged before the instruction runs.  Memory, copies, cold accesses, storage writes
    and the value of calls come on top. -/
def staticGas (f : Fork) : Instruction → Nat
  | stop | ret | revert | invalid | sstore => 0
  | address | origin | caller | callValue | callDataSize | codeSize | gasPrice | returnDataSize
  | coinbase | timestamp | number | prevRandao | gasLimit | chainId | baseFee | pop | pc | msize
  | gas | push 0 => Gas.base
  | add | sub | lt | gt | slt | sgt | eq | isZero | and | or | xor | not | byte | shl | shr | sar
  | callDataLoad | callDataCopy | codeCopy | returnDataCopy | mload | mstore | mstore8 | push _
  | dup _ | swap _ => Gas.veryLow
  | mul | div | sdiv | mod | smod | signExtend | selfBalance => Gas.low
  | addMod | mulMod | jump => Gas.mid
  | jumpi => Gas.high
  | exp => Gas.expBase
  | jumpDest => Gas.jumpDest
  | keccak256 => Gas.keccakBase
  | blockHash => Gas.blockHash
  | balance => Gas.balance f
  | extCodeSize | extCodeCopy => Gas.extCode f
  | extCodeHash => Gas.extCodeHash f
  | sload => Gas.sload f
  | call | callCode | delegateCall | staticCall => Gas.call f
  | selfDestruct => Gas.selfDestruct f
  | log _ => Gas.logBase
  | create | create2 => Gas.create

/-! ### Names -/

/-- The name in listings. -/
def mnemonic : Instruction → String
  | stop => "STOP"
  | add => "ADD"
  | mul => "MUL"
  | sub => "SUB"
  | div => "DIV"
  | sdiv => "SDIV"
  | mod => "MOD"
  | smod => "SMOD"
  | addMod => "ADDMOD"
  | mulMod => "MULMOD"
  | exp => "EXP"
  | signExtend => "SIGNEXTEND"
  | lt => "LT"
  | gt => "GT"
  | slt => "SLT"
  | sgt => "SGT"
  | eq => "EQ"
  | isZero => "ISZERO"
  | and => "AND"
  | or => "OR"
  | xor => "XOR"
  | not => "NOT"
  | byte => "BYTE"
  | shl => "SHL"
  | shr => "SHR"
  | sar => "SAR"
  | keccak256 => "KECCAK256"
  | address => "ADDRESS"
  | balance => "BALANCE"
  | origin => "ORIGIN"
  | caller => "CALLER"
  | callValue => "CALLVALUE"
  | callDataLoad => "CALLDATALOAD"
  | callDataSize => "CALLDATASIZE"
  | callDataCopy => "CALLDATACOPY"
  | codeSize => "CODESIZE"
  | codeCopy => "CODECOPY"
  | gasPrice => "GASPRICE"
  | extCodeSize => "EXTCODESIZE"
  | extCodeCopy => "EXTCODECOPY"
  | returnDataSize => "RETURNDATASIZE"
  | returnDataCopy => "RETURNDATACOPY"
  | extCodeHash => "EXTCODEHASH"
  | blockHash => "BLOCKHASH"
  | coinbase => "COINBASE"
  | timestamp => "TIMESTAMP"
  | number => "NUMBER"
  | prevRandao => "PREVRANDAO"
  | gasLimit => "GASLIMIT"
  | chainId => "CHAINID"
  | selfBalance => "SELFBALANCE"
  | baseFee => "BASEFEE"
  | pop => "POP"
  | mload => "MLOAD"
  | mstore => "MSTORE"
  | mstore8 => "MSTORE8"
  | sload => "SLOAD"
  | sstore => "SSTORE"
  | jump => "JUMP"
  | jumpi => "JUMPI"
  | pc => "PC"
  | msize => "MSIZE"
  | gas => "GAS"
  | jumpDest => "JUMPDEST"
  | push n => "PUSH" ++ toString n
  | dup n => "DUP" ++ toString n
  | swap n => "SWAP" ++ toString n
  | log n => "LOG" ++ toString n
  | create => "CREATE"
  | call => "CALL"
  | callCode => "CALLCODE"
  | ret => "RETURN"
  | delegateCall => "DELEGATECALL"
  | create2 => "CREATE2"
  | staticCall => "STATICCALL"
  | revert => "REVERT"
  | invalid => "INVALID"
  | selfDestruct => "SELFDESTRUCT"

end Instruction

end Evm
