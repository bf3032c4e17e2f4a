import Evm.Counter
import Evm.Instruction

namespace Evm

/-!
# Code and jump targets

Code is scanned once, when it is loaded: a jump may only reach a JUMPDEST byte that is not data
of a PUSH before it.

* `jumpTargets` — one flag for each byte, found by a scan that skips data.
* `Code` — bytes with their flags; the flags are always those of the scan.
* `Program` — code and the position of the next instruction.
-/

/-- The state of the scan: how many bytes of data are still to come, and the flags so far. -/
structure JumpScan where
  skip : Nat := 0
  flags : Array Bool := #[]

/-- Moves the scan over one byte. -/
def JumpScan.next (s : JumpScan) (b : UInt8) : JumpScan :=
  if s.skip = 0 then { skip := pushSize b, flags := s.flags.push (b == 0x5b) }
  else { skip := s.skip - 1, flags := s.flags.push false }

/-- For each byte of code, whether it can be jumped to. -/
def jumpTargets (b : Bytes) : Array Bool := (b.foldl JumpScan.next {}).flags

/-- Code with its jump targets. -/
structure Code where
  bytes : Bytes
  targets : Array Bool
  /-- The flags are those of the scan. -/
  targets_eq : targets = jumpTargets bytes

namespace Code

/-- Scans code. -/
def ofBytes (b : Bytes) : Code := ⟨b, jumpTargets b, rfl⟩

instance : Inhabited Code := ⟨ofBytes #[]⟩

/-- Whether a jump may go to this position. -/
def isJumpTarget (c : Code) (i : Nat) : Bool := c.targets.getD i false

end Code

/-- Code and the position of the next instruction. -/
structure Program where
  code : Code
  pc : Nat := 0

namespace Program

instance : Inhabited Program := ⟨{ code := default }⟩

/-- The program at the start of some code. -/
def ofBytes (b : Bytes) : Program := { code := Code.ofBytes b }

/-- The byte at the position; none past the end. -/
def current (p : Program) : Option UInt8 := p.code.bytes[p.pc]?

/-- Moves on by `n` bytes. -/
def advance (p : Program) (n : Nat) : Program := { p with pc := Counter.add p.pc n }

/-- The `n` bytes after the current one, zero past the end. -/
def immediate (p : Program) (n : Nat) : Bytes := p.code.bytes.window (Counter.add p.pc 1) n

/-- Goes to a jump target; any other position is an error. -/
def jump (p : Program) (target : Nat) : Except VmError Program :=
  if p.code.isJumpTarget target then .ok { p with pc := target }
  else .error (.invalidJumpDestination target)

end Program

end Evm
