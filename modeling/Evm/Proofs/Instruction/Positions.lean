import Evm.Proofs.Instruction.Output

namespace Evm

/-!
# Where instructions start

Code is read twice: once when it is loaded, by the scan for jump targets, and once when it runs, by
a program that moves on over each instruction and its data.  Both come upon instructions at the same
positions, and nowhere in the data of a PUSH.

* `Bytes.IsStart` — the positions of code at which an instruction can start.
* `Code.isJumpTarget_iff` — the jump targets are the JUMPDEST bytes among them.
* `Instruction.immediateSize_of_decode` — an instruction has the data that the scan skips.
* `Program.IsAligned` — a program at such a position, or past its code.
* `Local.turn_aligned`, `Local.turn_failed_program` — a turn keeps the program aligned, and leaves
  it alone if it fails.
-/

/-! ### Starts -/

/-- The positions at which an instruction can start: the first one, and from there on each position
    behind an instruction and its data. -/
inductive Bytes.IsStart (b : Bytes) : Nat → Prop where
  | zero : IsStart b 0
  | next {i : Nat} {op : UInt8} : IsStart b i → b[i]? = some op → IsStart b (i + 1 + pushSize op)

namespace Bytes.IsStart

variable {b : Bytes} {i j : Nat} {op : UInt8}

/-- No instruction starts before the data of an earlier one ends. -/
theorem next_le (hi : b.IsStart i) (hop : b[i]? = some op) (hj : b.IsStart j) (hlt : i < j) :
    i + 1 + pushSize op ≤ j := by
  -- by strong induction on the later start: the start that leads to it is no later than the
  -- earlier one, or ends past it
  induction j using Nat.strongRecOn generalizing i op with
  | ind j ih =>
    cases hj with
    | zero => omega
    | @next k opk hk hopk =>
      rcases Nat.lt_trichotomy i k with hbefore | rfl | hafter
      · have := ih k (by omega) hi hop hk hbefore
        omega
      · rw [hop] at hopk
        cases hopk
        exact Nat.le_refl _
      · -- otherwise the earlier start would lie in the data of the one that leads to the later
        have := ih i hlt hk hopk hi hafter
        omega

/-- The data of an instruction holds no start. -/
theorem not_isStart (hi : b.IsStart i) (hop : b[i]? = some op) (hlt : i < j)
    (hdata : j ≤ i + pushSize op) : ¬ b.IsStart j := by
  intro hj
  have := hi.next_le hop hj hlt
  omega

end Bytes.IsStart

/-! ### The scan -/

/-- What the scan has found in the first bytes of some code: the next start is where it stops to
    skip, there is none before that, and the flags are those of the JUMPDEST bytes at starts. -/
structure JumpScan.Found (b : Bytes) (k : Nat) (s : JumpScan) : Prop where
  size : s.flags.size = k
  ahead : b.IsStart (k + s.skip)
  skipped : ∀ j, k ≤ j → j < k + s.skip → ¬ b.IsStart j
  flags : ∀ j, j < k → (s.flags.getD j false = true ↔ b.IsStart j ∧ b[j]? = some 0x5b)

namespace JumpScan

/-- Before the first byte nothing has been found. -/
theorem found_start (b : Bytes) : Found b 0 {} where
  size := rfl
  ahead := .zero
  skipped j _ hj := absurd hj (Nat.not_lt_zero j)
  flags j hj := absurd hj (Nat.not_lt_zero j)

variable {b : Bytes} {k : Nat} {s : JumpScan} {op : UInt8}

/-- A flag that is added leaves the others as they are. -/
theorem Found.flags_push (h : Found b k s) {flag : Bool}
    (hflag : flag = true ↔ b.IsStart k ∧ b[k]? = some 0x5b) (j : Nat) (hj : j < k + 1) :
    (s.flags.push flag).getD j false = true ↔ b.IsStart j ∧ b[j]? = some 0x5b := by
  have hsize := h.size
  rw [Array.getD_eq_getD_getElem?, Array.getElem?_push, hsize]
  split
  · rename_i hlast
    rw [hlast]
    exact hflag
  · rw [← Array.getD_eq_getD_getElem?]
    exact h.flags j (by omega)

/-- The scan moves over one byte. -/
theorem Found.next (h : Found b k s) (hop : b[k]? = some op) : Found b (k + 1) (s.next op) := by
  unfold JumpScan.next
  split
  -- outside of immediate data, the byte is an instruction
  · rename_i hskip
    have here : b.IsStart k := by simpa [hskip] using h.ahead
    refine ⟨by simp [h.size], here.next hop, fun j hj (hlt : j < k + 1 + pushSize op) => ?_,
      h.flags_push ?_⟩
    · exact here.not_isStart hop (by omega) (by omega)
    · simp [here, hop]
  -- inside, it is skipped with the rest of the data
  · rename_i hskip
    have data : ¬ b.IsStart k := h.skipped k (Nat.le_refl k) (by omega)
    have same : k + 1 + (s.skip - 1) = k + s.skip := by omega
    refine ⟨by simp [h.size], ?_, fun j hj (hlt : j < k + 1 + (s.skip - 1)) => ?_,
      h.flags_push (by simp [data])⟩
    · show b.IsStart (k + 1 + (s.skip - 1))
      exact same ▸ h.ahead
    · exact h.skipped j (by omega) (by omega)

/-- At the end of the code every destination has been found. -/
theorem found_foldl (b : Bytes) : Found b b.size (b.foldl JumpScan.next {}) :=
  Array.foldl_induction (fun k s => Found b k s) (found_start b)
    fun k _ h => h.next (Array.getElem?_eq_getElem k.isLt)

end JumpScan

/-- The jump targets are the JUMPDEST bytes at which an instruction can start. -/
theorem Code.isJumpTarget_iff (c : Code) (d : Nat) :
    c.isJumpTarget d = true ↔ c.bytes.IsStart d ∧ c.bytes[d]? = some 0x5b := by
  have found := JumpScan.found_foldl c.bytes
  rw [isJumpTarget, c.targets_eq]
  by_cases hd : d < c.bytes.size
  · exact found.flags d hd
  · have beyond : (jumpTargets c.bytes).getD d false = false :=
      Array.getD_eq_getD_getElem? .. ▸ by
        rw [Array.getElem?_eq_none (found.size ▸ Nat.not_lt.1 hd)]
        rfl
    simp [beyond, Array.getElem?_eq_none (Nat.not_lt.1 hd)]

/-! ### Programs -/

/-- The data of an instruction is what the scan skips. -/
theorem Instruction.immediateSize_of_decode {fork : Fork} {b : UInt8} {i : Instruction}
    (h : decode fork b = some i) : i.immediateSize = pushSize b := by
  have every : ∀ n : Fin 256, ∀ i ∈ ofByte? (UInt8.ofNat n),
      i.immediateSize = pushSize (UInt8.ofNat n) := by decide +kernel
  have this := every ⟨b.toNat, b.toNat_lt⟩ i
  rw [UInt8.ofNat_toNat] at this
  exact this (Option.filter_eq_some_iff.1 h).1

namespace Program

/-- The program is where an instruction can start, or past its code. -/
def IsAligned (p : Program) : Prop := p.code.bytes.size ≤ p.pc ∨ p.code.bytes.IsStart p.pc

/-- The start of a program is aligned. -/
theorem isAligned_ofBytes (b : Bytes) : (ofBytes b).IsAligned := .inr .zero

variable {p q : Program} {op : UInt8} {target : Nat}

/-- A program moves on over an instruction to the next one.  A position that is too large to count
    is past any code whose size is not. -/
theorem IsAligned.advance (h : p.IsAligned) (hop : p.current = some op)
    (hsize : p.code.bytes.size ≤ Counter.limit) :
    (p.advance (1 + pushSize op)).IsAligned := by
  have hpc : p.pc < p.code.bytes.size := (Array.getElem?_eq_some_iff.1 hop).1
  have here : p.code.bytes.IsStart p.pc := h.resolve_left (Nat.not_le.2 hpc)
  show p.code.bytes.size ≤ min (p.pc + (1 + pushSize op)) Counter.limit ∨
    p.code.bytes.IsStart (min (p.pc + (1 + pushSize op)) Counter.limit)
  rcases Nat.le_total (p.pc + (1 + pushSize op)) Counter.limit with hcounts | hlarge
  · rw [Nat.min_eq_left hcounts, ← Nat.add_assoc]
    exact .inr (here.next hop)
  · rw [Nat.min_eq_right hlarge]
    exact .inl hsize

/-- A jump leads to a start. -/
theorem jump_isAligned (h : p.jump target = .ok q) : q.code = p.code ∧ q.IsAligned := by
  unfold jump at h
  split at h
  · rename_i htarget
    cases h
    exact ⟨rfl, .inr ((p.code.isJumpTarget_iff target).1 htarget).1⟩
  · cases h

/-- Where an instruction that goes through leaves the program, by where control goes after it. -/
def Follows (p : Program) (i : Instruction) : Flow → Program → Prop
  | .next, q | .halt, q => q = p
  | .jumped, q => q = p ∨ ∃ target, p.jump target = .ok q
  | .spawn _ _, q => q = p ∧ i.immediateSize = 0

end Program

/-! ### Instructions -/

/-- That the program is in some place is a calm property. -/
theorem Frame.calm_program (p : Program) : IsCalm fun f => f.program = p where
  work _ _ _ _ _ _ h := h
  output _ h := h

namespace Effect

variable {L : Type} {s : Local L}

/-- A jump goes to a target or leaves the program alone. -/
theorem jumpTo_follows (s : Local L) (i : Instruction) (target : Word) :
    Ensures (jumpTo target) (fun flow t => s.frame.program.Follows i flow t.frame.program)
      (fun t => t.frame.program = s.frame.program) s := by
  refine .frame_bind ?_
  cases hjump : s.frame.program.jump (min target.toNat Counter.limit) with
  | ok program => exact .bind (.modifyFrame (.pure (.inr ⟨_, hjump⟩)))
  | error e => exact .throw rfl

variable [Ledger L]

/-- An instruction with data asks for no child. -/
theorem asks_without_data (c : Context) (ancestors : List Frame) (i : Instruction) :
    Ensures (ofInstruction c ancestors i)
      (fun flow _ => (∃ message k, flow = .spawn message k) → i.immediateSize = 0)
      (fun _ => True) s := by
  cases i with
  | push n =>
    exact .bind (.imp .always (fun _ _ _ => .pure fun ⟨_, _, hasks⟩ => nomatch hasks) fun _ h => h)
  | _ => exact .mono .always fun _ _ _ _ => rfl

/-- Instructions leave the program alone or jump, and leave it alone if they fail. -/
theorem ofInstruction_follows (s : Local L) (c : Context) (ancestors : List Frame)
    (i : Instruction) :
    Ensures (ofInstruction c ancestors i)
      (fun flow t => s.frame.program.Follows i flow t.frame.program)
      (fun t => t.frame.program = s.frame.program) s := by
  -- but for the two jumps, an instruction leaves the position alone
  cases hi : i.isJump with
  | false =>
    have kept : Ensures (ofInstruction c ancestors i)
        (fun _ t => t.frame.program = s.frame.program)
        (fun t => t.frame.program = s.frame.program) s :=
      (Keeps.calm_ofInstruction (Frame.calm_program s.frame.program) c ancestors hi).ensures rfl
    refine (kept.and (asks_without_data c ancestors i)).imp (fun flow t ht => ?_) fun _ => And.left
    cases flow with
    | next | halt => exact ht.1
    | jumped => exact .inl ht.1
    | spawn message k => exact ⟨ht.1, ht.2 ⟨message, k, rfl⟩⟩
  | true =>
    cases i with
    | jump => exact .bind (.onStack (fun target _ _ => jumpTo_follows _ .jump target) rfl)
    | jumpi =>
      exact .bind (.onStack (fun _ _ _ => .ite (fun _ => .pure rfl)
        fun _ => jumpTo_follows _ .jumpi _) rfl)
    | _ => cases hi

end Effect

/-! ### Turns -/

namespace Local

variable {L : Type} [Ledger L] {c : Context} {ancestors : List Frame} {s t : Local L}
  {trace trace' : Trace} {o : Outcome} {i : Instruction}

/-- Each instruction moves the position the way it follows, and a failure leaves it. -/
theorem paidEffect_follows (c : Context) (ancestors : List Frame) (i : Instruction)
    (s : Local L) :
    Effect.Ensures (paidEffect c ancestors i)
      (fun flow t => s.frame.program.Follows i flow t.frame.program)
      (fun t => t.frame.program = s.frame.program) s :=
  .bind (.charge (fun _ _ => Effect.ofInstruction_follows _ c ancestors i) rfl)

/-- A turn that fails leaves the program where it is. -/
theorem turn_failed_program {e : VmError}
    (h : s.turn c ancestors trace = (.failed e, t, trace')) :
    t.frame.program = s.frame.program := by
  cases hnext : s.frame.nextInstruction c.fork with
  | none => rw [(turn_ends h hnext).1]
  | some i =>
    rcases turn_ensures h hnext (paidEffect_follows c ancestors i s) with
      ⟨flow, u, -, hfollow⟩ | ⟨-, ht⟩
    · cases flow <;> cases hfollow
    · exact ht

/-- A turn takes an aligned program to another one. -/
theorem turn_aligned (h : s.turn c ancestors trace = (o, t, trace'))
    (hsize : s.frame.program.code.bytes.size ≤ Counter.limit) (hs : s.frame.program.IsAligned) :
    t.frame.program.code = s.frame.program.code ∧ t.frame.program.IsAligned := by
  cases hnext : s.frame.nextInstruction c.fork with
  | none =>
    rw [(turn_ends h hnext).1]
    exact ⟨rfl, hs⟩
  | some i =>
    obtain ⟨b, hcurrent, hdecode⟩ := Option.bind_eq_some_iff.1 hnext
    have data := Instruction.immediateSize_of_decode hdecode
    -- the alignment past the instruction, for the flows that go on there
    have onward : (s.frame.program.advance (1 + i.immediateSize)).IsAligned :=
      data ▸ hs.advance hcurrent hsize
    rcases turn_ensures h hnext (paidEffect_follows c ancestors i s) with
      ⟨flow, u, hu, hfollow⟩ | ⟨-, ht⟩
    · cases flow with
      | next =>
        cases hfollow
        have same : u.frame.program = s.frame.program := hu
        show (u.frame.program.advance _).code = _ ∧ (u.frame.program.advance _).IsAligned
        rw [same]
        exact ⟨rfl, onward⟩
      | spawn message k =>
        cases hfollow
        obtain ⟨same, hnone⟩ : u.frame.program = s.frame.program ∧ i.immediateSize = 0 := hu
        show (u.frame.program.advance _).code = _ ∧ (u.frame.program.advance _).IsAligned
        rw [same]
        rw [hnone] at onward
        exact ⟨rfl, onward⟩
      | halt =>
        cases hfollow
        have same : t.frame.program = s.frame.program := hu
        rw [same]
        exact ⟨rfl, hs⟩
      | jumped =>
        cases hfollow
        rcases hu with same | ⟨target, hjump⟩
        · rw [same]
          exact ⟨rfl, hs⟩
        · exact Program.jump_isAligned hjump
    · rw [ht]
      exact ⟨rfl, hs⟩

end Local

end Evm
