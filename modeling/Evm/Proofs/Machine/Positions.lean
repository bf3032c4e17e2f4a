import Evm.Proofs.Instruction.Positions
import Evm.Proofs.Machine.FrameStack
import Evm.Proofs.Machine.Induction
import Evm.Proofs.Machine.Roots

namespace Evm

/-!
# Programs stay where instructions start

A frame starts at the first byte of its code.  It moves on by its own turns and takes in the results
of its children, and all that time its program is where an instruction can start, or past the code.
So the data of a PUSH is never run.

* `Local.Dispatches` — what a frame comes to, whatever its children do.
* `Local.Dispatches.aligned` — its program stays aligned.
* `Machine.Visited.aligned` — so do the programs of all frames of an execution.
* `push_data_never_runs` — jump targets, positions and failed jumps together.
-/

variable {L : Type} [Ledger L]

/-! ### One frame -/

/-- A frame comes to another state by turns of its own and by the results of children, whatever has
    become of the ledger in the meantime. -/
inductive Local.Dispatches (c : Context) (s : Local L) : Local L → Prop where
  | refl : Dispatches c s s
  | turn {t u : Local L} {ancestors : List Frame} {trace trace' : Trace} {o : Outcome} :
      Dispatches c s t → t.turn c ancestors trace = (o, u, trace') → Dispatches c s u
  | resume {t : Local L} (ledger : L) (childGas : Meter) (result : ExecutionResult) :
      Dispatches c s t → Dispatches c s { frame := t.frame.resume childGas result, ledger }

/-- From an aligned program a frame only comes to aligned ones, with the same code. -/
theorem Local.Dispatches.aligned {c : Context} {s t : Local L} (h : Dispatches c s t)
    (hsize : s.frame.program.code.bytes.size ≤ Counter.limit) (hs : s.frame.program.IsAligned) :
    t.frame.program.code = s.frame.program.code ∧ t.frame.program.IsAligned := by
  induction h with
  | refl => exact ⟨rfl, hs⟩
  | turn _ hturn ih =>
    obtain ⟨hcode, haligned⟩ := ih
    obtain ⟨hsame, hnext⟩ := turn_aligned hturn (hcode ▸ hsize) haligned
    exact ⟨hsame.trans hcode, hnext⟩
  | @resume t ledger childGas result _ ih =>
    have resumed := (t.frame.resumed_resume childGas result).program
    dsimp only
    rwa [resumed]

/-! ### All frames -/

namespace Machine

variable {c : Context} {l : L} {message : Message} {observer : Observer} {m : Machine L}

/-- Frames keep their programs aligned, and their children start at the first byte of their code. -/
theorem lasting_aligned (c : Context) : Lasting L c fun f =>
    f.program.code.bytes.size ≤ Counter.limit → f.program.IsAligned where
  prepare {m} _ hm := by
    unfold prepare
    dsimp only
    rcases m.toLocal.attempt_prepare_program c with hsame | ⟨hprepared, hloaded⟩
    · split
      · exact hsame ▸ hm
      · exact hsame ▸ hm
    -- the code that is loaded starts at its first byte
    · rw [hprepared]
      dsimp only
      rw [hloaded]
      exact fun _ => Program.isAligned_ofBytes _
  enter {m} hm := by
    unfold enter
    cases m.calledPrecompile c with
    | none => exact hm
    | some p =>
      obtain ⟨gas, output, -, heq⟩ := m.top.answered_eq p
      dsimp only
      rw [Local.attempt_runPrecompile]
      dsimp only [toLocal]
      rw [heq]
      exact hm
  turn {m} _ _ _ h hm hsize := by
    have hcode := turn_code h
    rw [hcode] at hsize
    exact (Local.turn_aligned h hsize (hm hsize)).2
  finish _ hf := hf
  suspend _ hf := hf
  child _ _ _ _ := .inr .zero
  resume {m parent below} _ hparent := by
    rw [m.handedTo_program c parent below]
    exact hparent

/-- In every frame of an execution the program is where an instruction can start, or past the
    code. -/
theorem Visited.aligned (h : Visited c l message observer m) {f : Frame} (hf : f ∈ m.frames)
    (hsize : f.program.code.bytes.size ≤ Counter.limit) : f.program.IsAligned :=
  h.lasts_everywhere (lasting_aligned c) (fun _ => .inr .zero) f (List.mem_reverse.1 hf) hsize

end Machine

/-- The data of a PUSH is never run and never jumped to.  A position is a jump target if and only if
    it is a start and holds a JUMPDEST, and no start lies in the data of an instruction at another
    one.  A frame that starts at the first byte of its code only comes to starts of it or past its
    end, whatever its children do, and so does every frame of every execution, given that the
    positions of the code can be counted at all.  A turn that fails, as one with a bad jump does,
    leaves the program where it is. -/
theorem push_data_never_runs (code : Code) :
    (∀ d, code.isJumpTarget d = true ↔ code.bytes.IsStart d ∧ code.bytes[d]? = some 0x5b) ∧
      (∀ i op j, code.bytes.IsStart i → code.bytes[i]? = some op → i < j → j ≤ i + pushSize op →
        ¬ code.bytes.IsStart j) ∧
      (∀ (c : Context) (s t : Local L), code.bytes.size ≤ Counter.limit →
        s.frame.program = { code } → s.Dispatches c t →
          t.frame.program.code = code ∧ (code.bytes.size ≤ t.frame.program.pc ∨
            code.bytes.IsStart t.frame.program.pc)) ∧
      (∀ (c : Context) (l : L) (message : Message) (observer : Observer) (m : Machine L),
        code.bytes.size ≤ Counter.limit → Machine.Visited c l message observer m →
          ∀ f ∈ m.frames, f.program.code = code →
            code.bytes.size ≤ f.program.pc ∨ code.bytes.IsStart f.program.pc) ∧
      ∀ (c : Context) (ancestors : List Frame) (s t : Local L) (trace trace' : Trace) (e : VmError),
        s.turn c ancestors trace = (.failed e, t, trace') →
          t.frame.program = s.frame.program := by
  refine ⟨code.isJumpTarget_iff, fun _ _ _ hi hop hlt => hi.not_isStart hop hlt, ?_, ?_, ?_⟩
  -- a run from the start of the code, and then every frame of an execution
  · intro c s t hsize hs hreached
    have start : s.frame.program.IsAligned := hs ▸ .inr .zero
    obtain ⟨hcode, haligned⟩ := hreached.aligned (hs ▸ hsize) start
    rw [hs] at hcode
    unfold Program.IsAligned at haligned
    rw [hcode] at haligned
    exact ⟨hcode, haligned⟩
  · rintro c l message observer m hsize hvisited f hf rfl
    exact hvisited.aligned hf hsize
  · intro c ancestors s t trace trace' e hturn
    exact Local.turn_failed_program hturn

/-- A contract jumps over a PUSH whose data is the byte of a JUMPDEST.  The program is then at the
    JUMPDEST behind the data, and the data is no jump target. -/
theorem push_data_never_runs_behind_jump :
    let c : Context := { precompiles := .none }
    let l := SnapshotLedger.ofWorld
      (World.setCode {} 7 #[0x60, 5, 0x56, 0x60, 0x5b, 0x5b, 0x61, 0x5b])
    let message := Message.call 1 7 0 #[] 200000
    let m := (Machine.launch c l message .off).after c 4
    let code := m.top.program.code
    Machine.Visited c l message .off m ∧ m.top.program.pc = 5 ∧ code.isJumpTarget 5 = true ∧
      code.bytes.IsStart 5 ∧ code.isJumpTarget 4 = false ∧ ¬ code.bytes.IsStart 4 ∧
      (code.bytes.size ≤ m.top.program.pc ∨ code.bytes.IsStart m.top.program.pc) := by
  intro c l message m code
  have visited : Machine.Visited c l message .off m :=
    Machine.Visited.iff_after.2 ⟨Nat.zero_le _, 4, rfl⟩
  obtain ⟨targets, data, -, positions, -⟩ := push_data_never_runs (L := SnapshotLedger) code
  have target : code.isJumpTarget 5 = true := by decide +kernel
  have here := positions c l message .off m (by decide +kernel) visited m.top
    (List.mem_reverse.2 List.mem_cons_self) rfl
  have first : code.bytes[0]? = some 0x60 := by decide +kernel
  have second : code.bytes[2]? = some 0x56 := by decide +kernel
  -- the data of the second push lies behind an instruction of its own
  have push : code.bytes.IsStart 3 := .next (.next .zero first) second
  exact ⟨visited, by decide +kernel, target, ((targets 5).1 target).1, by decide +kernel,
    data 3 0x60 4 push (by decide +kernel) (by decide) (by decide), here⟩

end Evm
