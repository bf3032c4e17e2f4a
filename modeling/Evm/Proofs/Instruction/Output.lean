import Evm.Proofs.Instruction.Operands

namespace Evm

/-!
# What no instruction does to its frame

An instruction works with the stack, memory, gas, return data and records of its frame, and it may
give the frame an output, no longer than the largest size.  A property that none of this touches is
kept by every instruction but a jump, and one that the program does not touch by every instruction.

* `Frame.IsCalm`, `Frame.IsSteady` — such properties.
* `Effect.Keeps.calm_ofInstruction`, `Effect.Keeps.ofInstruction` — instructions keep them.
* `Local.turn_keeps` — so do turns.
-/

/-- A property that nothing that an instruction does to its frame touches, unless it jumps. -/
structure Frame.IsCalm (P : Frame → Prop) : Prop where
  work {f : Frame} (stack : Stack) (memory : Memory) (gas : Meter) (returnData : Bytes)
    (logs : Array Log) (selfDestructs : Array Address) :
    P f → P { f with stack, memory, gas, returnData, logs, selfDestructs }
  output {f : Frame} {output : Bytes} : output.size ≤ maxOffset → P f → P { f with output }

/-- A property that nothing that an instruction does to its frame touches, jumps included. -/
structure Frame.IsSteady (P : Frame → Prop) : Prop where
  work {f : Frame} (stack : Stack) (memory : Memory) (gas : Meter) (program : Program)
    (returnData : Bytes) (logs : Array Log) (selfDestructs : Array Address) :
    P f → P { f with stack, memory, gas, program, returnData, logs, selfDestructs }
  output {f : Frame} {output : Bytes} : output.size ≤ maxOffset → P f → P { f with output }

/-- What no instruction touches, no instruction but a jump touches. -/
theorem Frame.IsSteady.calm {P : Frame → Prop} (hP : IsSteady P) : IsCalm P where
  work stack memory gas returnData logs selfDestructs h :=
    hP.work stack memory gas _ returnData logs selfDestructs h
  output := hP.output

/-- The instruction puts the program elsewhere. -/
def Instruction.isJump : Instruction → Bool
  | jump | jumpi => true
  | _ => false

namespace Effect.Keeps

variable {L : Type} [Ledger L] {P : Frame → Prop}

/-! ### Parts of instructions -/

omit [Ledger L] in
/-- A calm property is kept where the frame only works. -/
theorem work (hP : Frame.IsCalm P) {g : Frame → Frame}
    (hg : ∀ f, ∃ stack memory gas returnData logs selfDestructs, g f =
      { f with stack, memory, gas, returnData, logs, selfDestructs }) :
    Keeps P (Effect.modifyFrame g : Effect L Unit) := by
  refine modifyFrame fun f hf => ?_
  obtain ⟨stack, memory, gas, returnData, logs, selfDestructs, heq⟩ := hg f
  exact heq ▸ hP.work stack memory gas returnData logs selfDestructs hf

/-- So it is by the parts of all instructions. -/
theorem letsWork (hP : Frame.IsCalm P) : (Conduct.keeping P : Conduct L).LetsWork where
  toLetsPay := by
    refine .of_writeMemory (fun _ _ _ => id) (fun _ => ?_) (fun _ => ?_) (fun offset b => ?_)
      (fun _ => onLedger _) fun _ => onLedger _
    · exact of_ensures fun _ h => .charge (fun _ _ => hP.work _ _ _ _ _ _ h) h
    · exact of_ensures fun _ h => .extendMemory (fun _ _ _ => hP.work _ _ _ _ _ _ h) h
    · refine of_ensures fun s h => .frame_bind ?_
      cases s.frame.memory.write offset b with
      | ok memory => exact .modifyFrame (hP.work _ _ _ _ _ _ h)
      | error e => exact h
  onStack _ := of_ensures fun _ h => .onStack (fun _ _ _ => hP.work _ _ _ _ _ _ h) h

/-! ### Instructions -/

/-- Every instruction that is no jump keeps a calm property. -/
theorem calm_ofInstruction (hP : Frame.IsCalm P) (c : Context) (ancestors : List Frame)
    {i : Instruction} (hi : i.isJump = false) :
    Keeps P (Effect.ofInstruction c ancestors i : Effect L Flow) := by
  have hC := letsWork (L := L) hP
  have skip (reserved : Nat) : Keeps P (Effect.skipSpawn reserved : Effect L Flow) :=
    Follows.skipSpawn hC (fun _ => work hP fun _ => ⟨_, _, _, _, _, _, rfl⟩) reserved
  have output : Keeps P (Effect.setOutput : Effect L Unit) :=
    Follows.setOutput hC fun _ hsize => modifyFrame fun _ => hP.output hsize
  cases hplain : i.isPlain with
  | true => exact .ofPlain hC c ancestors hplain
  | false =>
    cases i with
    | jump | jumpi => cases hi
    | returnDataCopy => exact next (Follows.returnDataCopy hC fun _ _ _ => id) _
    | log n =>
      exact next (Follows.log hC (fun _ _ => work hP fun _ => ⟨_, _, _, _, _, _, rfl⟩) n) _
    | sstore =>
      refine next (Follows.sstore hC (fun _ _ => work hP fun _ => ?_) (fun _ _ => ?_) c) _
      · exact ⟨_, _, _, _, _, _, rfl⟩
      · exact modifyLedger _
    | selfDestruct =>
      refine next (Follows.selfDestruct hC (work hP fun _ => ⟨_, _, _, _, _, _, rfl⟩)
        (fun _ => work hP fun f => ?_) (fun _ _ => tryLedger _ _) (fun _ => modifyLedger _) c
        ancestors) _
      -- an account that is registered already changes nothing
      unfold Frame.registerSelfDestruct
      split
      · exact ⟨_, _, _, _, _, _, rfl⟩
      · exact ⟨_, _, _, _, _, _, rfl⟩
    | create | create2 => exact Follows.create hC skip c _
    | call | callCode | delegateCall | staticCall => exact Follows.call hC skip c _
    | ret => exact next output _
    | revert => exact bind output fun _ => throw _
    | _ => cases hplain

/-- Every instruction keeps a steady property. -/
theorem ofInstruction (hP : Frame.IsSteady P) (c : Context) (ancestors : List Frame)
    (i : Instruction) : Keeps P (Effect.ofInstruction c ancestors i : Effect L Flow) := by
  have hC := letsWork (L := L) hP.calm
  have jump (target : Word) : Keeps P (Effect.jumpTo target : Effect L Flow) :=
    Follows.jumpTo hC (fun _ => modifyFrame fun _ h => hP.work _ _ _ _ _ _ _ h) target
  cases hi : i.isJump with
  | false => exact calm_ofInstruction hP.calm c ancestors hi
  | true =>
    cases i with
    | jump => exact bind (Follows.pop hC) fun target => jump target
    | jumpi => exact bind (Follows.pop2 hC) fun _ => ite (pure _) (jump _)
    | _ => cases hi

end Effect.Keeps

/-- A turn keeps a steady property. -/
theorem Local.turn_keeps {L : Type} [Ledger L] {P : Frame → Prop} (hP : Frame.IsSteady P)
    {c : Context} {ancestors : List Frame} {s t : Local L} {trace trace' : Trace} {o : Outcome}
    (h : s.turn c ancestors trace = (o, t, trace')) (hs : P s.frame) : P t.frame := by
  cases hnext : s.frame.nextInstruction c.fork with
  | none =>
    rw [(turn_ends h hnext).1]
    exact hs
  | some i =>
    have paid : Effect.Keeps P (paidEffect c ancestors i : Effect L Flow) :=
      .bind ((Effect.Keeps.letsWork hP.calm).charge _) fun _ =>
        Effect.Keeps.ofInstruction hP c ancestors i
    rcases turn_ensures h hnext (paid.ensures hs) with ⟨flow, u, hu, hfollow⟩ | ⟨-, ht⟩
    · -- where control goes after the instruction only matters to the program
      cases flow with
      | next | spawn message k =>
        cases hfollow
        exact hP.work _ _ _ _ _ _ _ hu
      | jumped | halt =>
        cases hfollow
        exact hu
    · exact ht

end Evm
