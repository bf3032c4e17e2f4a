import Evm.Proofs.Machine.Gas
import Evm.Proofs.Machine.Observation

namespace Evm

/-!
# Every execution ends within its gas

An instruction that does not end its frame costs gas, even if gas is asked for a child.  So the
loop of a frame and the loop over the frames end, and apart from one instruction a frame there are
no more instructions than gas.

* `Local.Turns`, `Local.run_eq` — the loop of a frame ends.
* `Machine.instructionsLeft` — how many instructions may still run.
* `EndsWithinGas` — what this means for an execution.
* `ends_within_gas` — every execution is like that.
-/

variable {L : Type} [Ledger L]

/-! ### The loop of a frame -/

namespace Local

/-- Turns after each of which the frame goes on. -/
inductive Turns (c : Context) (ancestors : List Frame) (s : Local L) (t : Trace) :
    Local L → Trace → Prop where
  | refl : Turns c ancestors s t s t
  | tail {s' s'' : Local L} {t' t'' : Trace} : Turns c ancestors s t s' t' →
      s'.turn c ancestors t' = (.continues, s'', t'') → Turns c ancestors s t s'' t''

variable {c : Context} {ancestors : List Frame} {s s' s'' : Local L} {t t' t'' : Trace}

/-- One more turn in front of the others. -/
theorem Turns.head (h : s.turn c ancestors t = (.continues, s', t'))
    (k : Turns c ancestors s' t' s'' t'') : Turns c ancestors s t s'' t'' := by
  induction k with
  | refl => exact .tail .refl h
  | tail _ hturn ih => exact .tail ih hturn

/-- With more fuel than gas the loop ends with a turn after which the frame does not go on. -/
theorem runFor_eq {fuel : Nat} (h : s.frame.gas.remaining < fuel) :
    ∃ s' t', Turns c ancestors s t s' t' ∧ (s'.turn c ancestors t').1 ≠ .continues ∧
      runFor c ancestors fuel s t = s'.turn c ancestors t' := by
  -- each turn after which the frame goes on costs gas, so fuel that exceeds the gas lasts
  induction fuel generalizing s t with
  | zero => exact absurd h (Nat.not_lt_zero _)
  | succ fuel ih =>
    have paid := (s.turn_onward c ancestors t).1.gas
    rw [runFor]
    generalize hturn : s.turn c ancestors t = r at paid
    obtain ⟨o, s₁, t₁⟩ := r
    cases o with
    | continues =>
      change s₁.frame.gas.remaining + 1 ≤ _ at paid
      obtain ⟨s', t', hturns, hlast, hrun⟩ := ih (s := s₁) (t := t₁) (by omega)
      exact ⟨s', t', hturns.head hturn, hlast, hrun⟩
    | halted | failed e | waits message k =>
      refine ⟨s, t, .refl, ?_, hturn.symm⟩
      rw [hturn]
      exact nofun

/-- The loop of a frame is a chain of turns with a last one that leaves it. -/
theorem run_eq (c : Context) (ancestors : List Frame) (s : Local L) (t : Trace) :
    ∃ s' t', Turns c ancestors s t s' t' ∧ (s'.turn c ancestors t').1 ≠ .continues ∧
      s.run c ancestors t = s'.turn c ancestors t' :=
  runFor_eq (Nat.lt_succ_self _)

end Local

/-! ### How many instructions may still run -/

/-- Gas that an outcome sets aside for a child. -/
def Outcome.requested : Outcome → Nat
  | .waits message _ => message.gasLimit
  | _ => 0

/-- A frame that goes on has paid a unit more than it has set aside for a child. -/
theorem Outcome.price_of_not_ends {o : Outcome} (h : ∀ error, ¬ o.Ends error) :
    o.price = o.requested + 1 := by
  cases o with
  | continues => rfl
  | waits message k => rfl
  | halted => exact absurd .halted (h none)
  | failed e => exact absurd (.failed e) (h (some e))

/-- The instruction that will end the frame is still to come. -/
def Phase.lastInstruction : Phase → Nat
  | .prepared | .running | .resuming => 1
  | .created | .suspended | .finalizing | .done => 0

/-- A phase keeps one instruction back at most. -/
theorem Phase.lastInstruction_le (p : Phase) : p.lastInstruction ≤ 1 := by
  cases p <;> decide

namespace Machine

variable {c : Context} {l : L} {message : Message} {m m' : Machine L}

/-- How many instructions may still run in the frames that have started: one for each unit of gas,
    and one to end each of the frames. -/
def instructionsLeft (m : Machine L) : Nat :=
  m.gas + m.top.phase.lastInstruction + m.below.length

omit [Ledger L] in
/-- A frame in its loop keeps one instruction back. -/
theorem IsRunning.lastInstruction (h : m.IsRunning) : m.top.phase.lastInstruction = 1 := by
  obtain h | h := h <;> rw [h] <;> rfl

/-- What a turn reports to the observer, and what it only adds to the trace's counters. -/
theorem turn_shown (c : Context) (m : Machine L) : m.trace.Shown (m.turn c).2.2 :=
  m.running.turn_shown c m.below m.trace

/-- The start of a frame is shown when it is prepared. -/
theorem prepare_shown (c : Context) (m : Machine L) :
    (m.prepare c).trace.level = m.trace.level ∧
      (m.prepare c).trace.opcodes = m.trace.opcodes ∧
      (m.prepare c).trace.instructionsStarted = m.trace.instructionsStarted ∧
      (m.trace.level = .instructions →
        (m.prepare c).trace.framesStarted = m.trace.framesStarted + 1) := by
  refine ⟨by simp [prepare], by simp [prepare], ?_, fun hlevel => ?_⟩
  · unfold prepare Trace.instructionsStarted
    dsimp only
    rw [Trace.countP_add_of_not rfl, Trace.countP_add_of_not rfl]
  · unfold prepare Trace.framesStarted
    dsimp only
    rw [Trace.countP_add (by rw [Trace.level_add, hlevel]; rfl) rfl, Trace.countP_add_of_not rfl]

/-- What the trace of an execution counts, where everything is shown. -/
structure Counted (limit : Nat) (m : Machine L) : Prop where
  level : m.trace.level = .instructions
  instructions : m.trace.instructionsStarted = m.trace.opcodes
  left : m.trace.opcodes + m.instructionsLeft ≤ limit + m.trace.framesStarted

/-- A turn counts one instruction at most, for which gas is paid or a frame ends. -/
theorem Counted.turn {limit : Nat} (h : m.Counted limit) {o : Outcome} {s : Local L} {t : Trace}
    (hturn : m.turn c = (o, s, t)) {m' : Machine L} (htrace : m'.trace = t)
    (hleft : m'.instructionsLeft + 1 ≤ m.instructionsLeft) : m'.Counted limit := by
  have shown := m.turn_shown c
  rw [hturn] at shown
  change m.trace.Shown t at shown
  -- the count of the turn, and the gas that pays for it
  obtain ⟨hlevel, hinstructions, hbound⟩ := h
  have hopcodes := shown.opcodes_le
  have hframes := shown.framesStarted
  have hcount := shown.instructionsStarted hlevel
  refine ⟨?_, ?_, ?_⟩
  · rw [htrace, shown.level, hlevel]
  · rw [htrace]
    omega
  · rw [htrace]
    omega

omit [Ledger L] in
/-- The trace grows by the end of a frame. -/
theorem Counted.frameEnd {limit : Nat} (h : m.Counted limit) {m' : Machine L} {output : Bytes}
    {used : Nat} {error : Option VmError}
    (htrace : m'.trace = m.trace.add (.frameEnd output used error))
    (hleft : m'.instructionsLeft ≤ m.instructionsLeft) : m'.Counted limit := by
  obtain ⟨hlevel, hinstructions, hbound⟩ := h
  have hframes : m'.trace.framesStarted = m.trace.framesStarted := by
    rw [htrace]
    exact Trace.countP_add_of_not rfl
  have hstarted : m'.trace.instructionsStarted = m.trace.instructionsStarted := by
    rw [htrace]
    exact Trace.countP_add_of_not rfl
  have hopcodes : m'.trace.opcodes = m.trace.opcodes := by rw [htrace, Trace.opcodes_add]
  refine ⟨by rw [htrace, Trace.level_add, hlevel], ?_, ?_⟩
  · omega
  · omega

/-- One step counts the instruction that it runs, and gas pays for it. -/
theorem Counted.step {limit : Nat} (h : m.Counted limit) (hstep : Stepped c m m') :
    m'.Counted limit := by
  have hgas := step_gas hstep
  cases hstep with
  | prepares hphase =>
    obtain ⟨hlevel, hopcodes, hstarted, hframes⟩ := m.prepare_shown c
    -- one more frame has started, so one more instruction may come that ends a frame
    have hframe := hframes h.level
    have hlast := Phase.lastInstruction_le (m.prepare c).top.phase
    have hbound := h.left
    refine ⟨hlevel.trans h.level, by rw [hstarted, hopcodes, h.instructions], ?_⟩
    unfold instructionsLeft at hbound ⊢
    rw [hphase] at hbound
    rw [hframe, hopcodes, prepare_below]
    change _ + (_ + 0 + _) ≤ _ at hbound
    omega
  | enters hphase =>
    have hlast := Phase.lastInstruction_le (m.enter c).top.phase
    have hbound := h.left
    refine ⟨by rw [enter_trace, h.level], by rw [enter_trace, h.instructions], ?_⟩
    unfold instructionsLeft at hbound ⊢
    rw [hphase] at hbound
    rw [enter_trace, enter_below]
    change _ + (_ + 1 + _) ≤ _ at hbound
    omega
  | @continues s t hrun hturn =>
    -- the instruction has cost a unit of gas
    have paid := landed_gas hturn
    change _ + 1 ≤ _ at paid
    refine h.turn hturn rfl ?_
    unfold instructionsLeft
    rw [hrun.lastInstruction]
    show _ + s.frame.phase.lastInstruction + m.below.length + 1 ≤ _
    rw [turn_phase hturn]
    show _ + 1 + m.below.length + 1 ≤ _
    omega
  | ends hrun hturn hends =>
    -- it may have cost nothing, but it was the last one of its frame
    refine h.turn hturn rfl ?_
    unfold instructionsLeft
    rw [hrun.lastInstruction]
    show _ + 0 + m.below.length + 1 ≤ _
    omega
  | @spawns message k s t hrun hturn =>
    have paid := landed_gas hturn
    change _ + (message.gasLimit + 1) ≤ _ at paid
    refine h.turn hturn rfl ?_
    unfold instructionsLeft
    rw [hrun.lastInstruction, spawn_gas]
    show _ + 0 + (m.below.length + 1) + 1 ≤ _
    omega
  | @pops parent below hphase hbelow =>
    refine h.frameEnd rfl ?_
    have hlast := Phase.lastInstruction_le (m.handedTo c parent below).top.phase
    unfold instructionsLeft
    rw [hphase, hbelow, List.length_cons]
    show _ + _ + below.length ≤ _ + 0 + _
    omega

/-- Every machine of an execution is counted. -/
theorem Visited.counted {answers : Nat → Nat}
    (h : Visited c l message (.instructions answers) m) : m.Counted message.gasLimit := by
  have given : (launch c l message (.instructions answers)).gas = message.gasLimit :=
    message.gasLimit_resolve l
  refine h.invariant ⟨rfl, rfl, ?_⟩ fun _ _ hm hstep => hm.step hstep
  show 0 + ((launch c l message (.instructions answers)).gas + 0 + 0) ≤ _
  omega

/-- The last step shows the end of the first frame. -/
theorem step_done_trace {x : Execution L} (h : m.step c = .done x) :
    x.trace = m.trace.add (.frameEnd x.result.output x.result.gasUsed x.result.error) := by
  unfold step at h
  split at h
  · cases h
  · cases h
  · cases h
  · cases h
  · unfold finalizeTop at h
    dsimp only at h
    split at h
    · rw [← Progress.done.inj h]
    · cases h
  · cases h
  · cases h

end Machine

/-! ### Executions -/

open Machine in
/-- An execution ends, and its gas bounds how many instructions run in all of its frames. -/
structure EndsWithinGas (c : Context) (l : L) (message : Message) (observer : Observer) : Prop where
  /-- The loop over the frames comes to a last step, which ends the first frame. -/
  done : message.depth ≤ c.config.maxCallDepth → ∃ last x,
    Visited c l message observer last ∧ last.step c = .done x ∧
      execute c l message observer =
        { x with
          result := x.result.withGrantedRefund c.fork (message.resolve l).gasLimit }
  /-- The loop of a frame comes to a turn after which the frame does not go on. -/
  dispatch {m : Machine L} : Visited c l message observer m → m.IsRunning → ∃ s t,
    Local.Turns c m.below m.running m.trace s t ∧ (s.turn c m.below t).1 ≠ .continues ∧
      m.running.run c m.below m.trace = s.turn c m.below t
  /-- An instruction that does not end its frame costs gas, apart from what it sets aside for a
      child. -/
  paid {m : Machine L} {o : Outcome} {s : Local L} {t : Trace} :
    Visited c l message observer m → m.IsRunning → m.turn c = (o, s, t) →
      (∀ error, ¬ o.Ends error) → (m.landed s t).gas + o.requested + 1 ≤ m.gas
  /-- The instructions counted are those that a close observer sees start. -/
  counted : (execute c l message observer).trace.opcodes =
    (execute c l message .instructions).trace.instructionsStarted
  /-- There are no more of them than gas and frames. -/
  bounded : (execute c l message .instructions).trace.instructionsStarted ≤
    message.gasLimit + (execute c l message .instructions).trace.framesStarted

namespace Machine

/-- What a close observer of a whole execution counts. -/
theorem execute_counted (c : Context) (l : L) (message : Message) :
    let t := (execute c l message .instructions).trace
    t.instructionsStarted = t.opcodes ∧ t.opcodes ≤ message.gasLimit + t.framesStarted := by
  by_cases hdepth : message.depth ≤ c.config.maxCallDepth
  · obtain ⟨last, x, hvisited, -, hdone, heq⟩ := execute_eq l .instructions hdepth
    obtain ⟨-, hinstructions, hleft⟩ := hvisited.counted
    -- the end of the first frame is no frame that starts, and no instruction
    have hframes : x.trace.framesStarted = last.trace.framesStarted := by
      rw [step_done_trace hdone]
      exact Trace.countP_add_of_not rfl
    have hstarted : x.trace.instructionsStarted = last.trace.instructionsStarted := by
      rw [step_done_trace hdone]
      exact Trace.countP_add_of_not rfl
    have hopcodes : x.trace.opcodes = last.trace.opcodes := by
      rw [step_done_trace hdone, Trace.opcodes_add]
    rw [heq]
    dsimp only
    rw [hstarted, hopcodes, hframes]
    exact ⟨hinstructions, by omega⟩
  · rw [execute_of_depth (Nat.lt_of_not_le hdepth)]
    exact ⟨rfl, Nat.zero_le _⟩

end Machine

/-- Every execution ends within its gas. -/
theorem ends_within_gas (c : Context) (l : L) (message : Message) (observer : Observer) :
    EndsWithinGas c l message observer where
  done hdepth := by
    obtain ⟨last, x, hvisited, -, hdone, heq⟩ := Machine.execute_eq l observer hdepth
    exact ⟨last, x, hvisited, hdone, heq⟩
  dispatch {m} _ _ := m.running.run_eq c m.below m.trace
  paid _ _ hturn hgoesOn := by
    have paid := Machine.landed_gas hturn
    rw [Outcome.price_of_not_ends hgoesOn] at paid
    exact paid
  counted := by
    rw [(Machine.execute_counted c l message).1]
    exact (execute_alike c l message .instructions observer).opcodes
  bounded := by
    obtain ⟨hinstructions, hbound⟩ := Machine.execute_counted c l message
    rw [hinstructions]
    exact hbound

end Evm
