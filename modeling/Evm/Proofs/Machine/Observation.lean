import Evm.Proofs.Machine.Execution

namespace Evm

/-!
# Observing changes nothing

How much an observer is shown makes no difference to an execution.  So whatever one wants to count
in an execution can be counted in one that is observed closely enough.

* `Trace.framesStarted`, `Trace.instructionsStarted` — what an observer can count.
* `Trace.Shown` — what one turn shows.
* `Machine.Alike` — machines that differ in what was shown alone.
* `execute_alike` — the observer plays no part, and the instructions are counted even if none is
  shown.
-/

/-! ### What is shown -/

/-- A frame is prepared, or has failed to be. -/
def Event.startsFrame : Event → Bool
  | .frameStart .. => true
  | _ => false

/-- An instruction is about to run. -/
def Event.startsInstruction : Event → Bool
  | .opcodeStart .. => true
  | _ => false

namespace Trace

/-- How many frames have been shown to start. -/
def framesStarted (t : Trace) : Nat := t.events.countP Event.startsFrame

/-- How many instructions have been shown to start. -/
def instructionsStarted (t : Trace) : Nat := t.events.countP Event.startsInstruction

/-- An event does not change what is kept. -/
@[simp] theorem level_add (t : Trace) (e : Event) : (t.add e).level = t.level := by
  unfold add
  split <;> rfl

/-- An event does not count as an instruction. -/
@[simp] theorem opcodes_add (t : Trace) (e : Event) : (t.add e).opcodes = t.opcodes := by
  unfold add
  split <;> rfl

/-- An event is kept if the level is high enough for it. -/
theorem events_add (t : Trace) (e : Event) :
    (t.add e).events = if e.isKept t.level then t.events.push e else t.events := by
  unfold add
  split <;> rfl

/-- What is kept is counted. -/
theorem countP_add {p : Event → Bool} {t : Trace} {e : Event} (hkept : e.isKept t.level = true)
    (hp : p e = true) : (t.add e).events.countP p = t.events.countP p + 1 := by
  rw [events_add, if_pos hkept, Array.countP_push, if_pos hp]

/-- What is not asked for is not counted. -/
theorem countP_add_of_not {p : Event → Bool} {t : Trace} {e : Event} (hp : p e = false) :
    (t.add e).events.countP p = t.events.countP p := by
  rw [events_add]
  split
  · rw [Array.countP_push, if_neg (Bool.eq_false_iff.1 hp)]
    rfl
  · rfl

/-- What one turn shows: nothing at the end of the code, else the start of an instruction and what
    has become of it. -/
inductive Shown (t : Trace) : Trace → Prop where
  | nothing : Shown t t
  | instruction (pc : Nat) (i : Instruction) (cost gas depth : Nat) {e : Event} :
      e.startsFrame = false → e.startsInstruction = false →
        Shown t ((t.startInstruction pc i cost gas depth).2.add e)

namespace Shown

variable {t t' : Trace}

/-- The level stays. -/
theorem level (h : t.Shown t') : t'.level = t.level := by
  cases h with
  | nothing => rfl
  | instruction => simp [startInstruction]

/-- At most one instruction is counted. -/
theorem opcodes_le (h : t.Shown t') : t'.opcodes ≤ t.opcodes + 1 := by
  cases h with
  | nothing => exact Nat.le_succ _
  | instruction => simp [startInstruction]

/-- No instruction is taken back. -/
theorem le_opcodes (h : t.Shown t') : t.opcodes ≤ t'.opcodes := by
  cases h with
  | nothing => exact Nat.le_refl _
  | instruction => simp [startInstruction]

/-- Turns start no frames. -/
theorem framesStarted (h : t.Shown t') : t'.framesStarted = t.framesStarted := by
  cases h with
  | nothing => rfl
  | instruction _ _ _ _ _ hframe _ =>
    unfold Trace.framesStarted startInstruction
    rw [countP_add_of_not hframe, countP_add_of_not rfl, countP_add_of_not rfl]

/-- Where everything is shown, the instructions shown are those counted. -/
theorem instructionsStarted (h : t.Shown t') (hlevel : t.level = .instructions) :
    t'.instructionsStarted + t.opcodes = t.instructionsStarted + t'.opcodes := by
  cases h with
  | nothing => rfl
  | instruction _ _ _ _ _ _ hother =>
    unfold Trace.instructionsStarted startInstruction
    rw [countP_add_of_not hother, countP_add_of_not rfl, countP_add (by rw [hlevel]; rfl) rfl]
    simp only [opcodes_add]
    omega

end Shown

end Trace

variable {L : Type} [Ledger L]

/-! ### Turns -/

namespace Local

/-- An instruction shows no more than one. -/
theorem runInstruction_shown (c : Context) (ancestors : List Frame) (s : Local L) (t : Trace)
    (i : Instruction) : t.Shown (s.runInstruction c ancestors t i).2.2 := by
  unfold runInstruction
  cases (paidEffect c ancestors i).run s with
  | ok flow s => exact .instruction _ _ _ _ _ rfl rfl
  | error e s => cases e <;> exact .instruction _ _ _ _ _ rfl rfl

/-- Nor does a turn. -/
theorem turn_shown (c : Context) (ancestors : List Frame) (s : Local L) (t : Trace) :
    t.Shown (s.turn c ancestors t).2.2 := by
  unfold turn
  cases s.frame.program.current with
  | none => exact .nothing
  | some b =>
    dsimp only
    cases Instruction.decode c.fork b with
    | none => exact .instruction _ _ _ _ _ rfl rfl
    | some i => exact runInstruction_shown c ancestors s t i

/-- A turn counts its instruction, also where the byte is none. -/
theorem turn_opcodes (c : Context) (ancestors : List Frame) (s : Local L) (t : Trace) {b : UInt8}
    (h : s.frame.program.current = some b) :
    (s.turn c ancestors t).2.2.opcodes = t.opcodes + 1 := by
  unfold turn
  rw [h]
  dsimp only
  cases Instruction.decode c.fork b with
  | none => simp [undefinedInstruction, Trace.startInstruction]
  | some i =>
    unfold runInstruction
    dsimp only
    split <;> simp [Trace.startInstruction]

/-- A turn does the same whatever was shown before. -/
theorem turn_unseen (c : Context) (ancestors : List Frame) (s : Local L) {t u : Trace}
    (h : u.opcodes = t.opcodes) :
    (s.turn c ancestors u).1 = (s.turn c ancestors t).1 ∧
      (s.turn c ancestors u).2.1 = (s.turn c ancestors t).2.1 ∧
      (s.turn c ancestors u).2.2.opcodes = (s.turn c ancestors t).2.2.opcodes := by
  -- the trace is written to, but only the count of the instructions is read
  unfold turn
  cases s.frame.program.current with
  | none => exact ⟨rfl, rfl, h⟩
  | some b =>
    dsimp only
    cases Instruction.decode c.fork b with
    | none => simp [undefinedInstruction, Trace.startInstruction, h]
    | some i =>
      unfold runInstruction
      dsimp only
      generalize (paidEffect c ancestors i).run s = r
      cases r with
      | ok flow s => simp [Trace.startInstruction, h]
      | error e s => cases e <;> simp [Trace.startInstruction, h]

end Local

/-! ### Machines -/

/-- Two executions that differ in what was shown alone. -/
structure Execution.Alike (x y : Execution L) : Prop where
  result : y.result = x.result
  ledger : y.ledger = x.ledger
  opcodes : y.trace.opcodes = x.trace.opcodes

namespace Machine

/-- Two machines that differ in what was shown alone. -/
structure Alike (m n : Machine L) : Prop where
  top : n.top = m.top
  below : n.below = m.below
  ledger : n.ledger = m.ledger
  opcodes : n.trace.opcodes = m.trace.opcodes

/-- The steps of two such machines. -/
inductive StepsAlike : Progress L → Progress L → Prop where
  | running {m n : Machine L} : m.Alike n → StepsAlike (.running m) (.running n)
  | done {x y : Execution L} : x.Alike y → StepsAlike (.done x) (.done y)
  | stuck : StepsAlike .stuck .stuck

variable {c : Context} {m n : Machine L}

/-- A turn does not depend on the trace. -/
theorem Alike.runTop (h : m.Alike n) : (m.runTop c).Alike (n.runTop c) := by
  obtain ⟨htop, hbelow, hledger, hopcodes⟩ := h
  obtain ⟨houtcome, hlocal, hcount⟩ := Local.turn_unseen c m.below m.running hopcodes
  have hturn : n.running.turn c n.below n.trace = m.running.turn c m.below n.trace := by
    rw [running, running, htop, hbelow, hledger]
  rw [← hturn] at houtcome hlocal hcount
  rw [runTop_eq, runTop_eq]
  unfold turn landed
  -- both turns are the same but for what they show, and the outcome decides the rest
  generalize n.running.turn c n.below n.trace = r at houtcome hlocal hcount
  generalize m.running.turn c m.below m.trace = r' at houtcome hlocal hcount
  obtain ⟨outcome, s, t⟩ := r
  obtain ⟨outcome', s', t'⟩ := r'
  obtain rfl : outcome = outcome' := houtcome
  obtain rfl : s = s' := hlocal
  cases outcome with
  | continues | halted | failed e => exact ⟨rfl, hbelow, rfl, hcount⟩
  | waits message k => exact ⟨rfl, congrArg (_ :: ·) hbelow, rfl, hcount⟩

/-- Machines that differ in what was shown alone go on doing so. -/
theorem Alike.step (h : m.Alike n) : StepsAlike (m.step c) (n.step c) := by
  have hrunTop := h.runTop (c := c)
  obtain ⟨top, below, ledger, t⟩ := m
  obtain ⟨top', below', ledger', u⟩ := n
  obtain ⟨htop, hbelow, hledger, hopcodes⟩ := h
  -- the two machines differ in their traces alone
  obtain rfl : top' = top := htop
  obtain rfl : below' = below := hbelow
  obtain rfl : ledger' = ledger := hledger
  change u.opcodes = t.opcodes at hopcodes
  unfold Machine.step
  dsimp only
  split
  · exact .running ⟨rfl, rfl, rfl, by simp [prepare, hopcodes]⟩
  · have called : calledPrecompile c { top := top', below := below', ledger := ledger', trace := u } =
        calledPrecompile c { top := top', below := below', ledger := ledger', trace := t } := rfl
    refine .running ?_
    unfold enter
    rw [called]
    generalize calledPrecompile c _ = p
    cases p <;> exact ⟨rfl, rfl, rfl, hopcodes⟩
  · exact .running hrunTop
  · exact .running hrunTop
  · unfold finalizeTop
    cases below' with
    | nil => exact .done ⟨rfl, rfl, by simp [hopcodes, toLocal, isRoot]⟩
    | cons parent rest => exact .running ⟨rfl, rfl, rfl, by simp [hopcodes, toLocal, isRoot]⟩
  · exact .stuck
  · exact .stuck

omit [Ledger L] in
/-- Nor does what is cut off. -/
theorem Alike.cutOff (h : m.Alike n) : m.cutOff.Alike n.cutOff := by
  refine ⟨?_, h.ledger, h.opcodes⟩
  unfold Machine.cutOff
  rw [h.top, h.below]

/-- Nor do any number of steps. -/
theorem Alike.runFor (fuel : Nat) (h : m.Alike n) :
    (runFor c fuel m).Alike (runFor c fuel n) := by
  induction fuel generalizing m n with
  | zero => exact h.cutOff
  | succ fuel ih =>
    unfold Machine.runFor
    have hstep := h.step (c := c)
    generalize m.step c = p at hstep
    generalize n.step c = q at hstep
    cases hstep with
    | running halike => exact ih halike
    | done halike => exact halike
    | stuck => exact h.cutOff

end Machine

/-- The observer plays no part in an execution, neither by what it looks at nor by its answers. -/
theorem execute_alike (c : Context) (l : L) (message : Message) (observer observer' : Observer) :
    (execute c l message observer).Alike (execute c l message observer') := by
  unfold execute
  dsimp only
  split
  · exact ⟨rfl, rfl, rfl⟩
  · generalize (prewarmed c (message.resolve l)).foldl (fun l a => (Ledger.accessAccount l a).2) l
      = warmed
    have started : (Machine.start c warmed { toObserver := observer } (message.resolve l)).Alike
        (Machine.start c warmed { toObserver := observer' } (message.resolve l)) := ⟨rfl, rfl, rfl, rfl⟩
    obtain ⟨hresult, hledger, hopcodes⟩ := started.runFor (c := c) (Machine.fuel (message.resolve l))
    exact ⟨congrArg (ExecutionResult.withGrantedRefund · _ _) hresult, hledger, hopcodes⟩

end Evm
