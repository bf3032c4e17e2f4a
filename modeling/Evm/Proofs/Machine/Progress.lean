import Evm.Proofs.Instruction.Coupling
import Evm.Proofs.Machine.Stages

namespace Evm

/-!
# Every message comes to an end

Each step of the machine either spends gas or brings a frame closer to its end.  The gas that is
left, together with the steps that the frames on the stack still need apart from instructions, goes
down with every step, so the fuel of a message is enough.

* `Machine.Steps` — the steps of a machine, down to a lowest frame.
* `Machine.work` — what goes down.
* `Machine.step_progress` — a machine is done, or its next step has less work left.
* `Machine.run_eq` — a run ends in a last step that finishes the first frame.
* `Machine.Steps.messages` — frames keep their messages.
-/

variable {L : Type} [Ledger L]

/-! ### What is left to do -/

/-- Steps that a frame still needs apart from its instructions. -/
def Phase.stepsLeft : Phase → Nat
  | .created => 4
  | .prepared => 3
  | .running | .resuming | .suspended => 2
  | .finalizing => 1
  | .done => 0

namespace Machine

/-- The gas of all frames. -/
def gas (m : Machine L) : Nat :=
  m.top.gas.remaining + m.below.foldr (·.gas.remaining + ·) 0

/-- What is left to do: a unit of gas may pay for all steps of a frame and an instruction. -/
def work (m : Machine L) : Nat := 5 * m.gas + m.top.phase.stepsLeft + 2 * m.below.length

/-- The top frame can move on. -/
def IsLive (m : Machine L) : Prop := m.top.phase ≠ .suspended ∧ m.top.phase ≠ .done

/-- The top frame has just been put there. -/
def IsFresh (c : Context) (m : Machine L) : Prop :=
  ∃ message refund, m.top = .ofMessage message refund c.config.stackLimit

omit [Ledger L] in
/-- A new frame is created. -/
theorem IsFresh.phase {c : Context} {m : Machine L} (h : m.IsFresh c) : m.top.phase = .created := by
  obtain ⟨_, _, htop⟩ := h
  rw [htop]
  rfl

/-- The messages of all frames, latest first. -/
def messages (m : Machine L) : List Message := m.top.message :: m.below.map Frame.message

/-- Some steps, in which there are always at least so many frames below the top one. -/
inductive Steps (c : Context) (floor : Nat) : Machine L → Machine L → Prop where
  | refl (m : Machine L) : Steps c floor m m
  | tail {m m' m'' : Machine L} : Steps c floor m m' → m'.step c = .running m'' →
      floor ≤ m''.below.length → Steps c floor m m''

/-! ### Steps -/

omit [Ledger L] in
/-- What brings the top frame closer to its end leaves less work. -/
theorem work_lt {m m' : Machine L} (hbelow : m'.below = m.below)
    (h : 5 * m'.top.gas.remaining + m'.top.phase.stepsLeft <
      5 * m.top.gas.remaining + m.top.phase.stepsLeft) : m'.work < m.work := by
  unfold work gas
  rw [hbelow]
  omega

/-- Preparing brings a frame closer to its end. -/
theorem prepare_progress (c : Context) {m : Machine L} (h : m.top.phase = .created) :
    (m.prepare c).IsLive ∧ (m.prepare c).work < m.work := by
  have kept := (m.toLocal.attempt_prepare_frame c).1
  unfold prepare
  dsimp only
  cases (m.toLocal.attempt (Effect.prepare c)).1 with
  -- the phase moves two steps on, while the gas stays
  | none =>
    refine ⟨⟨nofun, nofun⟩, work_lt rfl ?_⟩
    change 5 * (m.toLocal.attempt (Effect.prepare c)).2.frame.gas.remaining + 3 < _
    rw [kept, h]
    exact Nat.lt_succ_self _
  | some e =>
    refine ⟨⟨nofun, nofun⟩, work_lt rfl ?_⟩
    change 5 * (m.toLocal.attempt (Effect.prepare c)).2.frame.gas.remaining + 1 < _
    rw [kept, h]
    exact Nat.add_lt_add_left (by decide) _

omit [Ledger L] in
/-- So does entering. -/
theorem enter_progress (c : Context) {m : Machine L} (h : m.top.phase = .prepared) :
    (m.enter c).IsLive ∧ (m.enter c).work < m.work := by
  unfold enter
  cases m.calledPrecompile c with
  | none =>
    refine ⟨⟨nofun, nofun⟩, work_lt rfl ?_⟩
    rw [h]
    exact Nat.lt_succ_self _
  | some p =>
    -- the answer of a precompile costs gas or none, and the frame comes to its end at once
    obtain ⟨gas, output, hgas, heq⟩ := m.top.answered_eq p
    dsimp only
    rw [Local.attempt_runPrecompile]
    dsimp only [toLocal]
    rw [heq]
    refine ⟨⟨nofun, nofun⟩, work_lt rfl ?_⟩
    rw [h]
    change 5 * gas.remaining + 1 < 5 * m.top.gas.remaining + 3
    omega

/-- So does a turn, since every instruction costs gas. -/
theorem runTop_progress (c : Context) {m : Machine L}
    (h : m.top.phase = .running ∨ m.top.phase = .resuming) :
    (m.runTop c).IsLive ∧ (m.runTop c).work < m.work := by
  have hsteps : m.top.phase.stepsLeft = 2 := by
    obtain h | h := h <;> rw [h] <;> rfl
  obtain ⟨⟨hkept, hgas⟩, -⟩ := Local.turn_onward c m.below
    { frame := { m.top with phase := .running }, ledger := m.ledger } m.trace
  unfold runTop
  dsimp only
  generalize Local.turn c m.below { frame := { m.top with phase := .running }, ledger := m.ledger }
    m.trace = r at hkept hgas
  obtain ⟨outcome, s, trace⟩ := r
  have hphase : s.frame.phase = .running := congrArg Frame.Activation.phase hkept
  change s.frame.gas.remaining + outcome.price ≤ m.top.gas.remaining at hgas
  cases outcome with
  | continues =>
    refine ⟨⟨by simp [hphase], by simp [hphase]⟩, work_lt rfl ?_⟩
    change 5 * s.frame.gas.remaining + s.frame.phase.stepsLeft < _
    rw [hsteps, hphase]
    change s.frame.gas.remaining + 1 ≤ _ at hgas
    simp only [Phase.stepsLeft]
    omega
  | halted =>
    refine ⟨⟨nofun, nofun⟩, work_lt rfl ?_⟩
    change 5 * s.frame.gas.remaining + 1 < _
    omega
  | failed e =>
    refine ⟨⟨nofun, nofun⟩, work_lt rfl ?_⟩
    change 5 * s.frame.gas.remaining + 1 < _
    omega
  | waits message k =>
    refine ⟨⟨nofun, nofun⟩, ?_⟩
    -- the gas of the child is paid for, and the unit on top covers the steps of the new frame
    change s.frame.gas.remaining + (message.gasLimit + 1) ≤ _ at hgas
    unfold work gas
    simp only [spawn, Frame.ofMessage, Meter.full, List.foldr_cons, List.length_cons]
    rw [hsteps]
    change _ + 4 + _ < _
    omega

/-- The end of a frame is the end of all, or the stack becomes lower. -/
theorem finalizeTop_progress (c : Context) {m : Machine L} (h : m.top.phase = .finalizing) :
    (∃ e, m.finalizeTop c = .done e) ∨
      ∃ m', m.finalizeTop c = .running m' ∧ m'.IsLive ∧ m'.work < m.work := by
  unfold finalizeTop
  dsimp only
  cases hbelow : m.below with
  | nil => exact .inl ⟨_, rfl⟩
  | cons parent below =>
    refine .inr ⟨_, rfl, ?_⟩
    have left := m.toLocal.finalize_gas c m.isRoot
    generalize m.toLocal.finalize c m.isRoot = r at left
    -- gas that is left goes back to the parent, and the stack is one frame lower
    have resumed := parent.resumed_resume r.2.frame.gas r.1
    generalize parent.resume r.2.frame.gas r.1 = top at resumed
    have hgas := resumed.gas
    change r.2.frame.gas.remaining ≤ m.top.gas.remaining at left
    obtain ⟨hphase, -⟩ | ⟨hphase, -⟩ := resumed.phase
    · refine ⟨⟨by simp [hphase], by simp [hphase]⟩, ?_⟩
      unfold work gas
      simp only [hphase, h, hbelow, List.foldr_cons, List.length_cons]
      simp only [Phase.stepsLeft]
      omega
    · refine ⟨⟨by simp [hphase], by simp [hphase]⟩, ?_⟩
      unfold work gas
      simp only [hphase, h, hbelow, List.foldr_cons, List.length_cons]
      simp only [Phase.stepsLeft]
      omega

/-- A machine that can move on is done, or has less left to do after its next step. -/
theorem step_progress (c : Context) {m : Machine L} (h : m.IsLive) :
    (∃ e, m.step c = .done e) ∨
      ∃ m', m.step c = .running m' ∧ m'.IsLive ∧ m'.work < m.work := by
  unfold step
  cases hp : m.top.phase with
  | created => exact .inr ⟨_, rfl, prepare_progress c hp⟩
  | prepared => exact .inr ⟨_, rfl, enter_progress c hp⟩
  | running => exact .inr ⟨_, rfl, runTop_progress c (.inl hp)⟩
  | resuming => exact .inr ⟨_, rfl, runTop_progress c (.inr hp)⟩
  | finalizing => exact finalizeTop_progress c hp
  | suspended => exact absurd hp h.1
  | done => exact absurd hp h.2

/-! ### Messages -/

/-- Preparing leaves the messages alone. -/
theorem messages_prepare (c : Context) (m : Machine L) : (m.prepare c).messages = m.messages := by
  have hmessage : (m.prepare c).top.message = m.top.message := by
    refine Eq.trans ?_ (m.toLocal.attempt_prepare_frame c).2
    unfold prepare
    dsimp only
    split <;> rfl
  unfold messages
  rw [hmessage]
  rfl

omit [Ledger L] in
/-- So does entering. -/
theorem messages_enter (c : Context) (m : Machine L) : (m.enter c).messages = m.messages := by
  unfold enter
  cases m.calledPrecompile c with
  | none => rfl
  | some p =>
    obtain ⟨gas, output, -, heq⟩ := m.top.answered_eq p
    dsimp only
    rw [Local.attempt_runPrecompile]
    dsimp only [toLocal]
    rw [heq]
    rfl

/-- A turn may add the message of a child. -/
theorem messages_runTop (c : Context) (m : Machine L) : m.messages <:+ (m.runTop c).messages := by
  obtain ⟨⟨hkept, -⟩, -⟩ := Local.turn_onward c m.below
    { frame := { m.top with phase := .running }, ledger := m.ledger } m.trace
  unfold runTop
  dsimp only
  generalize Local.turn c m.below { frame := { m.top with phase := .running }, ledger := m.ledger }
    m.trace = r at hkept
  obtain ⟨outcome, s, trace⟩ := r
  -- the frame keeps its message, so the messages change only where a child's is added
  have hmessage : m.top.message = s.frame.message :=
    (congrArg Frame.Activation.message hkept).symm
  unfold messages
  rw [hmessage]
  cases outcome with
  | continues => exact List.suffix_rfl
  | halted => exact List.suffix_rfl
  | failed e => exact List.suffix_rfl
  | waits message k => exact List.suffix_cons message _

/-- A step drops no message, or it pops the top frame. -/
theorem step_messages {c : Context} {m m' : Machine L} (h : m.step c = .running m') :
    m.messages <:+ m'.messages ∨
      m.top.phase = .finalizing ∧ m'.messages = m.messages.tail ∧
        m'.ledger = (m.toLocal.finalize c m.isRoot).2.ledger := by
  unfold step at h
  split at h
  · rw [← Progress.running.inj h, messages_prepare]
    exact .inl List.suffix_rfl
  · rw [← Progress.running.inj h, messages_enter]
    exact .inl List.suffix_rfl
  · rw [← Progress.running.inj h]
    exact .inl (messages_runTop c m)
  · rw [← Progress.running.inj h]
    exact .inl (messages_runTop c m)
  -- the only step that takes a message off is the one that hands a result down
  · rename_i hphase
    refine .inr ⟨hphase, ?_⟩
    unfold finalizeTop at h
    dsimp only at h
    unfold messages
    cases hbelow : m.below with
    | nil =>
      rw [hbelow] at h
      cases h
    | cons parent below =>
      rw [hbelow] at h
      rw [← Progress.running.inj h]
      refine ⟨?_, rfl⟩
      dsimp only
      rw [(parent.resumed_resume _ _).message]
      rfl
  · cases h
  · cases h

/-- The last step ends the first frame. -/
theorem step_done {c : Context} {m : Machine L} {x : Execution L} (h : m.step c = .done x) :
    m.top.phase = .finalizing ∧ m.below = [] ∧
      x.result = (m.toLocal.finalize c m.isRoot).1 ∧
      x.ledger = (m.toLocal.finalize c m.isRoot).2.ledger := by
  unfold step at h
  split at h
  · cases h
  · cases h
  · cases h
  · cases h
  · rename_i hphase
    unfold finalizeTop at h
    dsimp only at h
    split at h
    · rename_i hbelow
      rw [← Progress.done.inj h]
      exact ⟨hphase, hbelow, rfl, rfl⟩
    · cases h
  · cases h
  · cases h

omit [Ledger L] in
/-- There is a message for every frame. -/
theorem length_messages (m : Machine L) : m.messages.length = m.below.length + 1 := by
  simp [messages]

/-- The frames below the top one, and the top one itself, keep their messages. -/
theorem Steps.messages {c : Context} {floor : Nat} {m m' : Machine L} (h : Steps c floor m m')
    (hfloor : m.below.length ≤ floor) : m.messages <:+ m'.messages := by
  induction h with
  | refl => exact List.suffix_rfl
  | @tail m' m'' _ hstep hlow ih =>
    obtain hmore | ⟨-, hless, -⟩ := step_messages hstep
    · exact ih.trans hmore
    · -- both lists end the longer one, and the frame of concern is not the one that is popped
      refine List.suffix_of_suffix_length_le ih (hless ▸ List.tail_suffix _) ?_
      rw [length_messages, length_messages]
      omega

/-- Where the stack is as high as at first, the top frame is the same one. -/
theorem Steps.message {c : Context} {m m' : Machine L} (h : Steps c m.below.length m m')
    (hlength : m'.below.length = m.below.length) : m'.top.message = m.top.message := by
  have hall := (h.messages (Nat.le_refl _)).eq_of_length
    (by rw [length_messages, length_messages, hlength])
  exact (List.cons.inj hall).1.symm

/-! ### Runs -/

/-- A first step and those after it. -/
theorem Steps.head {c : Context} {floor : Nat} {m m' m'' : Machine L} (h : m.step c = .running m')
    (hfloor : floor ≤ m'.below.length) (k : Steps c floor m' m'') : Steps c floor m m'' := by
  induction k with
  | refl => exact .tail (.refl m) h hfloor
  | tail _ hstep hbelow ih => exact .tail ih hstep hbelow

/-- With enough fuel a run ends in a last step. -/
theorem runFor_eq (c : Context) {fuel : Nat} {m : Machine L} (hlive : m.IsLive)
    (hfuel : m.work < fuel) :
    ∃ m', Steps c 0 m m' ∧ m'.IsLive ∧ m'.step c = .done (runFor c fuel m) := by
  -- work goes down with each step, so fuel that exceeds it lasts
  induction fuel generalizing m with
  | zero => exact absurd hfuel (Nat.not_lt_zero _)
  | succ fuel ih =>
    unfold runFor
    obtain ⟨e, he⟩ | ⟨m', hm', hlive', hless⟩ := step_progress c hlive
    · rw [he]
      exact ⟨m, .refl m, hlive, he⟩
    · rw [hm']
      obtain ⟨last, hsteps, hlast, hdone⟩ := ih hlive' (by omega)
      exact ⟨last, hsteps.head hm' (Nat.zero_le _), hlast, hdone⟩

/-- A run of a message ends in a last step. -/
theorem run_eq (c : Context) (l : L) (t : Trace) (message : Message) :
    ∃ m, Steps c 0 (start c l t message) m ∧ m.IsLive ∧ m.step c = .done (run c l t message) := by
  refine runFor_eq c ⟨by simp [start, Frame.ofMessage], by simp [start, Frame.ofMessage]⟩ ?_
  simp [work, gas, start, Frame.ofMessage, Meter.full, Phase.stepsLeft, fuel]

end Machine

end Evm
