import Evm.Proofs.Instruction.Footprint
import Evm.Proofs.Machine.Progress

namespace Evm

/-!
# What an execution passes through

A message is executed by steps of the machine, from one with a single new frame to one whose step
ends that frame.  Facts about all executions are facts about the machines in between.

* `Machine.launch`, `Machine.Visited` — where an execution starts, and the machines it passes
  through.
* `Machine.Stepped` — all that a step can be.
* `Machine.Steps.linear` — the machine is deterministic.
* `Machine.Visited.iff_after` — the machines of an execution, counted.
* `Machine.execute_eq` — every execution comes to its end.
-/

variable {L : Type} [Ledger L]

namespace Machine

/-! ### Where an execution goes -/

/-- The machine at the start of an execution. -/
def launch (c : Context) (l : L) (message : Message) (observer : Observer) : Machine L :=
  let m := message.resolve l
  start c ((prewarmed c m).foldl (fun l a => (Ledger.accessAccount l a).2) l)
    { toObserver := observer } m

/-- An execution of the message passes through the machine. -/
structure Visited (c : Context) (l : L) (message : Message) (observer : Observer)
    (m : Machine L) : Prop where
  depth : message.depth ≤ c.config.maxCallDepth
  steps : Steps c 0 (launch c l message observer) m

section Executions

variable {c : Context} {l : L} {message : Message} {observer : Observer}

/-- An execution starts with a new frame. -/
theorem isFresh_launch : (launch c l message observer).IsFresh c := ⟨_, _, rfl⟩

/-- A message that is not nested too deeply comes to a last step, and its result is drawn from
    that. -/
theorem execute_eq (l : L) (observer : Observer) (hdepth : message.depth ≤ c.config.maxCallDepth) :
    ∃ last x, Visited c l message observer last ∧ last.IsLive ∧ last.step c = .done x ∧
      execute c l message observer =
        { x with
          result := x.result.withGrantedRefund c.fork (message.resolve l).gasLimit } := by
  obtain ⟨last, hsteps, hlive, hdone⟩ := run_eq c
    ((prewarmed c (message.resolve l)).foldl (fun l a => (Ledger.accessAccount l a).2) l)
    { toObserver := observer } (message.resolve l)
  refine ⟨last, _, ⟨hdepth, hsteps⟩, hlive, hdone, ?_⟩
  rw [execute, if_neg (Nat.not_lt.2 hdepth)]

/-- A message that is nested too deeply leaves everything alone. -/
theorem execute_of_depth (hdepth : c.config.maxCallDepth < message.depth) :
    execute c l message observer =
      { result := .failure (.callDepthExceeded message.depth c.config.maxCallDepth) 0
        ledger := l
        trace := { toObserver := observer } } := by
  rw [execute, if_pos hdepth]

end Executions

/-! ### What a step can be -/

/-- The top frame runs instructions. -/
def IsRunning (m : Machine L) : Prop := m.top.phase = .running ∨ m.top.phase = .resuming

/-- The top frame as it runs its next instruction. -/
def running (m : Machine L) : Local L :=
  { frame := { m.top with phase := .running }, ledger := m.ledger }

/-- The next instruction of the top frame. -/
def turn (c : Context) (m : Machine L) : Outcome × Local L × Trace :=
  m.running.turn c m.below m.trace

/-- The top frame runs the instruction next, if it can pay for it. -/
def Executes (c : Context) (m : Machine L) (i : Instruction) : Prop :=
  m.IsRunning ∧ m.top.nextInstruction c.fork = some i

/-- The machine once the top frame has had its turn. -/
def landed (m : Machine L) (s : Local L) (t : Trace) : Machine L :=
  { m with top := s.frame, ledger := s.ledger, trace := t }

/-- The machine once the result of the top frame is handed to its parent. -/
def handedTo (c : Context) (m : Machine L) (parent : Frame) (below : List Frame) : Machine L :=
  let (result, s) := m.toLocal.finalize c m.isRoot
  { top := parent.resume s.frame.gas result
    below
    ledger := s.ledger
    trace := m.trace.add (.frameEnd result.output result.gasUsed result.error) }

end Machine

/-- The outcome ends the frame, with a failure or without one. -/
inductive Outcome.Ends : Outcome → Option VmError → Prop where
  | halted : Ends .halted none
  | failed (e : VmError) : Ends (.failed e) (some e)

namespace Machine

/-- One step, by what it does. -/
inductive Stepped (c : Context) (m : Machine L) : Machine L → Prop where
  | prepares : m.top.phase = .created → Stepped c m (m.prepare c)
  | enters : m.top.phase = .prepared → Stepped c m (m.enter c)
  /-- An instruction, after which the frame goes on. -/
  | continues {s : Local L} {t : Trace} : m.IsRunning → m.turn c = (.continues, s, t) →
      Stepped c m (m.landed s t)
  /-- An instruction that ends the frame, or the end of the code. -/
  | ends {o : Outcome} {error : Option VmError} {s : Local L} {t : Trace} : m.IsRunning →
      m.turn c = (o, s, t) → o.Ends error → Stepped c m ((m.landed s t).withTop (s.frame.finish error))
  /-- An instruction that asks for a child. -/
  | spawns {message : Message} {k : Continuation} {s : Local L} {t : Trace} : m.IsRunning →
      m.turn c = (.waits message k, s, t) → Stepped c m ((m.landed s t).spawn c message k)
  | pops {parent : Frame} {below : List Frame} : m.top.phase = .finalizing →
      m.below = parent :: below → Stepped c m (m.handedTo c parent below)

variable {c : Context} {l : L} {message : Message} {observer : Observer} {m m' m'' : Machine L}

/-- A turn, and what its outcome makes of the machine. -/
theorem runTop_eq (c : Context) (m : Machine L) :
    m.runTop c =
      let landed := m.landed (m.turn c).2.1 (m.turn c).2.2
      match (m.turn c).1 with
      | .continues => landed
      | .halted => landed.withTop (landed.top.finish none)
      | .failed e => landed.withTop (landed.top.finish (some e))
      | .waits message k => landed.spawn c message k := rfl

/-- A turn is one of the kinds of steps. -/
theorem stepped_runTop (h : m.IsRunning) : Stepped c m (m.runTop c) := by
  rw [runTop_eq]
  generalize hturn : m.turn c = r
  obtain ⟨outcome, s, t⟩ := r
  cases outcome with
  | continues => exact .continues h hturn
  | halted => exact .ends h hturn .halted
  | failed e => exact .ends h hturn (.failed e)
  | waits message k => exact .spawns h hturn

/-- A frame that is put on the stack is prepared. -/
theorem step_of_created (hphase : m.top.phase = .created) : m.step c = .running (m.prepare c) := by
  rw [step, hphase]

/-- A frame that runs takes a turn in each step. -/
theorem step_of_isRunning (hphase : m.IsRunning) : m.step c = .running (m.runTop c) := by
  unfold step
  obtain h | h := hphase <;> rw [h]

/-- A frame that has come to its end hands its result to the frame below. -/
theorem step_of_finalizing {parent : Frame} {below : List Frame}
    (hphase : m.top.phase = .finalizing) (hbelow : m.below = parent :: below) :
    m.step c = .running (m.handedTo c parent below) := by
  rw [step, hphase]
  dsimp only
  unfold finalizeTop
  dsimp only
  rw [hbelow]
  rfl

/-- Every step is of one of these kinds. -/
theorem step_cases (h : m.step c = .running m') : Stepped c m m' := by
  -- one case for each phase; a frame that waits or has resumed nothing cannot step
  unfold step at h
  split at h
  · rename_i hphase
    exact Progress.running.inj h ▸ .prepares hphase
  · rename_i hphase
    exact Progress.running.inj h ▸ .enters hphase
  · rename_i hphase
    exact Progress.running.inj h ▸ stepped_runTop (.inl hphase)
  · rename_i hphase
    exact Progress.running.inj h ▸ stepped_runTop (.inr hphase)
  · rename_i hphase
    unfold finalizeTop at h
    dsimp only at h
    split at h
    · cases h
    · rename_i parent below hbelow
      exact Progress.running.inj h ▸ .pops hphase hbelow
  · cases h
  · cases h

/-! ### What a turn does -/

/-- A turn keeps all of its frame that lasts, pays the price of its outcome, and asks at most for a
    child of the frame. -/
theorem turn_onward {o : Outcome} {s : Local L} {t : Trace} (h : m.turn c = (o, s, t)) :
    m.running.frame.Onward o.price s.frame ∧ o.IsFrom m.top.message := by
  have honward := m.running.turn_onward c m.below m.trace
  change m.running.frame.Onward (m.turn c).1.price (m.turn c).2.1.frame ∧
    (m.turn c).1.IsFrom m.top.message at honward
  rwa [h] at honward

/-- After its turn a frame is still running. -/
theorem turn_phase {o : Outcome} {s : Local L} {t : Trace} (h : m.turn c = (o, s, t)) :
    s.frame.phase = .running :=
  congrArg Frame.Activation.phase (turn_onward h).1.activation

/-- A turn leaves the message alone. -/
theorem turn_message {o : Outcome} {s : Local L} {t : Trace} (h : m.turn c = (o, s, t)) :
    s.frame.message = m.top.message := by
  show _ = m.running.frame.message
  exact Frame.message_eq_of_activation (turn_onward h).1.activation

/-- A turn does nothing, or what the next instruction does. -/
theorem turn_did {o : Outcome} {s : Local L} {t : Trace} (h : m.turn c = (o, s, t)) :
    s = m.running ∨ ∃ i, m.top.nextInstruction c.fork = some i ∧ m.running.Did i s := by
  have hdid := m.running.turn_did c m.below m.trace
  change (m.turn c).2.1 = _ ∨ ∃ i, _ ∧ m.running.Did i (m.turn c).2.1 at hdid
  rwa [h] at hdid

/-! ### What a step does to the stack -/

omit [Ledger L] in
/-- A turn concerns the top frame. -/
@[simp] theorem landed_below (m : Machine L) (s : Local L) (t : Trace) :
    (m.landed s t).below = m.below := rfl

omit [Ledger L] in
/-- So does whatever is done to the top frame. -/
@[simp] theorem withTop_below (m : Machine L) (f : Frame) : (m.withTop f).below = m.below := rfl

/-- Preparing concerns the top frame. -/
@[simp] theorem prepare_below (c : Context) (m : Machine L) : (m.prepare c).below = m.below := rfl

omit [Ledger L] in
/-- Entering concerns the top frame. -/
@[simp] theorem enter_below (c : Context) (m : Machine L) : (m.enter c).below = m.below := by
  unfold enter
  split <;> rfl

omit [Ledger L] in
/-- Nothing is shown when a frame is entered, also where a precompiled contract answers. -/
@[simp] theorem enter_trace (c : Context) (m : Machine L) : (m.enter c).trace = m.trace := by
  unfold enter
  split <;> rfl

/-- A step keeps the stack, puts a new frame on top of it, or pops the top frame. -/
theorem step_below (h : m.step c = .running m') :
    m'.below = m.below ∨
      (m'.IsFresh c ∧ ∃ waiting, m'.below = waiting :: m.below) ∨
      (m.top.phase = .finalizing ∧ ∃ parent, m.below = parent :: m'.below) := by
  cases step_cases h with
  | prepares hphase => exact .inl rfl
  | enters hphase => exact .inl (enter_below c m)
  | continues hrun hturn => exact .inl rfl
  | ends hrun hturn hends => exact .inl rfl
  | spawns hrun hturn => exact .inr (.inl ⟨⟨_, _, rfl⟩, _, rfl⟩)
  | pops hphase hbelow => exact .inr (.inr ⟨hphase, _, hbelow⟩)

/-- A step puts one frame on the stack at most, and pops one at most. -/
theorem step_length (h : m.step c = .running m') :
    m'.below.length ≤ m.below.length + 1 ∧ m.below.length ≤ m'.below.length + 1 := by
  obtain h | ⟨-, _, h⟩ | ⟨-, _, h⟩ := step_below h
  · rw [h]
    omega
  · rw [h, List.length_cons]
    omega
  · rw [h, List.length_cons]
    omega

/-- A step that puts a child on the stack is a request of a running frame. -/
theorem Stepped.exists_request (h : Stepped c m m')
    (hhigher : m'.below.length = m.below.length + 1) :
    ∃ message k s t, m.IsRunning ∧ m.turn c = (.waits message k, s, t) ∧
      m' = (m.landed s t).spawn c message k := by
  cases h with
  | spawns hrun hturn => exact ⟨_, _, _, _, hrun, hturn, rfl⟩
  | prepares | continues | ends => exact absurd hhigher.symm (Nat.succ_ne_self _)
  | enters =>
    rw [enter_below] at hhigher
    exact absurd hhigher.symm (Nat.succ_ne_self _)
  | @pops parent below _ hpop =>
    rw [hpop] at hhigher
    have hless : below.length = below.length + 1 + 1 := hhigher
    omega

/-- A parent that has taken in its child goes on or ends. -/
theorem handedTo_phase (c : Context) (m : Machine L) (parent : Frame) (below : List Frame) :
    (m.handedTo c parent below).top.phase = .resuming ∨
      (m.handedTo c parent below).top.phase = .finalizing :=
  (parent.resumed_resume _ _).phase.imp And.left And.left

/-- A frame that has been created and nothing else has just been put on the stack. -/
theorem Stepped.isFresh (h : Stepped c m m') (hphase : m'.top.phase = .created) :
    m'.IsFresh c ∧ m'.below.length = m.below.length + 1 := by
  -- only the step that sends a message leaves a frame that is yet to be prepared
  cases h with
  | prepares _ =>
    unfold prepare at hphase
    dsimp only at hphase
    split at hphase <;> cases hphase
  | enters _ =>
    unfold enter at hphase
    split at hphase <;> cases hphase
  | continues _ hturn => exact absurd ((turn_phase hturn).symm.trans hphase) nofun
  | ends _ _ _ => cases hphase
  | spawns _ _ => exact ⟨⟨_, _, rfl⟩, rfl⟩
  | @pops parent below _ _ =>
    rcases m.handedTo_phase c parent below with h | h
    · exact absurd (h.symm.trans hphase) nofun
    · exact absurd (h.symm.trans hphase) nofun

/-! ### Several steps -/

namespace Steps

variable {floor low : Nat}

/-- Steps come one after another. -/
theorem trans (h : Steps c floor m m') (k : Steps c floor m' m'') : Steps c floor m m'' := by
  induction k with
  | refl => exact h
  | tail _ hstep hfloor ih => exact .tail ih hstep hfloor

/-- Frames that stay under a higher floor stay under a lower one. -/
theorem weaken (h : Steps c floor m m') (hlow : low ≤ floor) : Steps c low m m' := by
  induction h with
  | refl => exact .refl _
  | tail _ hstep hfloor ih => exact .tail ih hstep (Nat.le_trans hlow hfloor)

/-- Steps lead nowhere, or there is a first one. -/
theorem cases_head (h : Steps c floor m m'') :
    m'' = m ∨ ∃ m', m.step c = .running m' ∧ floor ≤ m'.below.length ∧ Steps c floor m' m'' := by
  induction h with
  | refl => exact .inl rfl
  | tail _ hstep hfloor ih =>
    obtain rfl | ⟨m₁, hfirst, hfloor₁, hrest⟩ := ih
    · exact .inr ⟨_, hstep, hfloor, .refl _⟩
    · exact .inr ⟨m₁, hfirst, hfloor₁, .tail hrest hstep hfloor⟩

/-- Frames that stay are there at the end. -/
theorem floor_le (h : Steps c floor m m') (hfloor : floor ≤ m.below.length) :
    floor ≤ m'.below.length := by
  cases h with
  | refl => exact hfloor
  | tail _ _ hfloor => exact hfloor

/-- Of two machines that steps lead to from one place, one comes before the other. -/
theorem linear (h : Steps c floor m m') (k : Steps c floor m m'') :
    Steps c floor m' m'' ∨ Steps c floor m'' m' := by
  induction h with
  | refl => exact .inl k
  | @tail m' m₁ _ hstep hfloor ih =>
    obtain before | after := ih
    · obtain rfl | ⟨m₂, hfirst, -, hrest⟩ := before.cases_head
      · exact .inr (.tail (.refl _) hstep hfloor)
      · -- there is only one step that a machine can take
        rw [hstep] at hfirst
        exact .inl (Progress.running.inj hfirst ▸ hrest)
    · exact .inr (.tail after hstep hfloor)

/-- Nothing follows the end of the lowest frame while it stays on the stack. -/
theorem eq_of_finalizing (h : Steps c m.below.length m m') (hphase : m.top.phase = .finalizing) :
    m' = m := by
  obtain h | ⟨m₁, hstep, hfloor, -⟩ := h.cases_head
  · exact h
  · cases step_cases hstep with
    | prepares hcreated => exact absurd (hphase.symm.trans hcreated) nofun
    | enters hprepared => exact absurd (hphase.symm.trans hprepared) nofun
    | continues hrun _ | ends hrun _ _ | spawns hrun _ =>
      exact hrun.elim (fun h => absurd (hphase.symm.trans h) nofun)
        fun h => absurd (hphase.symm.trans h) nofun
    | pops _ hbelow =>
      rw [hbelow] at hfloor
      exact absurd hfloor (Nat.not_succ_le_self _)

/-- A frame comes to one end. -/
theorem unique_end {last last' : Machine L} (h : Steps c floor m last) (k : Steps c floor m last')
    (hlast : last.below.length = floor) (hlast' : last'.below.length = floor)
    (hphase : last.top.phase = .finalizing) (hphase' : last'.top.phase = .finalizing) :
    last' = last := by
  obtain h | h := h.linear k
  · exact eq_of_finalizing (hlast ▸ h) hphase
  · exact (eq_of_finalizing (hlast' ▸ h) hphase').symm

end Steps

/-! ### So many steps -/

/-- The machine after so many steps, or after the last one. -/
def after (c : Context) : Nat → Machine L → Machine L
  | 0, m => m
  | n + 1, m =>
    match m.step c with
    | .running m' => after c n m'
    | _ => m

/-- The first of several steps. -/
theorem after_succ (n : Nat) (h : m.step c = .running m') : m.after c (n + 1) = m'.after c n := by
  rw [after, h]

/-- Where there is no further step the machine stays as it is. -/
theorem after_of_not_running (n : Nat) (h : ∀ m', m.step c ≠ .running m') : m.after c n = m := by
  cases n with
  | zero => rfl
  | succ n =>
    rw [after]
    split
    · rename_i hstep
      exact absurd hstep (h _)
    · rfl

/-- Several steps lead through machines under which there are enough frames. -/
theorem steps_after {floor : Nat} (n : Nat) (m : Machine L)
    (hfloor : ∀ k ≤ n, floor ≤ (m.after c k).below.length) : Steps c floor m (m.after c n) := by
  induction n generalizing m with
  | zero => exact .refl m
  | succ n ih =>
    by_cases h : ∃ m', m.step c = .running m'
    · obtain ⟨m', hstep⟩ := h
      have hrest (k : Nat) (hk : k ≤ n) : floor ≤ (m'.after c k).below.length :=
        after_succ k hstep ▸ hfloor (k + 1) (Nat.succ_le_succ hk)
      rw [after_succ n hstep]
      exact (ih m' hrest).head hstep (hrest 0 (Nat.zero_le _))
    · rw [after_of_not_running (n + 1) fun m' hstep => h ⟨m', hstep⟩]
      exact .refl m

/-- A further step comes last, and is counted first. -/
theorem after_step (n : Nat) (m : Machine L) (h : (m.after c n).step c = .running m') :
    m.after c (n + 1) = m' := by
  induction n generalizing m with
  | zero => exact after_succ 0 h
  | succ n ih =>
    by_cases hfirst : ∃ m₁, m.step c = .running m₁
    · obtain ⟨m₁, hfirst⟩ := hfirst
      rw [after_succ n hfirst] at h
      rw [after_succ (n + 1) hfirst]
      exact ih m₁ h
    · rw [after_of_not_running (n + 1) fun m₁ h₁ => hfirst ⟨m₁, h₁⟩] at h
      exact absurd ⟨_, h⟩ hfirst

/-- Steps are counted one after another. -/
theorem after_add (k n : Nat) (m : Machine L) : m.after c (k + n) = (m.after c k).after c n := by
  induction k generalizing m with
  | zero => rw [Nat.zero_add, after]
  | succ k ih =>
    rw [Nat.succ_add]
    by_cases h : ∃ m', m.step c = .running m'
    · obtain ⟨m', hstep⟩ := h
      rw [after_succ _ hstep, after_succ _ hstep, ih m']
    · have hend : ∀ m', m.step c ≠ .running m' := fun m' hstep => h ⟨m', hstep⟩
      rw [after_of_not_running _ hend, after_of_not_running _ hend, after_of_not_running _ hend]

/-- One more step leads on, or there is none. -/
theorem after_succ_cases (c : Context) (m : Machine L) (n : Nat) :
    m.after c (n + 1) = m.after c n ∨ (m.after c n).step c = .running (m.after c (n + 1)) := by
  by_cases h : ∃ m', (m.after c n).step c = .running m'
  · obtain ⟨m', hstep⟩ := h
    rw [after_step n m hstep]
    exact .inr hstep
  · rw [after_add, after_of_not_running 1 fun m' hstep => h ⟨m', hstep⟩]
    exact .inl rfl

/-- Where steps lead, a number of them leads. -/
theorem Steps.exists_after {floor : Nat} (h : Steps c floor m m') : ∃ n, m' = m.after c n := by
  induction h with
  | refl => exact ⟨0, rfl⟩
  | tail _ hstep _ ih =>
    obtain ⟨n, rfl⟩ := ih
    exact ⟨n + 1, (after_step n m hstep).symm⟩

namespace Visited

/-- An execution passes through the machines that single steps lead to, and no others. -/
theorem iff_after : Visited c l message observer m ↔
    message.depth ≤ c.config.maxCallDepth ∧ ∃ n, m = (launch c l message observer).after c n := by
  constructor
  · intro ⟨hdepth, hsteps⟩
    exact ⟨hdepth, hsteps.exists_after⟩
  · rintro ⟨hdepth, n, rfl⟩
    exact ⟨hdepth, steps_after n _ fun _ _ => Nat.zero_le _⟩

/-- An execution that has come to its end after so many steps has passed through nothing else. -/
theorem exists_le {k : Nat} (h : Visited c l message observer m)
    (hend : ∀ m', ((launch c l message observer).after c k).step c ≠ .running m') :
    ∃ n ≤ k, m = (launch c l message observer).after c n := by
  obtain ⟨-, n, rfl⟩ := iff_after.1 h
  obtain hn | hn := Nat.le_total n k
  · exact ⟨n, hn, rfl⟩
  · obtain ⟨j, rfl⟩ := Nat.exists_eq_add_of_le hn
    exact ⟨k, Nat.le_refl k, by rw [after_add, after_of_not_running j hend]⟩

/-- What holds at the start and survives each step holds throughout an execution. -/
theorem invariant {I : Machine L → Prop} (h : Visited c l message observer m)
    (hlaunch : I (launch c l message observer))
    (hstep : ∀ m m', I m → Stepped c m m' → I m') : I m := by
  obtain ⟨-, hsteps⟩ := h
  induction hsteps with
  | refl => exact hlaunch
  | tail _ hrun _ ih => exact hstep _ _ ih (step_cases hrun)

/-- All that an execution passes through leads to its end. -/
theorem steps_to_end {last : Machine L} {x : Execution L} (h : Visited c l message observer m)
    (hlast : Visited c l message observer last) (hdone : last.step c = .done x) :
    Steps c 0 m last := by
  rcases h.steps.linear hlast.steps with before | after
  · exact before
  · -- nothing comes after the end
    rcases after.cases_head with rfl | ⟨m₁, hstep, -⟩
    · exact .refl _
    · rw [hdone] at hstep
      cases hstep

/-- A frame that is created is new. -/
theorem isFresh (h : Visited c l message observer m) (hphase : m.top.phase = .created) :
    m.IsFresh c :=
  h.invariant (I := fun m : Machine L => m.top.phase = .created → m.IsFresh c)
    (fun _ => isFresh_launch) (fun _ _ _ hstep hnew => (hstep.isFresh hnew).1) hphase

/-- A frame that is yet to be prepared is the first one, or the frame below it has just asked for
    it. -/
theorem first_or_asked (h : Visited c l message observer m) (hphase : m.top.phase = .created) :
    m = launch c l message observer ∨ ∃ w child k s t, Visited c l message observer w ∧
      w.step c = .running m ∧ w.turn c = (.waits child k, s, t) ∧
      m = (w.landed s t).spawn c child k := by
  cases h.steps with
  | refl => exact .inl rfl
  | @tail w _ hsteps hstep _ =>
    have hstepped := step_cases hstep
    obtain ⟨child, k, s, t, -, hturn, hspawned⟩ :=
      hstepped.exists_request (hstepped.isFresh hphase).2
    exact .inr ⟨w, child, k, s, t, ⟨h.depth, hsteps⟩, hstep, hturn, hspawned⟩

end Visited

end Machine

end Evm
