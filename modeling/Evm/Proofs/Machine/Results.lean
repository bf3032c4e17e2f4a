import Evm.Proofs.Instruction.Causes
import Evm.Proofs.Machine.FrameStack
import Evm.Proofs.Machine.Induction
import Evm.Proofs.Machine.Termination

namespace Evm

/-!
# Results keep the rules

Whatever the ledger does, even if it refuses to settle a snapshot, the result of a message breaks
no rule, and its parts fit together: status and error, refund and gas, output and created address.
Once an instruction has run, only a rollback that the code asks for leaves gas.

* `ExecutionResult.IsSound` — the parts of a result fit together.
* `Local.finalize_isSound` — so they do at the end of every frame.
* `Machine.Blames` — what a frame that is alone on the stack has failed for.
* `results_sound` — the results of messages.
-/

/-- The parts of the result of a message with so much gas fit together. -/
structure ExecutionResult.IsSound (limit : Nat) (isCreate : Bool) (r : ExecutionResult) :
    Prop where
  success : r.status = .success ↔ r.error = none
  reverted : r.status = .reverted ↔ r.error = some .revert
  gasUsed : r.gasUsed ≤ limit
  forfeited {e : VmError} : r.error = some e → e.consumesAllGas = true → r.gasUsed = limit
  effects : r.status ≠ .success → r.logs = #[] ∧ r.selfDestructs = #[]
  created : r.createdAddress.isSome = true ↔ r.status = .success ∧ isCreate = true
  silent : r.status = .failed ∨ r.status = .success ∧ isCreate = true → r.output = #[]

/-- What a frame fails with that has come to its end without a failure: its code may not be
    deposited, or the ledger refuses to settle. -/
def VmError.IsRefusal : VmError → Prop
  | reservedCode | codeSizeExceeded _ _ | outOfGas | state _ => True
  | _ => False

/-- A refusal uses up the gas. -/
theorem VmError.IsRefusal.consumesAllGas {e : VmError} (h : e.IsRefusal) :
    e.consumesAllGas = true := by
  cases e <;> first | rfl | exact h.elim

variable {L : Type} [Ledger L]

/-! ### The end of a frame -/

namespace Local

variable {c : Context} {s : Local L}

/-- Depositing code takes the output, and code may be refused. -/
theorem attempt_depositCode_cases (c : Context) (s : Local L) :
    (s.attempt (Effect.depositCode c)).2.frame.gas.limit = s.frame.gas.limit ∧
      (s.attempt (Effect.depositCode c)).2.frame.output = #[] ∧
      ∀ e, (s.attempt (Effect.depositCode c)).1 = some e → e.IsRefusal := by
  have attempted := s.depositAttempt c
  generalize s.attempt (Effect.depositCode c) = r at attempted ⊢
  cases attempted with
  | reserved | tooLong | unpaid => exact ⟨rfl, rfl, fun e he => Option.some.inj he ▸ trivial⟩
  | dropped => exact ⟨rfl, rfl, nofun⟩
  | paid _ _ hpaid => exact ⟨(Meter.consume_eq_ok_iff.1 hpaid).1, rfl, nofun⟩

/-- Depositing code leaves the limit of the frame. -/
theorem deposited_limit (c : Context) (s : Local L) :
    (s.deposited c).2.frame.gas.limit = s.frame.gas.limit := by
  unfold deposited
  split
  · rfl
  · split
    · exact (s.attempt_depositCode_cases c).1
    · rfl

/-- A frame that has failed deposits nothing. -/
theorem deposited_error {e : VmError} (h : s.frame.error = some e) :
    (s.deposited c).1 = some e := by
  rw [deposited, h]

/-- A frame that has not failed before fails for its code. -/
theorem deposited_refused {e : VmError} (hnone : s.frame.error = none)
    (h : (s.deposited c).1 = some e) : e.IsRefusal := by
  rw [deposited, hnone] at h
  dsimp only at h
  split at h
  · exact (s.attempt_depositCode_cases c).2.2 e h
  · cases h

/-- A creation that has not failed leaves no output. -/
theorem deposited_output (hcreate : s.frame.message.isCreate = true)
    (h : (s.deposited c).1 = none) : (s.deposited c).2.frame.output = #[] := by
  cases hnone : s.frame.error with
  | some e =>
    rw [deposited_error hnone] at h
    cases h
  | none =>
    rw [deposited, hnone]
    dsimp only
    rw [if_pos hcreate]
    exact (s.attempt_depositCode_cases c).2.1

/-- A ledger that refuses to settle makes a frame fail that has not failed before, and is ignored
    else. -/
theorem settle_error (s : Local L) (error : Option VmError) :
    (s.settle error).1 = error ∨
      error = none ∧ ∃ cause, (s.settle error).1 = some (.state cause) := by
  unfold settle
  split
  · exact .inl rfl
  · dsimp only
    split
    · exact .inl rfl
    · rename_i cause _ _
      cases error with
      | none => exact .inr ⟨rfl, cause, rfl⟩
      | some e => exact .inl rfl

/-- Why a frame has failed in the end, if it has. -/
def finalError (c : Context) (isRoot : Bool) (s : Local L) : Option VmError :=
  (((s.deposited c).2.swept isRoot (s.deposited c).1).settle (s.deposited c).1).1

/-- A frame that has failed keeps its error. -/
theorem finalError_of_error (isRoot : Bool) {e : VmError} (h : s.frame.error = some e) :
    s.finalError c isRoot = some e := by
  unfold finalError
  rw [deposited_error h]
  rcases settle_error ((s.deposited c).2.swept isRoot (some e)) (some e) with hsame | ⟨hnone, -⟩
  · exact hsame
  · cases hnone

/-- What has not failed in the end has not failed before. -/
theorem deposited_of_finalError {isRoot : Bool} (h : s.finalError c isRoot = none) :
    s.frame.error = none ∧ (s.deposited c).1 = none := by
  constructor
  · cases herror : s.frame.error with
    | none => rfl
    | some e =>
      rw [finalError_of_error isRoot herror] at h
      cases h
  · rcases settle_error ((s.deposited c).2.swept isRoot (s.deposited c).1) (s.deposited c).1 with
      hsame | ⟨hdeposited, -⟩
    · exact hsame.symm.trans h
    · exact hdeposited

/-- One that only fails at its end is refused. -/
theorem finalError_refused {isRoot : Bool} {e : VmError} (hnone : s.frame.error = none)
    (h : s.finalError c isRoot = some e) : e.IsRefusal := by
  unfold finalError at h
  rcases settle_error ((s.deposited c).2.swept isRoot (s.deposited c).1) (s.deposited c).1 with
    hsame | ⟨-, cause, hrefused⟩
  · exact deposited_refused hnone (hsame ▸ h)
  · rw [hrefused] at h
    cases h
    trivial

/-- So any other failure has come before. -/
theorem error_of_finalError {isRoot : Bool} {e : VmError} (h : s.finalError c isRoot = some e)
    (hother : ¬ e.IsRefusal) : s.frame.error = some e := by
  cases herror : s.frame.error with
  | none => exact absurd (finalError_refused herror h) hother
  | some cause => exact (finalError_of_error isRoot herror).symm.trans h

/-- The result is drawn once the code is deposited, and so is the gas that is left. -/
theorem finalize_drawn (c : Context) (isRoot : Bool) (s : Local L) :
    ∃ t : Local L, (s.finalize c isRoot).1 = (t.conclude (s.finalError c isRoot)).1 ∧
      (s.finalize c isRoot).2.frame.gas = (t.conclude (s.finalError c isRoot)).2.frame.gas ∧
      t.frame = (s.deposited c).2.frame := by
  refine ⟨(((s.deposited c).2.swept isRoot (s.deposited c).1).settle (s.deposited c).1).2, ?_, ?_, ?_⟩
  · rw [finalize_eq]
    rfl
  · rw [finalize_eq]
    rfl
  · rw [settle_frame, swept_frame]

/-- The result is drawn from the final error and from the frame once its code is deposited. -/
theorem finalize_result (c : Context) (isRoot : Bool) (s : Local L) :
    ∃ t : Local L, (s.finalize c isRoot).1 = (t.conclude (s.finalError c isRoot)).1 ∧
      t.frame = (s.deposited c).2.frame := by
  obtain ⟨t, hresult, -, hframe⟩ := s.finalize_drawn c isRoot
  exact ⟨t, hresult, hframe⟩

omit [Ledger L] in
/-- A failure that is no rollback has used all gas, or what has been spent. -/
theorem conclude_of_error (t : Local L) {e : VmError} (hrevert : e ≠ .revert) :
    (t.conclude (some e)).1 =
        .failure e (if e.consumesAllGas then t.frame.gas.limit else t.frame.gas.used) ∧
      (t.conclude (some e)).2.frame.gas.remaining =
        if e.consumesAllGas then 0 else t.frame.gas.remaining := by
  unfold conclude
  split
  · rename_i hnone
    cases hnone
  · rename_i hsome
    exact absurd (Option.some.inj hsome) hrevert
  · rename_i hsome
    cases hsome
    dsimp only
    split <;> exact ⟨rfl, rfl⟩

omit [Ledger L] in
/-- The result that is drawn from a frame, which has no output left if it creates a contract. -/
theorem conclude_isSound (t : Local L) (error : Option VmError)
    (houtput : error = none → t.frame.message.isCreate = true → t.frame.output = #[]) :
    (t.conclude error).1.IsSound t.frame.gas.limit t.frame.message.isCreate ∧
      (t.conclude error).1.error = error := by
  unfold conclude
  -- success, a revert and every other failure build the result in three different ways
  split
  · refine ⟨?_, rfl⟩
    exact {
      success := by simp
      reverted := by simp
      gasUsed := t.frame.gas.used_le_limit
      forfeited := nofun
      effects := by simp
      created := by cases hcreate : t.frame.message.isCreate <;> simp [hcreate]
      silent := by
        rintro (hfailed | ⟨-, hcreate⟩)
        · cases hfailed
        · exact houtput rfl hcreate }
  · refine ⟨?_, rfl⟩
    exact {
      success := by simp [ExecutionResult.reverted]
      reverted := by simp [ExecutionResult.reverted]
      gasUsed := t.frame.gas.used_le_limit
      forfeited := by
        rintro _ ⟨⟩ hgas
        cases hgas
      effects := fun _ => ⟨rfl, rfl⟩
      created := by simp [ExecutionResult.reverted]
      silent := by simp [ExecutionResult.reverted] }
  · rename_i e hrevert
    refine ⟨?_, rfl⟩
    exact {
      success := by simp [ExecutionResult.failure]
      reverted := by simpa [ExecutionResult.failure] using hrevert
      gasUsed := by
        refine Nat.le_trans (Meter.used_le_limit _) (Nat.le_of_eq ?_)
        split <;> rfl
      forfeited := by
        rintro _ ⟨⟩ hgas
        show Meter.used _ = _
        rw [if_pos hgas]
        rfl
      effects := fun _ => ⟨rfl, rfl⟩
      created := by simp [ExecutionResult.failure]
      silent := fun _ => rfl }

/-- The parts of the result fit together at the end of every frame. -/
theorem finalize_isSound (c : Context) (isRoot : Bool) (s : Local L) :
    (s.finalize c isRoot).1.IsSound s.frame.gas.limit s.frame.message.isCreate ∧
      (s.finalize c isRoot).1.error = s.finalError c isRoot := by
  obtain ⟨t, hresult, hframe⟩ := s.finalize_result c isRoot
  obtain ⟨gas, output, -, heq⟩ := s.deposited_frame c
  have hlimit : t.frame.gas.limit = s.frame.gas.limit := by rw [hframe, s.deposited_limit c]
  have hmessage : t.frame.message = s.frame.message := by rw [hframe, heq]
  have hdrawn := t.conclude_isSound (s.finalError c isRoot) fun hnone hcreate => ?_
  · rw [hresult]
    rwa [hlimit, hmessage] at hdrawn
  · rw [hframe]
    exact deposited_output (hmessage ▸ hcreate) (deposited_of_finalError hnone).2

end Local

namespace Machine

variable {c : Context} {l : L} {message : Message} {observer : Observer} {depth : Nat}
  {m m' : Machine L}

/-! ### Gas -/

/-- Frames are given what their messages say. -/
theorem lasting_limit : Lasting L c fun f => f.gas.limit = f.message.gasLimit where
  prepare {m} _ hm := by rw [m.prepare_gas c, (m.prepare_records c).1, hm]
  enter {m} hm := by rw [(m.enter_gas c).1, (m.enter_records c).1, hm]
  turn h hm := by rw [(turn_gas h).1, turn_message h, hm]
  finish _ hf := hf
  suspend _ hf := hf
  child _ _ _ := rfl
  resume {m parent below} _ hparent := by
    rw [(m.handedTo_gas c parent below).1, (m.handedTo_records c parent below).1, hparent]

/-- Where the first frame is alone on the stack, it has the message and its gas. -/
theorem Visited.first (h : Visited c l message observer m) (hbelow : m.below = []) :
    m.top.message = message.resolve l ∧ m.top.gas.limit = message.gasLimit := by
  have hcourse := h.course hbelow
  have hmessage : m.top.message = message.resolve l := hcourse.message
  refine ⟨hmessage, ?_⟩
  rw [lasting_limit.course hcourse rfl, hmessage, message.gasLimit_resolve l]

/-! ### Instructions -/

/-- Instructions are not forgotten. -/
theorem Stepped.opcodes_le (h : Stepped c m m') : m.trace.opcodes ≤ m'.trace.opcodes := by
  -- a turn adds to the count of the instructions, and nothing else does
  have counted {o : Outcome} {s : Local L} {t : Trace} (hturn : m.turn c = (o, s, t)) :
      m.trace.opcodes ≤ t.opcodes := by
    have hshown := m.turn_shown c
    rw [hturn] at hshown
    exact hshown.le_opcodes
  cases h with
  | prepares _ => exact Nat.le_of_eq (by simp [prepare])
  | enters _ => exact Nat.le_of_eq (by rw [enter_trace])
  | continues _ hturn => exact counted hturn
  | ends _ hturn _ => exact counted hturn
  | spawns _ hturn => exact counted hturn
  | pops _ _ => exact Nat.le_of_eq (by simp [handedTo])

/-- Steps take no instruction back. -/
theorem Steps.opcodes_le {floor : Nat} (h : Steps c floor m m') :
    m.trace.opcodes ≤ m'.trace.opcodes := by
  induction h with
  | refl => exact Nat.le_refl _
  | tail _ hstep _ ih => exact Nat.le_trans ih (step_cases hstep).opcodes_le

/-- A running frame that is not at the end of its code starts an instruction. -/
theorem IsRunning.exists_step (h : m.IsRunning) (hcode : m.top.program.current ≠ none) :
    ∃ m', m.step c = .running m' ∧ 0 < m'.trace.opcodes := by
  refine ⟨m.runTop c, ?_, ?_⟩
  · rcases h with hphase | hphase
    · rw [step, hphase]
    · rw [step, hphase]
  · have started : 0 < (m.turn c).2.2.opcodes := by
      obtain ⟨b, hb⟩ := Option.ne_none_iff_exists'.1 hcode
      rw [turn, m.running.turn_opcodes c m.below m.trace hb]
      exact Nat.succ_pos _
    rw [runTop_eq]
    dsimp only
    split <;> exact started

/-! ### Why the first frame fails -/

/-- A parent that has waited for its child goes on. -/
theorem Stacked.resumes (h : m.Stacked c depth) {parent : Frame} {below : List Frame}
    (hbelow : m.below = parent :: below) :
    (m.handedTo c parent below).top.phase = .resuming :=
  ((List.forall_mem_cons.1 (hbelow ▸ h.below)).1.resume _ _).1

/-- A frame that is alone on the stack has run no instruction before it runs.  If it has ended after
    one, it has asked for a rollback or uses all gas. -/
structure Blames (m : Machine L) : Prop where
  before : m.below = [] → m.top.phase = .created ∨ m.top.phase = .prepared →
    m.trace.opcodes = 0
  ended {e : VmError} : m.below = [] → m.top.phase = .finalizing → 0 < m.trace.opcodes →
    m.top.error = some e → e = .revert ∨ e.consumesAllGas = true

/-- The cause of a failure stays known over every step. -/
theorem Blames.step (h : m.Blames) (hstacked : m.Stacked c depth) (hstep : Stepped c m m') :
    m'.Blames := by
  have hcalm := h.before
  -- a frame that runs has neither not begun nor ended
  have running {m' : Machine L} (hrun : m'.IsRunning) : m'.Blames := by
    constructor
    · rintro - hphase
      rcases hrun with hrun | hrun <;> simp [hrun] at hphase
    · rintro e - hphase
      rcases hrun with hrun | hrun <;> simp [hrun] at hphase
  cases hstep with
  | prepares hphase =>
    have hsame : (m.prepare c).trace.opcodes = m.trace.opcodes := by simp [prepare]
    refine ⟨fun hbelow _ => hsame.trans (hcalm hbelow (.inl hphase)), ?_⟩
    intro e hbelow _ hcount _
    rw [hsame, hcalm hbelow (.inl hphase)] at hcount
    exact absurd hcount (Nat.lt_irrefl 0)
  | enters hphase =>
    have hsame : (m.enter c).trace.opcodes = m.trace.opcodes := by rw [enter_trace]
    rw [← enter_below c m] at hcalm
    refine ⟨fun hbelow _ => hsame.trans (hcalm hbelow (.inr hphase)), ?_⟩
    intro e hbelow _ hcount _
    rw [hsame, hcalm hbelow (.inr hphase)] at hcount
    exact absurd hcount (Nat.lt_irrefl 0)
  | continues _ hturn => exact running (.inl (turn_phase hturn))
  | @ends o error s t _ hturn hends =>
    refine ⟨?_, ?_⟩
    · rintro _ (hcreated | hprepared)
      · cases hcreated
      · cases hprepared
    · intro e _ _ _ herror
      cases hends with
      | halted => cases herror
      | failed err =>
        cases herror
        exact Local.turn_error hturn
  | spawns _ _ =>
    constructor
    · intro hbelow
      cases hbelow
    · intro _ hbelow
      cases hbelow
  | pops hphase hbelow => exact running (.inr (hstacked.resumes hbelow))

/-- So it is known wherever an execution comes to. -/
theorem Visited.blames (h : Visited c l message observer m) : m.Blames := by
  have hboth := h.invariant (I := fun m : Machine L => m.Stacked c message.depth ∧ m.Blames)
    ⟨stacked_launch h.depth, fun _ _ => rfl, nofun⟩
    fun _ _ hm hstep => ⟨(hm.1.step hstep).1, hm.2.step hm.1 hstep⟩
  exact hboth.2

/-- If the first frame has run an instruction, what it fails with in the end is a rollback that its
    code has asked for, or uses all gas. -/
theorem Visited.finalError_forfeits (h : Visited c l message observer m) (hbelow : m.below = [])
    (hphase : m.top.phase = .finalizing) (hopcodes : 0 < m.trace.opcodes) {e : VmError}
    (he : m.toLocal.finalError c m.isRoot = some e) : e = .revert ∨ e.consumesAllGas = true := by
  cases htop : m.top.error with
  | none => exact .inr (Local.finalError_refused htop he).consumesAllGas
  | some cause =>
    obtain rfl : cause = e :=
      Option.some.inj ((Local.finalError_of_error m.isRoot htop).symm.trans he)
    exact h.blames.ended hbelow hphase hopcodes htop

/-- Once a frame has had an instruction to run, the count at the end shows it. -/
theorem Visited.opcodes_pos (h : Visited c l message observer m) (hrun : m.IsRunning)
    (hcode : m.top.program.current ≠ none) {last : Machine L} {x : Execution L}
    (hlast : Visited c l message observer last) (hdone : last.step c = .done x) :
    0 < last.trace.opcodes := by
  obtain ⟨m', hstep, hstarted⟩ := hrun.exists_step (c := c) hcode
  rcases (h.steps_to_end hlast hdone).cases_head with rfl | ⟨m₁, hfirst, -, hrest⟩
  · rw [hdone] at hstep
    exact nomatch hstep
  · obtain rfl : m' = m₁ := Progress.running.inj (hstep.symm.trans hfirst)
    exact Nat.lt_of_lt_of_le hstarted hrest.opcodes_le

end Machine

/-! ### Executions -/

/-- What holds of what a message has come to. -/
structure Execution.IsSound (c : Context) (message : Message) (x : Execution L) : Prop where
  /-- The result breaks no rule. -/
  checks : x.result.violations message.gasLimit message.depth c.config = []
  result : x.result.IsSound message.gasLimit message.isCreate
  /-- A refund is granted for success alone, and no more than the fork allows. -/
  refund : (x.result.status ≠ .success → x.result.gasRefund = 0) ∧
    x.result.gasRefund ≤ x.result.gasUsed / c.fork.refundQuotient
  /-- Once an instruction has run, only a rollback that the code asks for leaves gas. -/
  spent {e : VmError} : 0 < x.trace.opcodes → x.result.error = some e → e ≠ .revert →
    x.result.gasUsed = message.gasLimit

/-- Resolving a message leaves its kind. -/
theorem Message.isCreate_resolve (m : Message) (l : L) : (m.resolve l).isCreate = m.isCreate := by
  rcases m.resolve_cases l with h | ⟨a, h⟩
  · rw [h]
  · rw [h]
    rfl

/-- A refund that is granted changes nothing else. -/
theorem ExecutionResult.IsSound.withGrantedRefund {limit : Nat} {isCreate : Bool}
    {r : ExecutionResult} (h : r.IsSound limit isCreate) (fork : Fork) (gasLimit : Nat) :
    (r.withGrantedRefund fork gasLimit).IsSound limit isCreate :=
  ⟨h.success, h.reverted, h.gasUsed, h.forfeited, h.effects, h.created, h.silent⟩

/-- A refund is granted for a success only, and within its bound. -/
theorem ExecutionResult.refund_withGrantedRefund (r : ExecutionResult) (fork : Fork)
    (gasLimit : Nat) :
    ((r.withGrantedRefund fork gasLimit).status ≠ .success →
        (r.withGrantedRefund fork gasLimit).gasRefund = 0) ∧
      (r.withGrantedRefund fork gasLimit).gasRefund ≤
        (r.withGrantedRefund fork gasLimit).gasUsed / fork.refundQuotient := by
  unfold withGrantedRefund isSuccess
  dsimp only
  split
  · rename_i hsuccess
    exact ⟨fun hother => absurd (of_decide_eq_true hsuccess) hother, Nat.min_le_right _ _⟩
  · exact ⟨fun _ => rfl, Nat.zero_le _⟩

/-- A result whose parts fit together breaks no rule, if its refund and its depth do not. -/
theorem ExecutionResult.IsSound.violations_eq_nil {limit depth : Nat} {isCreate : Bool}
    {r : ExecutionResult} {config : Config} (h : r.IsSound limit isCreate)
    (hrefund : r.gasRefund ≤ r.gasUsed / config.fork.refundQuotient)
    (hdepth : depth ≤ config.maxCallDepth) : r.violations limit depth config = [] := by
  rw [violations_eq_nil_iff]
  refine ⟨decide_eq_true h.gasUsed, ?_, fun hforfeits => ?_, decide_eq_true hrefund,
    decide_eq_true hdepth⟩
  · unfold effectsOnlyOnSuccess
    split
    -- only a success carries effects
    · rename_i hsuccess
      rw [h.success.1 hsuccess]
      rfl
    · rename_i hfailed
      obtain ⟨hlogs, hdestructs⟩ := h.effects hfailed
      have herror : r.error.isSome = true :=
        Option.isSome_iff_ne_none.2 fun hnone => hfailed (h.success.2 hnone)
      have hcreated : r.createdAddress.isNone = true := by
        rw [← Option.not_isSome, Bool.not_eq_true', ← Bool.not_eq_true, h.created]
        exact fun hboth => hfailed hboth.1
      rw [herror, hlogs, hdestructs, hcreated]
      rfl
  -- the forfeited gas is all of it
  · obtain ⟨e, herror, hgas⟩ := (Option.any_eq_true _ _).1 hforfeits
    exact Bool.or_eq_true_iff.2 (.inr (decide_eq_true (h.forfeited herror hgas)))

open Machine in
/-- The result of a message that is not nested too deeply keeps the rules, whatever the ledger does,
    and every instruction of any of its frames is counted. -/
theorem results_sound (c : Context) (l : L) (message : Message) (observer : Observer)
    (hdepth : message.depth ≤ c.config.maxCallDepth) :
    (execute c l message observer).IsSound c message ∧
      ∀ m, Visited c l message observer m → m.IsRunning → m.top.program.current ≠ none →
        0 < (execute c l message observer).trace.opcodes := by
  obtain ⟨last, x, hlast, -, hdone, hexecute⟩ := execute_eq l observer hdepth
  obtain ⟨hphase, hbelow, hresult, -⟩ := step_done hdone
  -- the last step shows the end of the frame, which is no instruction
  have hcount : x.trace.opcodes = last.trace.opcodes := by rw [step_done_trace hdone]; simp
  obtain ⟨hmessage, hlimit⟩ := hlast.first hbelow
  obtain ⟨hsound, herror⟩ := last.toLocal.finalize_isSound c last.isRoot
  rw [← hresult] at hsound herror
  change x.result.IsSound last.top.gas.limit last.top.message.isCreate at hsound
  rw [hlimit, hmessage, message.isCreate_resolve l] at hsound
  rw [hexecute]
  have hrefund := x.result.refund_withGrantedRefund c.fork (message.resolve l).gasLimit
  have hgranted := hsound.withGrantedRefund c.fork (message.resolve l).gasLimit
  refine ⟨⟨hgranted.violations_eq_nil hrefund.2 hdepth, hgranted, hrefund, ?_⟩, ?_⟩
  -- the gas is forfeited with any error but a revert, once an instruction has run
  · intro e hopcodes he hrevert
    have hforfeits :=
      hlast.finalError_forfeits hbelow hphase (hcount ▸ hopcodes) (herror.symm.trans he)
    exact hsound.forfeited he (hforfeits.resolve_left hrevert)
  · intro m hm hrun hcode
    show 0 < x.trace.opcodes
    rw [hcount]
    exact hm.opcodes_pos hrun hcode hlast hdone

/-- A contract jumps to where it has no jump destination.  It has run two instructions by then, so
    nothing is left of its gas. -/
theorem results_sound_past_bad_jump :
    let c : Context := { precompiles := .none }
    let l := SnapshotLedger.ofWorld (World.setCode {} 7 #[0x60, 9, 0x56])
    let message := Message.call 1 7 0 #[] 200000
    let x := execute c l message .off
    message.depth ≤ c.config.maxCallDepth ∧ x.trace.opcodes = 2 ∧
      x.result.error = some (.invalidJumpDestination 9) ∧ x.IsSound c message ∧
      x.result.gasUsed = 200000 := by
  intro c l message x
  have depth : message.depth ≤ c.config.maxCallDepth := Nat.zero_le _
  have counted : x.trace.opcodes = 2 := by decide +kernel
  have failed : x.result.error = some (.invalidJumpDestination 9) := by decide +kernel
  have sound : x.IsSound c message := (results_sound c l message .off depth).1
  exact ⟨depth, counted, failed, sound, sound.spent (by rw [counted]; decide) failed nofun⟩

end Evm
