import Mathlib.Data.List.Chain
import Evm.Ledger.Snapshots
import Evm.Proofs.Instruction.Request
import Evm.Proofs.Machine.Execution

namespace Evm

/-!
# Gas is conserved

The gas of all frames never grows.  A frame gives its child no more than it has spent on it, so
that the gas which comes back always has room, and no sum of gas leaves the range of a counter.

* `Machine.Metered` — each frame has room for what the one on top of it may give back.
* `GasConserved` — what this means for an execution.
* `gas_conserved` — every execution is like that.
-/

/-- The parent has room for all the gas of its child. -/
def Frame.Funds (child parent : Frame) : Prop :=
  child.gas.limit + parent.gas.remaining ≤ parent.gas.limit

/-- Gas that is given back is not cut where there is room for it. -/
theorem Meter.giveBack_exact {m : Meter} {amount : Nat} (h : m.remaining + amount ≤ m.limit) :
    (m.giveBack amount).remaining = m.remaining + amount :=
  Nat.min_eq_left h

/-- What is held back from a child, and what it may get. -/
theorem Gas.allButOne64th_add (available : Nat) :
    allButOne64th available + available / 64 = available :=
  Nat.sub_add_cancel (Nat.div_le_self ..)

/-- Taking in a child gives back its gas, and the refund counter if it has succeeded. -/
theorem Frame.resume_gas (parent : Frame) (childGas : Meter) (result : ExecutionResult) :
    (parent.resume childGas result).gas.limit = parent.gas.limit ∧
      (parent.resume childGas result).gas.remaining =
        (parent.gas.giveBack childGas.remaining).remaining ∧
      (parent.resume childGas result).gas.refund =
        if result.isSuccess then childGas.refund else parent.gas.refund := by
  obtain ⟨_, _, _, _, _, _, heq⟩ := parent.resume_merged childGas result
  rw [heq, mergeChild_eq]
  dsimp only
  split <;> exact ⟨rfl, rfl, rfl⟩

/-- A precompiled contract is paid out of the frame's own meter. -/
theorem Frame.answered_gas (p : Precompile) (f : Frame) :
    (f.answered p).2.gas.limit = f.gas.limit ∧
      (f.answered p).2.gas.remaining ≤ f.gas.remaining ∧
      (f.answered p).2.gas.refund = f.gas.refund := by
  unfold answered
  split
  · exact ⟨rfl, Nat.le_refl _, rfl⟩
  · split
    · exact ⟨rfl, Nat.le_refl _, rfl⟩
    · rename_i hgas
      obtain ⟨hlimit, hremaining, hrefund⟩ := Meter.consume_eq_ok_iff.1 hgas
      exact ⟨hlimit, Nat.le.intro hremaining, hrefund⟩

variable {L : Type} [Ledger L]

namespace Machine

variable {c : Context} {m m' : Machine L} {limit : Nat}

/-! ### Gas across a turn -/

/-- A turn pays at least the price of its outcome, out of the frame's own meter. -/
theorem turn_gas {o : Outcome} {s : Local L} {t : Trace} (h : m.turn c = (o, s, t)) :
    s.frame.gas.limit = m.top.gas.limit ∧
      s.frame.gas.remaining + o.price ≤ m.top.gas.remaining :=
  have honward := (turn_onward h).1
  ⟨congrArg Frame.Activation.gasLimit honward.activation, honward.gas⟩

/-- An instruction that does not end its frame lowers the gas of the machine, to which the gas of a
    child it asks for still counts. -/
theorem landed_gas {o : Outcome} {s : Local L} {t : Trace} (h : m.turn c = (o, s, t)) :
    (m.landed s t).gas + o.price ≤ m.gas := by
  have := (turn_gas h).2
  simp only [gas, landed]
  omega

/-- Preparing costs nothing. -/
theorem prepare_gas (c : Context) (m : Machine L) : (m.prepare c).top.gas = m.top.gas := by
  refine Eq.trans ?_ (m.toLocal.attempt_prepare_frame c).1
  unfold prepare
  dsimp only
  split <;> rfl

omit [Ledger L] in
/-- Entering costs what a precompiled contract takes. -/
theorem enter_gas (c : Context) (m : Machine L) :
    (m.enter c).top.gas.limit = m.top.gas.limit ∧
      (m.enter c).top.gas.remaining ≤ m.top.gas.remaining ∧
      (m.enter c).top.gas.refund = m.top.gas.refund := by
  unfold enter
  cases m.calledPrecompile c with
  | none => exact ⟨rfl, Nat.le_refl _, rfl⟩
  | some p =>
    dsimp only
    rw [Local.attempt_runPrecompile]
    exact m.top.answered_gas p

/-- A parent gets back the gas of its child, and the counter of a child that succeeds. -/
theorem handedTo_gas (c : Context) (m : Machine L) (parent : Frame) (below : List Frame) :
    (m.handedTo c parent below).top.gas.limit = parent.gas.limit ∧
      (m.handedTo c parent below).top.gas.remaining =
        (parent.gas.giveBack
          (m.toLocal.finalize c m.isRoot).2.frame.gas.remaining).remaining ∧
      (m.handedTo c parent below).top.gas.refund =
        if (m.toLocal.finalize c m.isRoot).1.isSuccess then m.top.gas.refund
        else parent.gas.refund := by
  have kept := (m.toLocal.finalize_meter c m.isRoot).2
  obtain ⟨hlimit, hremaining, hrefund⟩ :=
    parent.resume_gas (m.toLocal.finalize c m.isRoot).2.frame.gas
      (m.toLocal.finalize c m.isRoot).1
  rw [kept] at hrefund
  exact ⟨hlimit, hremaining, hrefund⟩

omit [Ledger L] in
/-- The gas of the machine follows that of the top frame while the stack stays. -/
theorem gas_le_of_top (hbelow : m'.below = m.below)
    (hgas : m'.top.gas.remaining ≤ m.top.gas.remaining) : m'.gas ≤ m.gas := by
  unfold gas
  rw [hbelow]
  omega

omit [Ledger L] in
/-- A child that is asked for brings the gas that it was given. -/
theorem spawn_gas (c : Context) (m : Machine L) (message : Message) (k : Continuation) :
    (m.spawn c message k).gas = m.gas + message.gasLimit := by
  simp only [gas, spawn, Frame.ofMessage, Meter.full, List.foldr_cons]
  omega

/-- No step creates gas. -/
theorem step_gas (h : Stepped c m m') : m'.gas ≤ m.gas := by
  cases h with
  | prepares hphase => exact gas_le_of_top rfl (by rw [prepare_gas])
  | enters hphase => exact gas_le_of_top (enter_below c m) (m.enter_gas c).2.1
  | continues hrun hturn => exact Nat.le_of_add_right_le (landed_gas hturn)
  | ends hrun hturn hends => exact Nat.le_of_add_right_le (landed_gas hturn)
  | @spawns message k s t hrun hturn =>
    -- the child brings what was set aside for it, and the parent has paid for that
    have paid := landed_gas hturn
    change _ + (message.gasLimit + 1) ≤ _ at paid
    rw [spawn_gas]
    omega
  | @pops parent below hphase hbelow =>
    -- the parent takes no more than what is left to the top frame, which is gone with it
    have left := m.toLocal.finalize_gas c m.isRoot
    change _ ≤ m.top.gas.remaining at left
    have taken : (m.handedTo c parent below).top.gas.remaining ≤
        parent.gas.remaining + (m.toLocal.finalize c m.isRoot).2.frame.gas.remaining :=
      (m.handedTo_gas c parent below).2.1.symm ▸ Nat.min_le_left ..
    unfold gas
    rw [hbelow, List.foldr_cons]
    show _ + below.foldr _ 0 ≤ _
    omega

/-- Nor do any steps. -/
theorem Steps.gas_le {floor : Nat} (h : Steps c floor m m') : m'.gas ≤ m.gas := by
  induction h with
  | refl => exact Nat.le_refl _
  | tail _ hstep _ ih => exact Nat.le_trans (step_gas (step_cases hstep)) ih

/-! ### Room for what comes back -/

/-- No frame was given more than the limit, and each has room for what the one on top of it may
    give back. -/
structure Metered (limit : Nat) (m : Machine L) : Prop where
  limits : ∀ f ∈ m.top :: m.below, f.gas.limit ≤ limit
  funds : List.IsChain Frame.Funds (m.top :: m.below)

omit [Ledger L] in
/-- Whether a frame is funded depends on what it was given alone. -/
theorem isChain_funds_congr {f g : Frame} {below : List Frame} (h : g.gas.limit = f.gas.limit)
    (hchain : List.IsChain Frame.Funds (f :: below)) : List.IsChain Frame.Funds (g :: below) := by
  cases below with
  | nil => exact .singleton g
  | cons parent below =>
    obtain ⟨hfunds, hrest⟩ := List.isChain_cons_cons.1 hchain
    refine List.isChain_cons_cons.2 ⟨?_, hrest⟩
    unfold Frame.Funds
    rw [h]
    exact hfunds

omit [Ledger L] in
/-- Another top frame that was given the same. -/
theorem Metered.congr (h : m.Metered limit) (hbelow : m'.below = m.below)
    (hlimit : m'.top.gas.limit = m.top.gas.limit) : m'.Metered limit := by
  refine ⟨?_, ?_⟩
  · have hlimits := h.limits
    rw [hbelow]
    rw [List.forall_mem_cons] at hlimits ⊢
    exact ⟨hlimit.symm ▸ hlimits.1, hlimits.2⟩
  · rw [hbelow]
    exact isChain_funds_congr hlimit h.funds

/-- The top frame asks for a child, on which it has spent at least what the child gets. -/
theorem Metered.spawn (h : m.Metered limit) {message : Message} {k : Continuation} {s : Local L}
    {t : Trace} (hturn : m.turn c = (.waits message k, s, t)) :
    ((m.landed s t).spawn c message k).Metered limit := by
  obtain ⟨hlimit, hgas⟩ := turn_gas hturn
  -- no refund of a child exceeds what the frame itself was given
  have within := m.top.gas.remaining_le
  change s.frame.gas.remaining + (message.gasLimit + 1) ≤ _ at hgas
  have hlimits := h.limits
  rw [List.forall_mem_cons] at hlimits
  refine ⟨?_, ?_⟩
  · simp only [Machine.spawn, landed, List.forall_mem_cons]
    refine ⟨?_, hlimit.symm ▸ hlimits.1, hlimits.2⟩
    -- the child has been given less than the frame has, so less than the first frame was
    exact Nat.le_trans (show message.gasLimit ≤ m.top.gas.limit by omega) hlimits.1
  · refine List.isChain_cons_cons.2 ⟨?_, isChain_funds_congr hlimit h.funds⟩
    show message.gasLimit + s.frame.gas.remaining ≤ s.frame.gas.limit
    omega

/-- A parent has room for what comes back. -/
theorem Metered.pop (h : m.Metered limit) {parent : Frame} {below : List Frame}
    (hbelow : m.below = parent :: below) : (m.handedTo c parent below).Metered limit := by
  have hlimit := (m.handedTo_gas c parent below).1
  obtain ⟨hlimits, hfunds⟩ := h
  rw [hbelow] at hlimits hfunds
  simp only [List.forall_mem_cons] at hlimits
  refine ⟨?_, ?_⟩
  · rw [List.forall_mem_cons]
    exact ⟨hlimit.symm ▸ hlimits.2.1, hlimits.2.2⟩
  · exact isChain_funds_congr hlimit (List.isChain_cons_cons.1 hfunds).2

/-- So the meters stay within their limits over every step. -/
theorem Metered.step (h : m.Metered limit) (hstep : Stepped c m m') : m'.Metered limit := by
  cases hstep with
  | prepares hphase => exact h.congr rfl (by rw [prepare_gas])
  | enters hphase => exact h.congr (enter_below c m) (m.enter_gas c).1
  | continues hrun hturn => exact h.congr rfl (turn_gas hturn).1
  | ends hrun hturn hends => exact h.congr rfl (turn_gas hturn).1
  | spawns hrun hturn => exact h.spawn hturn
  | pops hphase hbelow => exact h.pop hbelow

/-- What the top frame leaves to its parent has room there. -/
theorem Metered.resume_exact (h : m.Metered limit) {parent : Frame} {below : List Frame}
    (hbelow : m.below = parent :: below) :
    (m.handedTo c parent below).top.gas.remaining =
      parent.gas.remaining + (m.toLocal.finalize c m.isRoot).2.frame.gas.remaining := by
  have hfunds := h.funds
  rw [hbelow] at hfunds
  have room : m.top.gas.limit + parent.gas.remaining ≤ parent.gas.limit :=
    (List.isChain_cons_cons.1 hfunds).1
  have left := m.toLocal.finalize_gas c m.isRoot
  change _ ≤ m.top.gas.remaining at left
  have within := m.top.gas.remaining_le
  rw [(m.handedTo_gas c parent below).2.1]
  exact Meter.giveBack_exact (by omega)

end Machine

/-- Resolving a message leaves its gas. -/
theorem Message.gasLimit_resolve (m : Message) (l : L) : (m.resolve l).gasLimit = m.gasLimit := by
  rcases m.resolve_cases l with h | ⟨a, h⟩
  · rw [h]
  · rw [h]
    rfl

namespace Machine.Visited

variable {c : Context} {l : L} {message : Message} {observer : Observer} {m : Machine L}

/-- The meters are within the limit of the message, wherever an execution comes to. -/
theorem metered (h : Visited c l message observer m) : m.Metered message.gasLimit := by
  have given : (launch c l message observer).top.gas.limit = message.gasLimit :=
    message.gasLimit_resolve l
  refine h.invariant ⟨?_, .singleton _⟩ fun _ _ hm hstep => hm.step hstep
  rintro f (- | ⟨-, hf⟩)
  · exact Nat.le_of_eq given
  · cases hf

/-- So there is never more gas than the message has brought. -/
theorem gas_le (h : Visited c l message observer m) : m.gas ≤ message.gasLimit := by
  have given : (launch c l message observer).gas = message.gasLimit := message.gasLimit_resolve l
  exact h.invariant (I := fun m => m.gas ≤ message.gasLimit) (Nat.le_of_eq given)
    fun _ _ hm hstep => Nat.le_trans (step_gas hstep) hm

end Machine.Visited

/-! ### Executions -/

open Machine in
/-- No gas is created in the execution of a message, and no sum of gas leaves the range of a
    counter. -/
structure GasConserved (c : Context) (l : L) (message : Message) (observer : Observer) : Prop where
  /-- No step of an execution raises the gas of all frames. -/
  step {m m' : Machine L} : Visited c l message observer m → m.step c = .running m' → m'.gas ≤ m.gas
  /-- Nor does an instruction that asks for a child, whose gas counts before it has a frame. -/
  request {m : Machine L} {child : Message} {k : Continuation} {s : Local L} {t : Trace} :
    Visited c l message observer m → m.IsRunning → m.turn c = (.waits child k, s, t) →
      (m.landed s t).gas + child.gasLimit ≤ m.gas ∧
        ((m.landed s t).spawn c child k).gas = (m.landed s t).gas + child.gasLimit
  /-- The frames never hold more than the message came with. -/
  bounded {m : Machine L} : Visited c l message observer m → m.gas ≤ message.gasLimit
  /-- A parent gets exactly what its child leaves. -/
  resumed {m : Machine L} {parent : Frame} {below : List Frame} :
    Visited c l message observer m → m.top.phase = .finalizing → m.below = parent :: below →
      (m.handedTo c parent below).top.gas.remaining =
        parent.gas.remaining + (m.toLocal.finalize c m.isRoot).2.frame.gas.remaining
  /-- A frame whose child is skipped has exactly the gas back that it had set aside, and the
      stipend. -/
  skipped {m : Machine L} {i : Instruction} {quote : Effect L (Effect.Quote L)} {t : Local L}
      {q : Effect.Quote L} :
    Visited c l message observer m → m.Executes c i → Effect.quote? c i = some quote →
      EStateM.run (do Effect.charge (i.staticGas c.fork); quote) m.running = .ok q t →
      (Effect.canSpawn c q.value).run t = .ok false t →
      (m.turn c).2.1.frame.gas.remaining = t.frame.gas.remaining + q.setAside + q.stipend
  /-- What a child gets, the stipend included, is a counter. -/
  stipend {m : Machine L} {i : Instruction} {quote : Effect L (Effect.Quote L)} {t : Local L}
      {q : Effect.Quote L} :
    Visited c l message observer m → m.Executes c i → Effect.quote? c i = some quote →
      EStateM.run (do Effect.charge (i.staticGas c.fork); quote) m.running = .ok q t →
      q.setAside + q.stipend ≤ Counter.limit
  /-- What a frame has used and what it has left are counters that add up to what it was given. -/
  used {m : Machine L} {f : Frame} : Visited c l message observer m → f ∈ m.top :: m.below →
    f.gas.limit ≤ Counter.limit ∧ f.gas.used + f.gas.remaining = f.gas.limit
  /-- What is held back from a child is part of what there is. -/
  heldBack (available : Nat) : Gas.allButOne64th available + available / 64 = available

/-- In every execution of a message whose gas is a counter, gas is conserved. -/
theorem gas_conserved (c : Context) (l : L) {message : Message}
    (hrange : message.gasLimit ≤ Counter.limit) (observer : Observer) :
    GasConserved c l message observer where
  step _ hstep := Machine.step_gas (Machine.step_cases hstep)
  -- what the child asks for has been paid for, and the unit for the step as well
  request {m child k s t} _ _ hturn := by
    have paid := Machine.landed_gas hturn
    change _ + (child.gasLimit + 1) ≤ _ at paid
    exact ⟨by omega, Machine.spawn_gas c (m.landed s t) child k⟩
  bounded hm := hm.gas_le
  resumed hm _ hbelow := hm.metered.resume_exact hbelow
  skipped hm hexec hquote hrun hskip := Local.turn_skipped _ _ hexec.2 hquote hrun hskip
  stipend {m i quote t q} hm hexec hquote hrun := by
    have paid : t.frame.gas.remaining + q.gasLimit ≤ m.top.gas.remaining :=
      (Effect.onward_of_quote hquote hrun).gas
    have within := m.top.gas.remaining_le
    have given := hm.metered.limits m.top List.mem_cons_self
    show q.gasLimit ≤ _
    omega
  used hm hf := ⟨Nat.le_trans (hm.metered.limits _ hf) hrange, Meter.used_add_remaining _⟩
  heldBack := Gas.allButOne64th_add

/-- A contract that holds five calls an account without code with a value of one.  After thirteen
    steps the child ends with more gas than was set aside for it, all of which the parent gets. -/
theorem gas_conserved_with_stipend :
    let c : Context := { precompiles := .none }
    let l := SnapshotLedger.ofWorld (World.setBalance (World.setCode {} 7
      #[0x60, 0, 0x60, 0, 0x60, 0, 0x60, 0, 0x60, 1, 0x60, 8, 0x61, 0xff, 0xff, 0xf1]) 7 5)
    let message := Message.call 1 7 0 #[] 200000
    let m := (Machine.launch c l message .off).after c 13
    message.gasLimit ≤ Counter.limit ∧ m.top.phase = .finalizing ∧
      m.top.gas.remaining = 0xffff + Gas.callStipend ∧ m.gas ≤ 200000 ∧
      ∃ parent below, m.below = parent :: below ∧
        (m.handedTo c parent below).top.gas.remaining =
          parent.gas.remaining + (m.toLocal.finalize c m.isRoot).2.frame.gas.remaining := by
  intro c l message m
  have range : message.gasLimit ≤ Counter.limit := by decide
  have visited : Machine.Visited c l message .off m :=
    Machine.Visited.iff_after.2 ⟨Nat.zero_le _, 13, rfl⟩
  have phase : m.top.phase = .finalizing := by decide +kernel
  have height : m.below.length = 1 := by decide +kernel
  obtain ⟨parent, below, hbelow⟩ := List.exists_cons_of_length_eq_add_one height
  exact ⟨range, phase, by decide +kernel, (gas_conserved c l range .off).bounded visited,
    parent, below, hbelow, (gas_conserved c l range .off).resumed visited phase hbelow⟩

end Evm
