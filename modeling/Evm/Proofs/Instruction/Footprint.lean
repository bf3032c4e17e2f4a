import Evm.Machine.Turn
import Evm.Proofs.Instruction.Work
import Evm.Proofs.Ledger.Session

namespace Evm

/-!
# The footprint of an instruction

Most instructions change nothing that outlives them but the frame's stack, memory, gas and program:
on the ledger they leave no more than accesses.  The few that write do so in one place each.

* `Ledger.Accessed`, `Local.Quiet` — no more than accesses.
* `Effect.IsQuiet` — an effect that does no more.
* `Local.Did` — all that an instruction can have done.
* `Local.turn_did` — what one turn of a frame has done.
-/

/-! ### Accesses -/

section Ledgers

variable {L : Type} [Ledger L]

namespace Ledger

/-- Nothing but accesses lies between the two ledgers. -/
inductive Accessed : L → L → Prop where
  | refl (l : L) : Accessed l l
  | account {l l' : L} (a : Address) : Accessed l l' → Accessed l (accessAccount l' a).2
  | slot {l l' : L} (s : Slot) : Accessed l l' → Accessed l (accessSlot l' s).2

/-- Accesses come one after another. -/
theorem Accessed.trans {l l' l'' : L} (h : Accessed l l') (k : Accessed l' l'') :
    Accessed l l'' := by
  induction k with
  | refl => exact h
  | account a _ ih => exact .account a ih
  | slot s _ ih => exact .slot s ih

/-- Accesses leave the accounts alone. -/
theorem Accessed.state [LawfulLedger L] {l l' : L} (h : Accessed l l') : state l' = state l := by
  induction h with
  | refl => rfl
  | account a _ ih => rw [LawfulLedger.state_accessAccount, ih]
  | slot s _ ih => rw [LawfulLedger.state_accessSlot, ih]

/-- Accesses are a session. -/
theorem Accessed.history {l l' : L} (h : Accessed l l') : History l l' := by
  induction h with
  | refl => exact .refl _
  | account a _ ih => exact ih.trans (.op _ (.accessAccount a))
  | slot s _ ih => exact ih.trans (.op _ (.accessSlot s))

/-- Accesses to one account after another. -/
theorem accessed_foldl (l : L) (addresses : List Address) :
    Accessed l (addresses.foldl (fun l a => (accessAccount l a).2) l) := by
  induction addresses generalizing l with
  | nil => exact .refl l
  | cons a rest ih => exact (Accessed.account a (.refl l)).trans (ih _)

/-- What the destruction of an account makes of the ledger. -/
inductive Surrendered (a : Address) (l : L) : L → Prop where
  /-- The ledger does not hand the balance over, and the frame fails. -/
  | refused {b : Address} {l' : L} {e : StateError} : b ≠ a →
      tryAddBalance b (balance l a) l = .error e l' → Surrendered a l l'
  /-- What an account leaves to itself is lost. -/
  | burned : Surrendered a l (setBalance l a 0)
  | handed {b : Address} {l' : L} : b ≠ a → tryAddBalance b (balance l a) l = .ok () l' →
      Surrendered a l (setBalance l' a 0)

end Ledger

/-- The second place is as the first one in all that outlives a frame. -/
structure Local.Quiet (s t : Local L) : Prop where
  message : t.frame.message = s.frame.message
  logs : t.frame.logs = s.frame.logs
  selfDestructs : t.frame.selfDestructs = s.frame.selfDestructs
  refund : t.frame.gas.refund = s.frame.gas.refund
  ledger : Ledger.Accessed s.ledger t.ledger

namespace Local.Quiet

variable {s t u : Local L}

/-- Doing nothing is quiet. -/
theorem refl (s : Local L) : s.Quiet s := ⟨rfl, rfl, rfl, rfl, .refl _⟩

/-- What is quiet twice is quiet. -/
theorem trans (h : s.Quiet t) (k : t.Quiet u) : s.Quiet u :=
  ⟨k.message.trans h.message, k.logs.trans h.logs, k.selfDestructs.trans h.selfDestructs,
    k.refund.trans h.refund, h.ledger.trans k.ledger⟩

end Local.Quiet

end Ledgers

namespace Effect

variable {L : Type} {α β : Type}

/-! ### Quiet effects -/

variable [Ledger L]

/-- No more than accesses, whether an effect succeeds or not. -/
@[reducible] def Conduct.quiet : Conduct L :=
  .always Local.Quiet Local.Quiet.refl fun _ _ _ => Local.Quiet.trans

/-- The effect leaves no more than accesses, whether it succeeds or not. -/
abbrev IsQuiet (e : Effect L α) : Prop := Follows .quiet e

namespace IsQuiet

export Follows (pure bind frame_bind ledger_bind ite ite_bind next readMemory canSpawn)

/-- A failure is quiet. -/
theorem throw (e : VmError) : IsQuiet (MonadExcept.throw e : Effect L α) :=
  Follows.throw Local.Quiet.refl

/-- A change of a part of the frame that does not outlive it. -/
theorem modifyFrame {f : Frame → Frame}
    (hf : ∀ g, (f g).message = g.message ∧ (f g).logs = g.logs ∧
      (f g).selfDestructs = g.selfDestructs ∧ (f g).gas.refund = g.gas.refund) :
    IsQuiet (Effect.modifyFrame f : Effect L Unit) := by
  intro s
  obtain ⟨hmessage, hlogs, hdestructs, hrefund⟩ := hf s.frame
  exact ⟨hmessage, hlogs, hdestructs, hrefund, .refl _⟩

/-! ### Parts of instructions -/

/-- Gas that is spent is no refund. -/
theorem charge (amount : Nat) : IsQuiet (charge amount : Effect L Unit) := by
  intro s
  rw [run_charge]
  cases hgas : s.frame.gas.consume amount with
  | ok gas => exact ⟨rfl, rfl, rfl, (Meter.consume_eq_ok_iff.1 hgas).2.2, .refl _⟩
  | error e => exact .refl s

/-- The stack does not outlive the frame. -/
theorem onStack (f : Stack → Except VmError (α × Stack)) :
    IsQuiet (onStack f : Effect L α) := by
  intro s
  rw [run_onStack]
  cases f s.frame.stack with
  | ok r => exact ⟨rfl, rfl, rfl, rfl, .refl _⟩
  | error e => exact .refl s

/-- Neither does the memory, wherever it is asked for. -/
theorem extendMemory (offset len : Nat) : IsQuiet (extendMemory offset len : Effect L Unit) := by
  intro s
  rw [run_extendMemory]
  cases hm : s.frame.memory.extend offset len s.frame.gas with
  | ok r => exact ⟨rfl, rfl, rfl, Memory.refund_of_extend hm, .refl _⟩
  | error e => exact .refl s

/-- Memory belongs to the frame. -/
theorem writeMemory (offset : Nat) (b : Bytes) :
    IsQuiet (writeMemory offset b : Effect L Unit) := by
  refine frame_bind fun f => ?_
  cases f.memory.write offset b with
  | ok memory => exact modifyFrame fun _ => ⟨rfl, rfl, rfl, rfl⟩
  | error e => exact throw e

end IsQuiet

/-- A quiet effect works on the frame and may look at the ledger. -/
theorem Conduct.letsWork_quiet : (Conduct.quiet : Conduct L).LetsWork where
  toLetsPay := .of_writeMemory (fun _ _ => Local.Quiet.refl) IsQuiet.charge
    (fun _ => IsQuiet.extendMemory _ _) IsQuiet.writeMemory
    (fun a _ => ⟨rfl, rfl, rfl, rfl, .account a (.refl _)⟩)
    fun slot _ => ⟨rfl, rfl, rfl, rfl, .slot slot (.refl _)⟩
  onStack _ := IsQuiet.onStack _

namespace IsQuiet

/-- Looking whether the frame is static is quiet. -/
theorem requireNonStatic : IsQuiet (requireNonStatic : Effect L Unit) :=
  Follows.requireWritable Conduct.letsWork_quiet.toLetsPay

/-- Looking how much gas is left is quiet. -/
theorem requireSentry (c : Context) : IsQuiet (requireSentry c : Effect L Unit) :=
  Follows.requireSentry Conduct.letsWork_quiet.toLetsPay c

/-- An access to an account is quiet, whatever it costs. -/
theorem accessAccount (fork : Fork) (a : Address) (surcharge : Nat) :
    IsQuiet (accessAccount fork a surcharge : Effect L Unit) :=
  Follows.accessAccount Conduct.letsWork_quiet.toLetsPay fork a surcharge

/-- An access to a slot is quiet, whatever it costs. -/
theorem accessSlot (fork : Fork) (slot : Slot) (surcharge : Nat) :
    IsQuiet (accessSlot fork slot surcharge : Effect L Unit) :=
  Follows.accessSlot Conduct.letsWork_quiet.toLetsPay fork slot surcharge

/-- Setting gas aside is quiet. -/
theorem reserveCallGas (c : Context) (requested value : Word) :
    IsQuiet (reserveCallGas c requested value : Effect L Nat) :=
  Follows.reserveCallGas Conduct.letsWork_quiet.toLetsPay c requested value

/-- A push is quiet. -/
theorem push (w : Word) : IsQuiet (push w : Effect L Unit) := Follows.push Conduct.letsWork_quiet w

/-- Taking a word is quiet. -/
theorem pop : IsQuiet (pop : Effect L Word) := onStack _

/-- Taking an address is quiet. -/
theorem popAddress : IsQuiet (popAddress : Effect L Address) :=
  Follows.popAddress Conduct.letsWork_quiet

/-- Taking topics is quiet. -/
theorem popTopics (n : Nat) : IsQuiet (popTopics n : Effect L (List Word)) :=
  Follows.popTopics Conduct.letsWork_quiet n

/-- The output is part of the frame, and is handed on only at its end. -/
theorem setOutput : IsQuiet (setOutput : Effect L Unit) :=
  Follows.setOutput Conduct.letsWork_quiet fun _ _ => modifyFrame fun _ => ⟨rfl, rfl, rfl, rfl⟩

/-- A jump is quiet. -/
theorem jumpTo (target : Word) : IsQuiet (jumpTo target : Effect L Flow) :=
  Follows.jumpTo Conduct.letsWork_quiet (fun _ => modifyFrame fun _ => ⟨rfl, rfl, rfl, rfl⟩) target

/-- Not asking for a child is quiet. -/
theorem skipSpawn (reserved : Nat) : IsQuiet (skipSpawn reserved : Effect L Flow) :=
  Follows.skipSpawn Conduct.letsWork_quiet (fun _ => modifyFrame fun _ => ⟨rfl, rfl, rfl, rfl⟩) reserved

/-- Only storage writes, records and destructions write. -/
theorem ofInstruction (c : Context) (ancestors : List Frame) (i : Instruction)
    (hlog : ∀ n, i ≠ .log n) (hstore : i ≠ .sstore) (hdestroy : i ≠ .selfDestruct) :
    IsQuiet (ofInstruction c ancestors i : Effect L Flow) := by
  cases hi : i.isPlain with
  | true => exact Follows.ofPlain Conduct.letsWork_quiet c ancestors hi
  | false =>
    cases i with
    | log n => exact absurd rfl (hlog n)
    | sstore => exact absurd rfl hstore
    | selfDestruct => exact absurd rfl hdestroy
    | returnDataCopy =>
      exact next (Follows.returnDataCopy Conduct.letsWork_quiet fun _ _ => Local.Quiet.refl) _
    | jump => exact bind pop fun target => jumpTo target
    | jumpi => exact bind (onStack Stack.pop2) fun _ => ite (pure _) (jumpTo _)
    -- asking for a child changes nothing yet
    | create | create2 => exact Follows.create Conduct.letsWork_quiet skipSpawn c _
    | call | callCode | delegateCall | staticCall =>
      exact Follows.call Conduct.letsWork_quiet skipSpawn c _
    | ret => exact next setOutput _
    | revert => exact bind setOutput fun _ => throw _
    | _ => cases hi

end IsQuiet

end Effect

/-! ### Instructions that write -/

section Writers

variable {L : Type} [Ledger L]

/-- All that an instruction can have done to what outlives its frame. -/
inductive Local.Did (s : Local L) : Instruction → Local L → Prop where
  | quiet {i : Instruction} {t : Local L} : s.Quiet t → Did s i t
  | logged {n : Nat} {t : Local L} (entry : Log) : s.frame.isStatic = false → s.Quiet t →
      entry.address = s.frame.address →
      Did s (.log n) { t with frame := { t.frame with logs := t.frame.logs.push entry } }
  | stored {t : Local L} {gas : Meter} (key value : Word) : s.frame.isStatic = false →
      s.Quiet t →
      Did s .sstore
        { frame := { t.frame with gas }
          ledger := Ledger.setStorage t.ledger ⟨s.frame.address, key⟩ value }
  | destroyed {t : Local L} {gas : Meter} {l : L} : s.frame.isStatic = false → s.Quiet t →
      Ledger.Surrendered s.frame.address t.ledger l →
      Did s .selfDestruct
        { frame := ({ t.frame with gas } : Frame).registerSelfDestruct s.frame.address
          ledger := l }

namespace Effect

variable {α β : Type}

/-- From wherever quiet effects may have led, the effect leads to a place with the property. -/
def Finally (s : Local L) (P : Local L → Prop) (e : Effect L α) : Prop :=
  ∀ t, s.Quiet t → P (final e t)

namespace Finally

variable {s : Local L} {P : Local L → Prop}

/-- Quiet effects on the way.  If one fails, what it has led to has to do. -/
theorem after (hP : ∀ t, s.Quiet t → P t) {e : Effect L α} {k : α → Effect L β}
    (he : IsQuiet e) (hk : ∀ a, Finally s P (k a)) : Finally s P (e >>= k) := by
  intro t ht
  have hquiet := ht.trans (he.final t)
  obtain ⟨a, h⟩ | h := final_bind e k t
  · exact h ▸ hk a _ hquiet
  · exact h ▸ hP _ hquiet

/-- The frame that is read still has its message. -/
theorem frame_bind {k : Frame → Effect L α}
    (hk : ∀ f, f.message = s.frame.message → Finally s P (k f)) : Finally s P (frame >>= k) :=
  fun t ht => hk t.frame ht.message t ht

/-- Only a frame that may change state goes on. -/
theorem requireNonStatic_bind (hP : ∀ t, s.Quiet t → P t) {k : Unit → Effect L α}
    (hk : s.frame.isStatic = false → Finally s P (k ())) :
    Finally s P (requireNonStatic >>= k) := by
  intro t ht
  have same : t.frame.isStatic = s.frame.isStatic := congrArg Message.isStatic ht.message
  rw [final, run_requireNonStatic_bind, same]
  cases hs : s.frame.isStatic with
  | true => exact hP t ht
  | false => exact hk hs t ht

end Finally

/-- A record is made at the end, if the frame may make one. -/
theorem log_did (s : Local L) (n : Nat) : s.Did (.log n) (final (log n) s) := by
  refine Finally.requireNonStatic_bind (fun _ => .quiet) (fun writable => ?_) s (.refl s)
  refine .after (fun _ => .quiet) (.onStack Stack.pop2) fun (offset, size) => ?_
  refine .after (fun _ => .quiet) (.popTopics n) fun topics => ?_
  refine .after (fun _ => .quiet) (.extendMemory _ _) fun _ => ?_
  refine .after (fun _ => .quiet) (.charge _) fun _ => ?_
  refine .after (fun _ => .quiet) (.readMemory _ _) fun data t ht => ?_
  exact .logged _ writable ht (congrArg Message.recipient ht.message)

/-- A slot is written at the end, if that is allowed and paid for. -/
theorem sstore_did (c : Context) (s : Local L) : s.Did .sstore (final (sstore c) s) := by
  refine Finally.requireNonStatic_bind (fun _ => .quiet) (fun writable => ?_) s (.refl s)
  refine .after (fun _ => .quiet) (.requireSentry c) fun _ => ?_
  refine .after (fun _ => .quiet) (.onStack Stack.pop2) fun (key, value) => ?_
  refine .frame_bind fun f hf => ?_
  have own : f.address = s.frame.address := congrArg Message.recipient hf
  rw [own]
  refine .after (fun _ => .quiet) (.accessSlot _ _ _) fun _ => ?_
  refine fun t ht => Finally.after (fun _ => .quiet) (.charge _) (fun _ u hu => ?_) t ht
  exact .stored key value writable hu

omit [Ledger L] in
/-- The refund for a destruction changes the meter alone. -/
theorem run_refundDestruction (fork : Fork) (ancestors : List Frame) (s : Local L) :
    ∃ gas, (refundDestruction fork ancestors).run s =
      .ok () { s with frame := { s.frame with gas } } := by
  rw [refundDestruction, run_frame_bind]
  dsimp only
  split
  · exact ⟨_, rfl⟩
  · exact ⟨s.frame.gas, rfl⟩

/-- The last part of a destruction, once the balance is known. -/
theorem surrender_did {s t : Local L} (fork : Fork) (ancestors : List Frame)
    (writable : s.frame.isStatic = false) (ht : s.Quiet t) (beneficiary : Address) {balance : Word}
    (hbalance : balance = Ledger.balance t.ledger s.frame.address) :
    s.Did .selfDestruct (final (do
      refundDestruction fork ancestors
      modifyFrame (·.registerSelfDestruct s.frame.address)
      if beneficiary ≠ s.frame.address then
        tryLedger (Ledger.tryAddBalance beneficiary balance) .state
      modifyLedger (Ledger.setBalance · s.frame.address 0)) t) := by
  obtain ⟨gas, hrefund⟩ := run_refundDestruction fork ancestors t
  rw [final_bind_of_ok hrefund, final_bind_of_ok (show (modifyFrame _).run _ = .ok () _ from rfl)]
  by_cases hself : beneficiary = s.frame.address
  · rw [if_neg (not_not.2 hself)]
    exact .destroyed writable ht .burned
  · rw [if_pos hself]
    cases hadd : Ledger.tryAddBalance beneficiary balance t.ledger with
    | ok u l =>
      rw [final_bind_of_ok (by rw [run_tryLedger, hadd])]
      exact .destroyed writable ht (.handed hself (hbalance ▸ hadd))
    | error e l =>
      -- the account is registered by then, but its frame fails
      rw [final_bind_of_error (by rw [run_tryLedger, hadd])]
      exact .destroyed writable ht (.refused hself (hbalance ▸ hadd))

/-- An account destroys itself at the end, if that is allowed and paid for. -/
theorem selfDestruct_did (c : Context) (ancestors : List Frame) (s : Local L) :
    s.Did .selfDestruct (final (selfDestruct c ancestors) s) := by
  refine Finally.requireNonStatic_bind (fun _ => .quiet) (fun writable => ?_) s (.refl s)
  refine .after (fun _ => .quiet) .popAddress fun beneficiary => .frame_bind fun f hf => ?_
  have own : f.address = s.frame.address := congrArg Message.recipient hf
  rw [own]
  refine .after (fun _ => .quiet) (.accessAccount _ _ _) fun _ t ht => ?_
  show s.Did .selfDestruct (final (if _ then _ else _) t)
  -- the charge for a new account comes before anything is surrendered
  split
  · cases hgas : t.frame.gas.consume Gas.newAccount with
    | ok gas =>
      rw [final_bind_of_ok (by rw [run_charge, hgas])]
      have hquiet := ht.trans ((IsQuiet.charge Gas.newAccount).final t)
      rw [final_of_ok (by rw [run_charge, hgas])] at hquiet
      exact surrender_did c.fork ancestors writable hquiet beneficiary rfl
    | error e =>
      rw [final_bind_of_error (by rw [run_charge, hgas])]
      exact .quiet ht
  · exact surrender_did c.fork ancestors writable ht beneficiary rfl

omit [Ledger L] in
/-- Where the program goes on comes after everything is done. -/
theorem final_next (e : Effect L Unit) (flow : Flow) (s : Local L) :
    final (do e; return flow) s = final e s := by
  obtain ⟨_, h⟩ | h := final_bind e (fun _ => (return flow : Effect L Flow)) s
  · exact h
  · exact h

/-- Every instruction does what its kind allows. -/
theorem ofInstruction_did (c : Context) (ancestors : List Frame) (i : Instruction) (s : Local L) :
    s.Did i (final (ofInstruction c ancestors i) s) := by
  by_cases hlog : ∃ n, i = .log n
  · obtain ⟨n, rfl⟩ := hlog
    exact (final_next (log n) .next s).symm ▸ log_did s n
  · by_cases hstore : i = .sstore
    · subst hstore
      exact (final_next (sstore c) .next s).symm ▸ sstore_did c s
    · by_cases hdestroy : i = .selfDestruct
      · subst hdestroy
        exact (final_next (selfDestruct c ancestors) .halt s).symm ▸ selfDestruct_did c ancestors s
      · have hlog' (n : Nat) : i ≠ .log n := fun h => hlog ⟨n, h⟩
        exact .quiet (IsQuiet.ofInstruction c ancestors i hlog' hstore hdestroy |>.final s)

end Effect

/-- What is done after accesses is done. -/
theorem Local.Quiet.did {s t u : Local L} {i : Instruction} (h : s.Quiet t) (k : t.Did i u) :
    s.Did i u := by
  have hstatic : t.frame.isStatic = s.frame.isStatic := congrArg Message.isStatic h.message
  have haddress : t.frame.address = s.frame.address := congrArg Message.recipient h.message
  -- an instruction after some quiet work is the instruction from the start
  cases k with
  | quiet hquiet => exact .quiet (h.trans hquiet)
  | logged entry writable hquiet hentry =>
    exact .logged entry (hstatic ▸ writable) (h.trans hquiet) (hentry.trans haddress)
  | stored key value writable hquiet =>
    rw [haddress]
    exact .stored key value (hstatic ▸ writable) (h.trans hquiet)
  | destroyed writable hquiet hsurrendered =>
    rw [haddress] at hsurrendered ⊢
    exact .destroyed (hstatic ▸ writable) (h.trans hquiet) hsurrendered

/-! ### Turns -/

/-- The instruction that is next, if there is one. -/
def Frame.nextInstruction (fork : Fork) (f : Frame) : Option Instruction :=
  f.program.current.bind (Instruction.decode fork)

/-- What an instruction has done once it is paid for, or could not be. -/
theorem Local.paidEffect_did (c : Context) (ancestors : List Frame) (i : Instruction)
    (s : Local L) : s.Did i (Effect.final (paidEffect c ancestors i) s) := by
  have paid := (Effect.IsQuiet.charge (i.staticGas c.fork)).final s
  obtain ⟨_, h⟩ | h := Effect.final_bind (Effect.charge (i.staticGas c.fork))
    (fun _ => Effect.ofInstruction c ancestors i) s
  · exact h ▸ paid.did (Effect.ofInstruction_did c ancestors i _)
  · exact h ▸ .quiet paid

/-- A turn leads to where its instruction leads, up to the place in the program. -/
theorem Local.runInstruction_final (c : Context) (ancestors : List Frame) (s : Local L)
    (trace : Trace) (i : Instruction) :
    ∃ program, (s.runInstruction c ancestors trace i).2.1 =
      let t := Effect.final (paidEffect c ancestors i) s
      { t with frame := { t.frame with program } } := by
  unfold runInstruction Effect.final
  cases (paidEffect c ancestors i).run s with
  | ok flow t =>
    cases flow with
    | next => exact ⟨_, rfl⟩
    | jumped => exact ⟨t.frame.program, rfl⟩
    | halt => exact ⟨t.frame.program, rfl⟩
    | spawn message k => exact ⟨_, rfl⟩
  | error e t =>
    refine ⟨t.frame.program, ?_⟩
    cases e <;> rfl

/-- What has been done is done wherever the program goes on. -/
theorem Local.Did.withProgram {s t : Local L} {i : Instruction} (h : s.Did i t)
    (program : Program) :
    s.Did i { t with frame := { t.frame with program } } := by
  -- what is quiet stays so when the program moves on
  have moved {u : Local L} (hu : s.Quiet u) :
      s.Quiet { u with frame := { u.frame with program } } :=
    ⟨hu.message, hu.logs, hu.selfDestructs, hu.refund, hu.ledger⟩
  cases h with
  | quiet hquiet => exact .quiet (moved hquiet)
  | logged entry writable hquiet hentry => exact .logged entry writable (moved hquiet) hentry
  | stored key value writable hquiet => exact .stored key value writable (moved hquiet)
  | @destroyed u gas l writable hquiet hsurrendered =>
    have swap : ({ ({ u.frame with gas } : Frame).registerSelfDestruct s.frame.address with
        program } : Frame) =
        ({ u.frame with program, gas } : Frame).registerSelfDestruct s.frame.address := by
      unfold Frame.registerSelfDestruct Frame.hasSelfDestructed
      dsimp only
      split <;> rfl
    dsimp only
    rw [swap]
    exact .destroyed writable (moved hquiet) hsurrendered

/-- The turn of a frame is its next instruction, if there is one. -/
theorem Local.turn_eq_runInstruction {c : Context} (ancestors : List Frame) (trace : Trace)
    {s : Local L} {i : Instruction} (h : s.frame.nextInstruction c.fork = some i) :
    s.turn c ancestors trace = s.runInstruction c ancestors trace i := by
  unfold Frame.nextInstruction at h
  obtain ⟨b, hb, hi⟩ := Option.bind_eq_some_iff.1 h
  rw [turn, hb]
  dsimp only
  rw [hi]

/-- Without an instruction a turn only ends the frame. -/
theorem Local.turn_of_none {c : Context} (ancestors : List Frame) (trace : Trace) {s : Local L}
    (h : s.frame.nextInstruction c.fork = none) : (s.turn c ancestors trace).2.1 = s := by
  unfold Frame.nextInstruction at h
  unfold turn
  cases hb : s.frame.program.current with
  | none => rfl
  | some b =>
    rw [hb] at h
    dsimp only
    rw [show Instruction.decode c.fork b = none from h]
    rfl

/-- A turn does nothing, or what its instruction does. -/
theorem Local.turn_did (c : Context) (ancestors : List Frame) (s : Local L) (trace : Trace) :
    (s.turn c ancestors trace).2.1 = s ∨
      ∃ i, s.frame.nextInstruction c.fork = some i ∧ s.Did i (s.turn c ancestors trace).2.1 := by
  cases hnext : s.frame.nextInstruction c.fork with
  | none => exact .inl (turn_of_none ancestors trace hnext)
  | some i =>
    obtain ⟨program, h⟩ := s.runInstruction_final c ancestors trace i
    refine .inr ⟨i, rfl, ?_⟩
    rw [turn_eq_runInstruction ancestors trace hnext, h]
    exact (s.paidEffect_did c ancestors i).withProgram program

end Writers

end Evm
