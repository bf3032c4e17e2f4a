import Evm.Proofs.Instruction.Footprint
import Evm.Proofs.Ledger.Copies
import Evm.Proofs.Ledger.Journaled
import Evm.Proofs.Machine.Invariant

namespace Evm

/-!
# Failure leaves nothing behind

A frame that is reverted or fails leaves the ledger as it was when the frame was put on the stack,
whatever ran on top of it in between.  A creation leaves two marks all the same: the nonce that it
has used up, and the access to its target.

* `LedgerState.afterFailure`, `Warmth.afterFailure` — what a failed frame leaves.
* `Local.Settled` — the end of a frame, as its snapshot is kept, undone or was never taken.
* `Machine.Popped` — the whole life of a frame on the stack.
* `FailureAtomic` — failed frames and failed messages leave nothing else.
* `failureAtomic_of_lawful` — this holds on every lawful ledger.
-/

/-- What the failure of a frame leaves of the accounts: a creation has used up a nonce, if its
    sender had one left. -/
def LedgerState.afterFailure (s : LedgerState) (m : Message) : LedgerState :=
  if m.isCreate ∧ s.nonce m.sender < Counter.limit then
    s.setNonce m.sender (s.nonce m.sender + 1)
  else s

/-- What the failure of a frame leaves of the accesses: where there are access lists, a creation
    that has used up a nonce has accessed its target. -/
def Warmth.afterFailure (w : Warmth) (s : LedgerState) (fork : Fork) (m : Message) : Warmth :=
  if (m.isCreate ∧ s.nonce m.sender < Counter.limit) ∧ fork.accessLists then
    w.touchAccount m.recipient
  else w

namespace Machine

variable {L : Type} [Ledger L]

/-- What the top frame would hand to its parent if it ended now. -/
def topResult (c : Context) (m : Machine L) : ExecutionResult :=
  (m.toLocal.finalize c m.isRoot).1

/-- The life of a frame that is not the first one: from `m`, on which it has just been put, through
    `last` by steps in which it stays on the stack, to `m'` by the step that pops it. -/
structure Popped (c : Context) (m last m' : Machine L) : Prop where
  fresh : m.IsFresh c
  steps : Steps c m.below.length m last
  step : last.step c = .running m'
  popped : m'.below.length < m.below.length

end Machine

open Ledger in
/-- Ledgers on which a failure leaves nothing behind. -/
structure FailureAtomic (L : Type) [Ledger L] : Prop where
  /-- A failed message leaves the accounts as they were, but for the nonce of a creator. -/
  state_execute (c : Context) (l : L) (message : Message) (observer : Observer) :
    (execute c l message observer).result.status ≠ .success →
      state (execute c l message observer).ledger =
        if c.config.maxCallDepth < message.depth then state l else (state l).afterFailure message
  /-- It leaves accessed what counts as accessed from the start, and nothing else. -/
  warmth_execute (c : Context) (l : L) (message : Message) (observer : Observer) :
    (execute c l message observer).result.status ≠ .success →
      warmth (execute c l message observer).ledger =
        if c.config.maxCallDepth < message.depth then warmth l
        else (prewarmed c (message.resolve l)).foldl .touchAccount (warmth l)
  /-- A failed frame leaves the accounts as they were when it was put on the stack. -/
  state_frame {c : Context} {m last m' : Machine L} :
    Machine.Popped c m last m' → (last.topResult c).status ≠ .success →
      state m'.ledger = (state m.ledger).afterFailure m.top.message
  /-- So it does with the accesses. -/
  warmth_frame {c : Context} {m last m' : Machine L} :
    Machine.Popped c m last m' → (last.topResult c).status ≠ .success →
      warmth m'.ledger = (warmth m.ledger).afterFailure (state m.ledger) c.fork m.top.message

section Lawful

variable {L : Type} [Ledger L] [LawfulLedger L]

/-! ### The end of a failed frame -/

/-- What a creation does before its snapshot is what its failure leaves. -/
theorem Message.state_entered (c : Context) (m : Message) (l : L) :
    Ledger.state (m.entered c l) = (Ledger.state l).afterFailure m := by
  unfold entered LedgerState.afterFailure
  rw [Ledger.state_nonce]
  split
  · dsimp only
    split
    · rw [LawfulLedger.state_accessAccount, LawfulLedger.state_setNonce]
    · rw [LawfulLedger.state_setNonce]
  · rfl

/-- A snapshot changes no answer. -/
theorem Local.state_opened (s : Local L) (l : L) :
    Ledger.state (s.opened l).ledger = Ledger.state l :=
  LawfulLedger.state_snapshot l

/-- Once there is room for a contract, its account is reset, and the creator has used a nonce. -/
theorem Local.state_cleared (c : Context) (s : Local L) :
    Ledger.state ((s.opened (s.frame.message.entered c s.ledger)).cleared c).ledger =
      ((Ledger.state s.ledger).afterFailure s.frame.message).reset s.frame.message.recipient
        (Effect.initialNonce c.fork) := by
  rw [← s.frame.message.state_entered c, ← s.state_opened (s.frame.message.entered c s.ledger)]
  exact LawfulLedger.state_reset _ _ _

/-- What a creation accesses before its snapshot stays accessed. -/
theorem Message.warmth_entered (c : Context) (m : Message) (l : L) :
    Ledger.warmth (m.entered c l) =
      (Ledger.warmth l).afterFailure (Ledger.state l) c.fork m := by
  unfold entered Warmth.afterFailure
  rw [Ledger.state_nonce]
  by_cases hraised : m.isCreate ∧ Ledger.nonce l m.sender < Counter.limit
  · rw [if_pos hraised]
    dsimp only
    by_cases hfork : c.fork.accessLists
    · rw [if_pos hfork, if_pos ⟨hraised, hfork⟩, LawfulLedger.warmth_accessAccount,
        LawfulLedger.warmth_setNonce]
    · rw [if_neg hfork, if_neg fun h => hfork h.2, LawfulLedger.warmth_setNonce]
  · rw [if_neg hraised, if_neg fun h => hraised h.1]

omit [Ledger L] [LawfulLedger L] in
/-- The result is drawn from the frame. -/
theorem Local.ledger_conclude (s : Local L) (error : Option VmError) :
    (s.conclude error).2.ledger = s.ledger := by
  obtain ⟨gas, -, heq⟩ := s.conclude_frame error
  rw [heq]

omit [LawfulLedger L] in
/-- The ledger at the end of a frame is what the settling of its snapshot leaves. -/
theorem Local.finalize_ledger (c : Context) (isRoot : Bool) (s : Local L) :
    (s.finalize c isRoot).2.ledger =
      (((s.deposited c).2.swept isRoot (s.deposited c).1).settle (s.deposited c).1).2.ledger := by
  rw [finalize_eq]
  exact ledger_conclude _ _

omit [LawfulLedger L] in
/-- A frame succeeds if nothing is wrong when its snapshot has been settled. -/
theorem Local.finalize_isSuccess (c : Context) (isRoot : Bool) (s : Local L) :
    (s.finalize c isRoot).1.isSuccess =
      (((s.deposited c).2.swept isRoot (s.deposited c).1).settle (s.deposited c).1).1.isNone := by
  rw [finalize_eq]
  exact conclude_isSuccess _ _

/-- The ledger itself, coupled to itself, with nothing asked of it. -/
abbrev EngineCoupling.self (L : Type) [Ledger L] : EngineCoupling L L :=
  LedgerInvariant.trivial.diagonal

/-- How a frame settles its snapshot at its end.  It has begun on the ledger `e` and was to take the
    snapshot of `b`; it has come to the ledger `l`, then to the place `s`, and its end is `r`. -/
inductive Local.Settled (f : Frame) (b e l : L) (error : Option VmError) (s : Local L)
    (r : ExecutionResult × Local L) : Prop where
  /-- The frame was refused before it took a snapshot, and nothing has happened. -/
  | refused : f.snapshot = none → b = e → l = e → s.ledger = l → error.isSome = true →
      r.2.ledger = l → r.1.isSuccess = false → Settled f b e l error s r
  /-- The frame has not failed, and its changes are kept. -/
  | kept : f.snapshot = some (Ledger.snapshot b).1 →
      Ledger.History (Ledger.snapshot b).2 s.ledger → error = none →
      Ledger.commit s.ledger (Ledger.snapshot b).1 = .ok r.2.ledger →
      Ledger.state r.2.ledger = Ledger.state s.ledger → r.1.isSuccess = true →
      Settled f b e l error s r
  /-- The frame has failed, and its changes are undone. -/
  | undone (err : VmError) : f.snapshot = some (Ledger.snapshot b).1 →
      Ledger.History (Ledger.snapshot b).2 s.ledger → error = some err →
      Ledger.rollback s.ledger (Ledger.snapshot b).1 = .ok r.2.ledger →
      Ledger.state r.2.ledger = Ledger.state b → Ledger.warmth r.2.ledger = Ledger.warmth b →
      r.1.isSuccess = false → Settled f b e l error s r

/-- A frame at its end settles its snapshot, after the deposit of code and the destruction of
    accounts. -/
theorem Local.finalize_settled {c : Context} {f : Frame} {e l : L}
    (h : (EngineCoupling.self L).Alive c f f e e l l) (hphase : f.phase = .finalizing)
    (isRoot : Bool) :
    Settled f (f.message.entered c e) e l (Local.deposited c ⟨f, l⟩).1
      ((Local.deposited c ⟨f, l⟩).2.swept isRoot (Local.deposited c ⟨f, l⟩).1)
      (Local.finalize c isRoot ⟨f, l⟩) := by
  -- up to the settling of the snapshot, the end of a frame is one more piece of history
  have hswept : (EngineCoupling.self L).Ending l l f.snapshot _ _ :=
    (EngineCoupling.deposited_alike (c := c) (f := f) h.now fun _ => .inl True.intro).swept isRoot
  have hhistory := hswept.since.left
  have hsnapshot := swept_snapshot c isRoot ⟨f, l⟩ (Local.deposited c ⟨f, l⟩).1
  have hledger := Local.finalize_ledger c isRoot ⟨f, l⟩
  have hsuccess := Local.finalize_isSuccess c isRoot ⟨f, l⟩
  have hstage := h.stage
  generalize htoken : f.snapshot = token at hstage
  cases hstage with
  | created hcreated =>
    rw [hphase] at hcreated
    cases hcreated
  | refused _ hnone herror hsame =>
    -- the frame has not come as far as its snapshot, and nothing has happened
    obtain ⟨err, herr⟩ := Option.isSome_iff_exists.1 herror
    have hkept : Local.deposited c ⟨f, e⟩ = (some err, ⟨f, e⟩) := by
      simp only [Local.deposited, herr]
    rw [hkept] at hledger hsuccess ⊢
    have still : (⟨f, e⟩ : Local L).swept isRoot (some err) = ⟨f, e⟩ := by
      simp [Local.swept]
    rw [still] at hledger hsuccess ⊢
    simp only [Local.settle, hnone] at hledger hsuccess
    exact .refused hnone hsame rfl rfl rfl hledger hsuccess
  | opened _ hsome hsince =>
    have hwhole := hsince.left.trans hhistory
    dsimp only at hwhole
    cases hresult : (Local.deposited c ⟨f, l⟩).1 with
    | none =>
      rw [hresult] at hwhole hsnapshot hledger hsuccess
      obtain ⟨k, hcommit, hsettled, hstate⟩ :=
        Local.settle_none (hsnapshot.trans hsome) hwhole
      rw [hsettled] at hledger hsuccess
      obtain rfl : (Local.finalize c isRoot ⟨f, l⟩).2.ledger = k := hledger
      exact .kept hsome hwhole rfl hcommit hstate hsuccess
    | some err =>
      rw [hresult] at hwhole hsnapshot hledger hsuccess
      obtain ⟨k, hrollback, hsettled, hstate, hwarmth⟩ :=
        Local.settle_some err (hsnapshot.trans hsome) hwhole
      rw [hsettled] at hledger hsuccess
      obtain rfl : (Local.finalize c isRoot ⟨f, l⟩).2.ledger = k := hledger
      exact .undone err hsome hwhole rfl hrollback hstate hwarmth hsuccess

/-- A frame that ends without success leaves what was there when its snapshot was taken. -/
theorem Local.finalize_failed {c : Context} {f : Frame} {e l : L}
    (h : (EngineCoupling.self L).Alive c f f e e l l) (hphase : f.phase = .finalizing)
    (isRoot : Bool) (hfailed : (Local.finalize c isRoot ⟨f, l⟩).1.status ≠ .success) :
    Ledger.state (Local.finalize c isRoot ⟨f, l⟩).2.ledger =
        Ledger.state (f.message.entered c e) ∧
      Ledger.warmth (Local.finalize c isRoot ⟨f, l⟩).2.ledger =
        Ledger.warmth (f.message.entered c e) := by
  cases finalize_settled h hphase isRoot with
  | refused _ hentered hsame _ _ hledger _ =>
    rw [hledger, hsame, hentered]
    exact ⟨rfl, rfl⟩
  | kept _ _ _ _ _ hsuccess => exact absurd (of_decide_eq_true hsuccess) hfailed
  | undone _ _ _ _ _ hstate hwarmth _ => exact ⟨hstate, hwarmth⟩

/-! ### Frames -/

omit [Ledger L] [LawfulLedger L] in
/-- What is no success has another status. -/
theorem ExecutionResult.status_ne_success {r : ExecutionResult} (h : ¬ r.isSuccess = true) :
    r.status ≠ .success :=
  fun hstatus => h (decide_eq_true hstatus)

/-- A frame that has come to its end, on the stack as when it was put there, and fails. -/
theorem Machine.finalize_failed {c : Context} {m last : Machine L} (hfresh : m.IsFresh c)
    (hsteps : Machine.Steps c m.below.length m last)
    (hlength : last.below.length = m.below.length) (hphase : last.top.phase = .finalizing)
    (hfailed : (last.topResult c).status ≠ .success) :
    Ledger.state (last.toLocal.finalize c last.isRoot).2.ledger =
        (Ledger.state m.ledger).afterFailure m.top.message ∧
      Ledger.warmth (last.toLocal.finalize c last.isRoot).2.ledger =
        (Ledger.warmth m.ledger).afterFailure (Ledger.state m.ledger) c.fork m.top.message := by
  have hrelated := LedgerInvariant.trivial.steps_related hsteps
    (LedgerInvariant.trivial.related_of_isFresh hfresh True.intro)
  obtain ⟨-, l, k, hbelow, halive⟩ := hrelated
  obtain ⟨rfl, rfl⟩ := hbelow.eq_of_length hlength
  rw [← hsteps.message hlength, ← Message.state_entered, ← Message.warmth_entered]
  exact Local.finalize_failed halive hphase last.isRoot hfailed

/-- A frame that is popped without success leaves what was there when it was put on the stack, but
    for its nonce and its target. -/
theorem Machine.Popped.failed {c : Context} {m last m' : Machine L} (h : Machine.Popped c m last m')
    (hfailed : (last.topResult c).status ≠ .success) :
    Ledger.state m'.ledger = (Ledger.state m.ledger).afterFailure m.top.message ∧
      Ledger.warmth m'.ledger =
        (Ledger.warmth m.ledger).afterFailure (Ledger.state m.ledger) c.fork m.top.message := by
  have hstays := (h.steps.messages (Nat.le_refl _)).length_le
  have hpopped := h.popped
  rw [length_messages, length_messages] at hstays
  obtain hmore | ⟨hphase, hless, hledger⟩ := step_messages h.step
  · -- a step that drops no message pops no frame
    have hlonger := hmore.length_le
    rw [length_messages, length_messages] at hlonger
    omega
  · have hshorter := congrArg List.length hless
    rw [List.length_tail, length_messages, length_messages] at hshorter
    rw [hledger]
    exact finalize_failed h.fresh h.steps (by omega) hphase hfailed

/-! ### Messages -/

/-- So does the first frame. -/
theorem Machine.run_failed {c : Context} {l : L} {t : Trace} {message : Message}
    (hfailed : (Machine.run c l t message).result.status ≠ .success) :
    Ledger.state (Machine.run c l t message).ledger =
        (Ledger.state l).afterFailure message ∧
      Ledger.warmth (Machine.run c l t message).ledger =
        (Ledger.warmth l).afterFailure (Ledger.state l) c.fork message := by
  obtain ⟨last, hsteps, -, hdone⟩ := run_eq c l t message
  obtain ⟨hphase, hbelow, hresult, hledger⟩ := step_done hdone
  rw [hresult] at hfailed
  rw [hledger]
  have hfresh : (start c l t message).IsFresh c := ⟨message, 0, rfl⟩
  exact finalize_failed hfresh hsteps (by rw [hbelow]; rfl) hphase hfailed

omit [LawfulLedger L] in
/-- What a failure leaves does not depend on the target. -/
theorem LedgerState.afterFailure_resolve (s : LedgerState) (m : Message) (l : L) :
    s.afterFailure (m.resolve l) = s.afterFailure m := by
  rcases m.resolve_cases l with h | ⟨a, h⟩
  · rw [h]
  · rw [h]
    rfl

/-- Accesses before the first frame leave the accounts alone. -/
theorem Ledger.state_prewarm (l : L) (addresses : List Address) :
    state (addresses.foldl (fun l a => (accessAccount l a).2) l) = state l :=
  (accessed_foldl l addresses).state

/-- The accounts that count as accessed from the start. -/
theorem Ledger.warmth_prewarm (l : L) (addresses : List Address) :
    warmth (addresses.foldl (fun l a => (accessAccount l a).2) l) =
      addresses.foldl .touchAccount (warmth l) := by
  induction addresses generalizing l with
  | nil => rfl
  | cons a rest ih => rw [List.foldl_cons, ih, LawfulLedger.warmth_accessAccount, List.foldl_cons]

omit [Ledger L] [LawfulLedger L] in
/-- An account that is accessed among others is warm. -/
theorem Warmth.account_foldl_touchAccount (w : Warmth) {addresses : List Address} {a : Address}
    (h : a ∈ addresses ∨ w.account a = .warm) :
    (addresses.foldl touchAccount w).account a = .warm := by
  induction addresses generalizing w with
  | nil => exact h.resolve_left List.not_mem_nil
  | cons b rest ih =>
    refine ih (w.touchAccount b) ?_
    by_cases hb : a = b
    · rw [hb]
      exact .inr (Function.update_self ..)
    · obtain h | h := h
      · exact .inl ((List.mem_cons.1 h).resolve_left hb)
      · exact .inr ((Function.update_of_ne hb ..).trans h)

/-- A creation finds its target accessed from the start. -/
theorem Warmth.afterFailure_prewarmed (w : Warmth) (s : LedgerState) (c : Context) (m : Message) :
    ((prewarmed c m).foldl touchAccount w).afterFailure s c.fork m =
      (prewarmed c m).foldl touchAccount w := by
  unfold afterFailure
  split
  · rename_i h
    refine touchAccount_eq_self (account_foldl_touchAccount w (.inl ?_))
    simp [prewarmed, h.2]
  · rfl

/-- So does an execution, which accesses some accounts before. -/
theorem execute_failed {c : Context} {l : L} {message : Message} {observer : Observer}
    (hdepth : ¬ c.config.maxCallDepth < message.depth)
    (hfailed : (execute c l message observer).result.status ≠ .success) :
    Ledger.state (execute c l message observer).ledger = (Ledger.state l).afterFailure message ∧
      Ledger.warmth (execute c l message observer).ledger =
        (prewarmed c (message.resolve l)).foldl .touchAccount (Ledger.warmth l) := by
  unfold execute at hfailed ⊢
  dsimp only at hfailed ⊢
  rw [if_neg hdepth] at hfailed ⊢
  obtain ⟨hstate, hwarmth⟩ := Machine.run_failed hfailed
  dsimp only
  rw [hstate, hwarmth, Ledger.state_prewarm, Ledger.warmth_prewarm,
    LedgerState.afterFailure_resolve, Warmth.afterFailure_prewarmed]
  exact ⟨rfl, rfl⟩

/-! ### Everywhere -/

/-- Failures are atomic on every lawful ledger. -/
theorem failureAtomic_of_lawful : FailureAtomic L where
  state_execute c l message observer hfailed := by
    by_cases hdepth : c.config.maxCallDepth < message.depth
    · rw [if_pos hdepth, execute, if_pos hdepth]
    -- a message too deep is refused before anything is touched
    · rw [if_neg hdepth]
      exact (execute_failed hdepth hfailed).1
  warmth_execute c l message observer hfailed := by
    by_cases hdepth : c.config.maxCallDepth < message.depth
    · rw [if_pos hdepth, execute, if_pos hdepth]
    · rw [if_neg hdepth]
      exact (execute_failed hdepth hfailed).2
  state_frame h hfailed := (h.failed hfailed).1
  warmth_frame h hfailed := (h.failed hfailed).2

end Lawful

/-- On both ledgers, whatever world lies below, a failure leaves nothing behind. -/
theorem failure_atomic :
    (∀ (S : Type) [WorldSource S], FailureAtomic (JournaledLedger S)) ∧
      FailureAtomic SnapshotLedger :=
  ⟨fun _ _ => failureAtomic_of_lawful, failureAtomic_of_lawful⟩

/-- A contract that writes a slot and then runs into an instruction that does not exist leaves
    nothing.  A creation that its sender cannot pay for leaves a nonce. -/
theorem failure_atomic_instances :
    (execute { precompiles := .none }
        (SnapshotLedger.ofWorld (World.setCode {} 7 #[0x60, 1, 0x60, 0, 0x55, 0xfe]))
        (.call 1 7 0 #[] 100000)).result.status = .failed ∧
      Ledger.state (execute { precompiles := .none }
          (SnapshotLedger.ofWorld (World.setCode {} 7 #[0x60, 1, 0x60, 0, 0x55, 0xfe]))
          (.call 1 7 0 #[] 100000)).ledger =
        Ledger.state (SnapshotLedger.ofWorld (World.setCode {} 7 #[0x60, 1, 0x60, 0, 0x55, 0xfe])) ∧
    let c : Context := { precompiles := .none }
    let m : Machine (JournaledLedger World) :=
      { top := .ofMessage { Message.create 1 5 #[] 0 with recipient := 9 } 0 c.config.stackLimit
        below := [.ofMessage (.call 1 1 0 #[] 0) 0 c.config.stackLimit]
        ledger := .ofSource {} }
    ∃ last m', Machine.Popped c m last m' ∧ (last.topResult c).status = .failed ∧
      Ledger.state m'.ledger = (Ledger.state m.ledger).setNonce 1 1 := by
  refine ⟨by decide +kernel, failure_atomic.2.state_execute _ _ _ _ (by decide +kernel), ?_⟩
  intro c m
  have popped : Machine.Popped c m (m.prepare c) _ :=
    ⟨⟨_, _, rfl⟩, .tail (.refl m) rfl (Nat.le_refl _), rfl, Nat.zero_lt_one⟩
  have failed : ((m.prepare c).topResult c).status = .failed := by decide +kernel
  exact ⟨_, _, popped, failed, (failure_atomic.1 World).state_frame popped (failed ▸ nofun)⟩

end Evm
