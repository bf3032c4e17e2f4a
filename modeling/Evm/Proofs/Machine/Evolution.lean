import Evm.Proofs.Ledger.Supply
import Evm.Proofs.Machine.Induction
import Evm.Proofs.Machine.Snapshots
import Evm.Proofs.Machine.Surface

namespace Evm

/-!
# How accounts evolve

A frame writes to the storage of its own account only, and it makes room for a contract, or deposits
code, only at its own account too.  Room is made where there is neither a nonce nor code, so what a
creation puts there replaces nothing.  Therefore code stays where it is, nonces do not fall, and an
account of which no frame runs keeps its code and its storage, as long as it is not destroyed.

* `LedgerState.ClosedUnderFrame` — a relation that holds across all that a frame does before its
  end.
* `LedgerState.Matures`, `LedgerState.KeepsContract` — two of them, about one account.
* `Machine.Evolves.tracks` — such a relation holds across whole lives of frames, if it holds across
  the deposit of code.
* `AccountEvolution` — what this means for an execution.
* `account_evolution` — every execution is like that.
-/

open Ledger

/-! ### What frames do to accounts -/

namespace LedgerState

/-- A relation that holds across all that a frame may do to any account. -/
structure ClosedUnderPayments (Q : LedgerState → LedgerState → Prop) : Prop where
  refl (s : LedgerState) : Q s s
  trans {s t u : LedgerState} : Q s t → Q t u → Q s u
  setBalance (s : LedgerState) (a : Address) (balance : Word) : Q s (s.setBalance a balance)
  raiseNonce (s : LedgerState) (a : Address) : Q s (s.setNonce a (s.nonce a + 1))

/-- A relation that holds across all that a frame of the account does, before its end. -/
structure ClosedUnderFrame (own : Address) (Q : LedgerState → LedgerState → Prop) : Prop
    extends ClosedUnderPayments Q where
  setStorage (s : LedgerState) (key value : Word) : Q s (s.setStorage ⟨own, key⟩ value)
  /-- Room is made for a contract where there is none. -/
  reset {s : LedgerState} (nonce : Nat) : s.nonce own = 0 → s.code own = #[] →
    Q s (s.reset own nonce)

/-- The account keeps its code, if it has any, and its nonce does not fall. -/
structure Matures (a : Address) (s t : LedgerState) : Prop where
  code : s.code a ≠ #[] → t.code a = s.code a
  nonce : s.nonce a ≤ t.nonce a

/-- The account keeps its code and its storage. -/
structure KeepsContract (a : Address) (s t : LedgerState) : Prop where
  code : t.code a = s.code a
  storage (key : Word) : t.storage ⟨a, key⟩ = s.storage ⟨a, key⟩

namespace Matures

variable {a : Address} {s t u : LedgerState}

/-- An account is as mature as itself. -/
theorem refl (s : LedgerState) : Matures a s s := ⟨fun _ => rfl, Nat.le_refl _⟩

/-- An account that matures twice matures. -/
theorem trans (h : Matures a s t) (k : Matures a t u) : Matures a s u where
  code hcode := by
    have hkept := h.code hcode
    rw [k.code (hkept ▸ hcode), hkept]
  nonce := Nat.le_trans h.nonce k.nonce

/-- Every account matures through what frames do, also the one of the frame itself. -/
theorem closed (a own : Address) : ClosedUnderFrame own (Matures a) where
  refl := refl
  trans := trans
  setBalance _ _ _ := ⟨fun _ => rfl, Nat.le_refl _⟩
  raiseNonce s b := by
    refine ⟨fun _ => rfl, ?_⟩
    show s.nonce a ≤ Function.update s.nonce b _ a
    rw [Function.update_apply]
    split
    · rename_i h
      rw [h]
      exact Nat.le_succ _
    · exact Nat.le_refl _
  setStorage _ _ _ := ⟨fun _ => rfl, Nat.le_refl _⟩
  -- a creation clears the account of its own frame, whose nonce was zero
  reset {s} nonce hnonce _ := by
    refine ⟨fun _ => rfl, ?_⟩
    show s.nonce a ≤ Function.update s.nonce own nonce a
    rw [Function.update_apply]
    split
    · rename_i h
      rw [h, hnonce]
      exact Nat.zero_le _
    · exact Nat.le_refl _

/-- It does not matter what becomes of another account. -/
theorem destroyAccount {b : Address} (s : LedgerState) (h : a ≠ b) :
    Matures a s (s.destroyAccount b) where
  code _ := Function.update_of_ne h ..
  nonce := Nat.le_of_eq (Function.update_of_ne h ..).symm

end Matures

namespace KeepsContract

variable {a : Address} {s t u : LedgerState}

/-- Nothing is lost where nothing is done. -/
theorem refl (s : LedgerState) : KeepsContract a s s := ⟨rfl, fun _ => rfl⟩

/-- What is kept twice is kept. -/
theorem trans (h : KeepsContract a s t) (k : KeepsContract a t u) : KeepsContract a s u :=
  ⟨k.code.trans h.code, fun key => (k.storage key).trans (h.storage key)⟩

/-- Payments leave code and storage alone. -/
theorem payments (a : Address) : ClosedUnderPayments (KeepsContract a) where
  refl := refl
  trans := trans
  setBalance _ _ _ := ⟨rfl, fun _ => rfl⟩
  raiseNonce _ _ := ⟨rfl, fun _ => rfl⟩

/-- A frame leaves the contracts of other accounts alone. -/
theorem closed {own : Address} (h : a ≠ own) : ClosedUnderFrame own (KeepsContract a) where
  toClosedUnderPayments := payments a
  setStorage _ _ _ := ⟨rfl, fun _ => Function.update_of_ne (fun hs => h (congrArg Slot.owner hs)) ..⟩
  reset _ _ _ := ⟨rfl, fun _ => if_neg h⟩

/-- So does code for another account. -/
theorem setCode {own : Address} (s : LedgerState) (code : Bytes) (h : a ≠ own) :
    KeepsContract a s (s.setCode own code) :=
  ⟨Function.update_of_ne h .., fun _ => rfl⟩

/-- So does the destruction of another account. -/
theorem destroyAccount {b : Address} (s : LedgerState) (h : a ≠ b) :
    KeepsContract a s (s.destroyAccount b) :=
  ⟨Function.update_of_ne h .., fun _ => if_neg h⟩

end KeepsContract

/-- What holds across the destruction of each of some accounts holds across that of all. -/
theorem foldl_destroyAccount_induction {Q : LedgerState → LedgerState → Prop}
    (hrefl : ∀ s, Q s s) (htrans : ∀ {s t u}, Q s t → Q t u → Q s u) {addresses : List Address}
    (h : ∀ b ∈ addresses, ∀ s : LedgerState, Q s (s.destroyAccount b)) (s : LedgerState) :
    Q s (addresses.foldl .destroyAccount s) := by
  induction addresses generalizing s with
  | nil => exact hrefl s
  | cons b rest ih =>
    have hfirst := h b List.mem_cons_self s
    exact htrans hfirst (ih (fun b hb => h b (List.mem_cons_of_mem _ hb)) (s.destroyAccount b))

end LedgerState

variable {L : Type} [Ledger L] [LawfulLedger L]

namespace LedgerState

variable {Q : LedgerState → LedgerState → Prop} {own : Address} {c : Context}

omit [Ledger L] [LawfulLedger L] in
/-- The failure of a frame. -/
theorem ClosedUnderPayments.afterFailure (h : ClosedUnderPayments Q) (s : LedgerState)
    (m : Message) : Q s (s.afterFailure m) := by
  unfold LedgerState.afterFailure
  split
  · exact h.raiseNonce s m.sender
  · exact h.refl s

/-- A transfer is two payments, or none. -/
theorem ClosedUnderPayments.transfer (h : ClosedUnderPayments Q) {l l' : L}
    {sender recipient : Address} {value : Word}
    (ht : Ledger.transfer l sender recipient value = .ok l') : Q (state l) (state l') := by
  obtain rfl | ⟨-, -, credited, -, rfl⟩ := transfer_cases ht
  · exact h.refl _
  · rw [LawfulLedger.state_setBalance, LawfulLedger.state_setBalance]
    exact h.trans (h.setBalance _ sender _) (h.setBalance _ recipient credited)

namespace ClosedUnderFrame

/-- Preparing a frame. -/
theorem prepared {m : Message} (h : ClosedUnderFrame m.recipient Q) {l l' : L}
    (hprepared : Local.Prepared c m l l') : Q (state l) (state l') := by
  -- by induction on the stages of the preparation
  induction hprepared with
  | refused => exact h.refl _
  | opened =>
    rw [LawfulLedger.state_snapshot, Message.state_entered]
    exact h.afterFailure _ m
  | @cleared l' _ hroom ih =>
    have hvacant : Ledger.nonce l' m.recipient = 0 ∧ Ledger.code l' m.recipient = #[] := by
      rw [StandardLedger.isOccupied_eq] at hroom
      simp only [Bool.or_eq_false_iff, decide_eq_false_iff_not, not_not,
        Bool.not_eq_false', Array.isEmpty_iff] at hroom
      exact hroom.1
    rw [LawfulLedger.state_reset]
    exact h.trans ih (h.reset _ hvacant.1 hvacant.2)
  | moved _ _ ht ih => exact h.trans ih (h.transfer ht)

/-- An instruction. -/
theorem did {s t : Local L} {i : Instruction} (h : ClosedUnderFrame s.frame.address Q)
    (hdid : s.Did i t) : Q (state s.ledger) (state t.ledger) := by
  -- the instruction is quiet, logs, writes a slot or destroys
  cases hdid with
  | quiet hquiet | logged _ _ hquiet _ =>
    rw [hquiet.ledger.state]
    exact h.refl _
  | stored key value _ hquiet =>
    rw [LawfulLedger.state_setStorage, hquiet.ledger.state]
    exact h.setStorage _ key value
  | destroyed _ hquiet hsurrendered =>
    rw [← hquiet.ledger.state]
    cases hsurrendered with
    | refused _ hrefused =>
      dsimp only
      rw [isAtomic_tryAddBalance _ _ hrefused]
      exact h.refl _
    | burned =>
      rw [LawfulLedger.state_setBalance]
      exact h.setBalance _ _ 0
    | handed _ hadd =>
      obtain ⟨sum, -, rfl⟩ := addBalance_cases (LedgerStep.after_eq_ok_iff.2 hadd)
      rw [LawfulLedger.state_setBalance, LawfulLedger.state_setBalance]
      exact h.trans (h.setBalance _ _ sum) (h.setBalance _ _ 0)

end ClosedUnderFrame

end LedgerState

/-- A creation is refused if there is code in the place of its contract: its creator has no nonce
    left, or there is no room. -/
theorem Local.refused_of_code (c : Context) (s : Local L) (hcreate : s.frame.message.isCreate = true)
    (hcode : code s.ledger s.frame.address ≠ #[]) :
    ∃ e, (s.attempt (Effect.prepare c)).1 = some e := by
  -- neither the nonce nor the access nor the snapshot touches the code
  have hentered : code (s.frame.message.entered c s.ledger) s.frame.address =
      code s.ledger s.frame.address := by
    have hstate := congrArg LedgerState.code (s.frame.message.state_entered c s.ledger)
    rw [LedgerState.afterFailure] at hstate
    split at hstate <;> exact congrFun hstate s.frame.address
  have hopened : code (s.opened (s.frame.message.entered c s.ledger)).ledger s.frame.address =
      code s.ledger s.frame.address := by
    have hstate := LawfulLedger.state_snapshot (s.frame.message.entered c s.ledger)
    exact (congrFun (congrArg LedgerState.code hstate) s.frame.address).trans hentered
  have hoccupied : isOccupied (s.opened (s.frame.message.entered c s.ledger)).ledger
      s.frame.message.recipient = true := by
    have hpresent : (code s.ledger s.frame.address).isEmpty = false :=
      Bool.eq_false_iff.2 fun hempty => hcode (Array.isEmpty_iff.1 hempty)
    rw [StandardLedger.isOccupied_eq, show s.frame.message.recipient = s.frame.address from rfl,
      hopened, hpresent]
    simp
  unfold attempt
  rw [Effect.run_prepare, if_pos hcreate, Effect.run_prepareCreate c hcreate]
  dsimp only
  by_cases hnonce : nonce s.ledger s.frame.message.sender < Counter.limit
  · rw [if_pos hnonce, if_pos hoccupied]
    exact ⟨_, rfl⟩
  · rw [if_neg hnonce]
    exact ⟨_, rfl⟩

namespace Machine

variable {c : Context} {m m' last : Machine L} {Q : LedgerState → LedgerState → Prop}

/-- A step of the top frame, up to its end. -/
theorem Stepped.of_closed (h : Stepped c m m')
    (hclosed : LedgerState.ClosedUnderFrame m.top.address Q)
    (hstays : m.below.length ≤ m'.below.length) : Q (state m.ledger) (state m'.ledger) := by
  obtain ⟨-, hledger⟩ | hsame | ⟨o, s, t, hturn, hledger⟩ := h.ledger_cases hstays
  · rw [hledger]
    exact hclosed.prepared (m.toLocal.attempt_prepare_ledger c)
  · rw [hsame]
    exact hclosed.refl _
  · rw [hledger]
    obtain rfl | ⟨i, -, hdid⟩ := turn_did hturn
    · exact hclosed.refl _
    · have hrunning : LedgerState.ClosedUnderFrame m.running.frame.address Q := hclosed
      exact hrunning.did hdid

/-- What is needed to follow a relation through machines of one kind: it holds across what their
    frames do, and from the start of such a frame on also across the deposit of its code. -/
structure Evolves (c : Context) (I : Machine L → Prop) (Q : LedgerState → LedgerState → Prop) :
    Prop extends LedgerState.ClosedUnderPayments Q where
  frame {m : Machine L} : I m → LedgerState.ClosedUnderFrame m.top.address Q
  deposit {m last : Machine L} : I m → m.IsFresh c → Course c m last →
    last.top.phase = .finalizing → Q (state m.ledger) (state last.ledger) →
    Q (state m.ledger) (state (last.toLocal.deposited c).2.ledger)

namespace Evolves

variable {I : Machine L → Prop}

/-- Such a relation holds across whole lives of frames. -/
theorem tracks (h : Evolves c I Q) :
    Tracks c I fun m m' : Machine L => Q (state m.ledger) (state m'.ledger) where
  refl m := h.refl _
  trans := h.trans
  step hm hstep hstays := hstep.of_closed (h.frame hm) hstays
  popped {m last m'} hm hpopped hlife := by
    by_cases hsuccess : (last.topResult c).isSuccess
    · rw [hpopped.succeeded hsuccess]
      exact h.deposit hm hpopped.fresh hpopped.course hpopped.handedTo.1 hlife
    · rw [(hpopped.failed (ExecutionResult.status_ne_success hsuccess)).1]
      exact h.afterFailure _ m.top.message

variable {l : L} {message : Message} {observer : Observer} {x : Machine L}

/-- What evolves holds wherever an execution comes to. -/
theorem visited (h : Evolves c I Q) (hx : Visited c l message observer x)
    (hI : ∀ y, Visited c l message observer y → I y) : Q (state l) (state x.ledger) := by
  have hfrom := hx.tracks h.tracks hI
  rw [show state (launch c l message observer).ledger = state l from state_prewarm l _] at hfrom
  exact hfrom

/-- It holds up to the deposit of code at the end of each frame. -/
theorem deposited (h : Evolves c I Q) (hx : Visited c l message observer x)
    (hphase : x.top.phase = .finalizing) (hI : ∀ y, Visited c l message observer y → I y) :
    Q (state l) (state (x.toLocal.deposited c).2.ledger) := by
  obtain ⟨m, hm, hfresh, hcourse⟩ := hx.exists_course
  have hlife : Q (state m.ledger) (state x.ledger) := by
    refine hcourse.tracks h.tracks fun y hy => hI y ⟨hm.depth, ?_⟩
    exact hm.steps.trans (hy.weaken (Nat.zero_le _))
  exact h.trans (h.visited hm hI) (h.deposit (hI m hm) hfresh hcourse hphase hlife)

/-- It holds across an execution, if it holds across the destructions of the accounts that its
    result names. -/
theorem execution (h : Evolves c I Q) (hI : ∀ y, Visited c l message observer y → I y)
    (hdestroy : (execute c l message observer).result.isSuccess = true →
      ∀ b ∈ (execute c l message observer).result.selfDestructs, ∀ s : LedgerState,
        Q s (s.destroyAccount b)) :
    Q (state l) (state (execute c l message observer).ledger) := by
  by_cases hsuccess : (execute c l message observer).result.isSuccess
  · obtain ⟨last, -, hvisited, -, hphase, hbelow, htop, -, hdestructs, hledger⟩ :=
      execute_succeeded hsuccess
    have hroot : last.isRoot = true := by
      rw [isRoot, hbelow]
      rfl
    -- what the sweep destroys is what the result tells
    have hend := finalize_succeeded isFresh_launch (hvisited.course hbelow) hphase htop
    obtain ⟨gas, output, -, hframe⟩ := last.toLocal.deposited_frame c
    rw [hledger, hend.2, hroot]
    refine h.trans (h.deposited hvisited hphase hI) ?_
    show Q _ (state ((last.toLocal.deposited c).2.frame.selfDestructs.foldl destroyAccount _))
    rw [← Array.foldl_toList, state_foldl_destroyAccount]
    refine LedgerState.foldl_destroyAccount_induction h.refl h.trans (fun b hb => ?_) _
    refine hdestroy hsuccess b ?_
    rw [hframe, Array.mem_toList_iff] at hb
    exact hdestructs ▸ hb
  · by_cases hdepth : c.config.maxCallDepth < message.depth
    · rw [execute_of_depth hdepth]
      exact h.refl _
    · rw [(execute_failed hdepth (ExecutionResult.status_ne_success hsuccess)).1]
      exact h.afterFailure _ message

end Evolves

/-! ### Code that is deposited -/

/-- Where a creation begins with code in the place of its contract, preparing its frame is its end.
    -/
theorem prepare_hasFailed (hcreate : m.top.message.isCreate = true)
    (hcode : code m.ledger m.top.address ≠ #[]) : (m.prepare c).HasFailed := by
  obtain ⟨e, he⟩ := m.toLocal.refused_of_code c hcreate hcode
  unfold prepare HasFailed
  dsimp only
  rw [he]
  exact ⟨rfl, rfl⟩

/-- Where there is code, a frame deposits none. -/
theorem Course.deposited_of_code (h : Course c m last) (hfresh : m.IsFresh c)
    (hphase : last.top.phase = .finalizing) (hcode : code m.ledger m.top.address ≠ #[]) :
    (last.toLocal.deposited c).2.ledger = last.ledger := by
  by_cases hcreate : m.top.message.isCreate = true
  · have hcreated := hfresh.phase
    have hfailed := prepare_hasFailed (c := c) hcreate hcode
    -- the frame has come to its end by its first step
    have hlast : last = m.prepare c := by
      obtain rfl | ⟨m₁, hstep, -, hrest⟩ := h.steps.cases_head
      · exact absurd (hcreated.symm.trans hphase) nofun
      · have hfirst : m.step c = .running (m.prepare c) := by
          rw [step, hcreated]
        obtain rfl := Progress.running.inj (hfirst.symm.trans hstep)
        exact Steps.eq_of_finalizing hrest hfailed.1
    obtain ⟨e, herror⟩ := Option.isSome_iff_exists.1 hfailed.2
    rw [hlast, Local.deposited, show (m.prepare c).toLocal.frame.error = some e from herror]
    rfl
  · have hcall : last.toLocal.frame.message.isCreate = false :=
      (congrArg Message.isCreate h.message).trans (Bool.not_eq_true _ ▸ hcreate)
    unfold Local.deposited
    split
    · rfl
    · rw [hcall]
      rfl

/-- Every account matures. -/
theorem evolves_matures (c : Context) (a : Address) :
    Evolves c (fun _ : Machine L => True) (LedgerState.Matures a) where
  toClosedUnderPayments := (LedgerState.Matures.closed a a).toClosedUnderPayments
  frame {m} _ := LedgerState.Matures.closed a m.top.address
  deposit {m last} _ hfresh hcourse hphase hlife := by
    by_cases hcode : code m.ledger m.top.address ≠ #[]
    · rw [hcourse.deposited_of_code hfresh hphase hcode]
      exact hlife
    · obtain hsame | ⟨deposit, hset⟩ := last.toLocal.deposited_ledger c
      · rw [hsame]
        exact hlife
      · have hown : last.toLocal.frame.address = m.top.address :=
          congrArg Message.recipient hcourse.message
        rw [hset, LawfulLedger.state_setCode, hown]
        refine ⟨fun ha => ?_, hlife.nonce⟩
        -- the account is another one, since it has code from the start
        have hother : a ≠ m.top.address := fun h => hcode (h ▸ ha)
        exact (Function.update_of_ne hother ..).trans (hlife.code ha)

/-- An account of which no frame runs keeps its contract. -/
theorem evolves_keepsContract (c : Context) (a : Address) :
    Evolves c (fun m : Machine L => m.top.address ≠ a) (LedgerState.KeepsContract a) where
  toClosedUnderPayments := LedgerState.KeepsContract.payments a
  frame hother := LedgerState.KeepsContract.closed hother.symm
  deposit {m last} hother _ hcourse _ hlife := by
    obtain hsame | ⟨deposit, hset⟩ := last.toLocal.deposited_ledger c
    · rw [hsame]
      exact hlife
    -- a deposit writes to the account of the frame, which is another one
    · have hown : last.toLocal.frame.address ≠ a := by
        show last.top.message.recipient ≠ a
        rw [hcourse.message]
        exact hother
      rw [hset, LawfulLedger.state_setCode]
      exact hlife.trans (.setCode _ deposit hown.symm)

end Machine

/-! ### Executions -/

open Machine in
/-- Ledgers on which accounts only evolve in the ways of the protocol. -/
structure AccountEvolution (L : Type) [Ledger L] : Prop where
  /-- Code that is there at the start is there at every point of an execution, -/
  code {c : Context} {l : L} {message : Message} {observer : Observer} {a : Address}
    {m : Machine L} : Ledger.code l a ≠ #[] → Visited c l message observer m →
      Ledger.code m.ledger a = Ledger.code l a
  /-- also after the last deposit, which comes before the destructions, -/
  codeDeposited {c : Context} {l : L} {message : Message} {observer : Observer} {a : Address}
    {m : Machine L} : Ledger.code l a ≠ #[] → Visited c l message observer m →
      m.top.phase = .finalizing →
      Ledger.code (m.toLocal.deposited c).2.ledger a = Ledger.code l a
  /-- and after the execution, unless its result names the account as destroyed. -/
  codeAfter (c : Context) (l : L) (message : Message) (observer : Observer) (a : Address) :
    Ledger.code l a ≠ #[] →
      ¬ ((execute c l message observer).result.isSuccess = true ∧
        a ∈ (execute c l message observer).result.selfDestructs) →
      Ledger.code (execute c l message observer).ledger a = Ledger.code l a
  /-- The nonce of an account that is not destroyed has not fallen after an execution. -/
  nonceAfter (c : Context) (l : L) (message : Message) (observer : Observer) (a : Address) :
    ¬ ((execute c l message observer).result.isSuccess = true ∧
        a ∈ (execute c l message observer).result.selfDestructs) →
      nonce l a ≤ nonce (execute c l message observer).ledger a
  /-- An account of which no frame has run has its code and its storage unchanged. -/
  untouched (c : Context) (l : L) (message : Message) (observer : Observer) (a : Address) :
    (∀ m, Visited c l message observer m → m.top.address ≠ a) →
      Ledger.code (execute c l message observer).ledger a = Ledger.code l a ∧
        ∀ key, storage (execute c l message observer).ledger ⟨a, key⟩ = storage l ⟨a, key⟩

namespace Machine

variable {c : Context} {l : L} {message : Message} {observer : Observer} {a : Address}

/-- What an execution names as destroyed is an account of which a frame has run. -/
theorem exists_of_destroyed (hsuccess : (execute c l message observer).result.isSuccess = true)
    (ha : a ∈ (execute c l message observer).result.selfDestructs) :
    ∃ m, Visited c l message observer m ∧ m.top.address = a := by
  have hdepth : message.depth ≤ c.config.maxCallDepth := by
    obtain ⟨_, _, hvisited, -⟩ := execute_succeeded hsuccess
    exact hvisited.depth
  obtain ⟨ms, _, _, htrail, -, -, hdestructs, -⟩ := execute_surface hsuccess
  rw [← Array.mem_toList_iff, hdestructs, List.mem_eraseDups, kept, List.mem_filterMap] at ha
  obtain ⟨m, hm, hnext⟩ := ha
  refine ⟨m, ⟨hdepth, (htrail.steps_of_mem (List.mem_filter.1 hm).1).1⟩, ?_⟩
  -- a frame destroys no account but its own
  unfold nextDestruction at hnext
  split at hnext
  · obtain ⟨i, -, hi⟩ := Option.bind_eq_some_iff.1 hnext
    unfold Frame.destructionOf at hi
    split at hi
    · exact Option.some.inj hi
    · cases hi
  · cases hnext

/-- An account that is not destroyed matures over an execution. -/
theorem matures_execute
    (ha : ¬ ((execute c l message observer).result.isSuccess = true ∧
      a ∈ (execute c l message observer).result.selfDestructs)) :
    LedgerState.Matures a (state l) (state (execute c l message observer).ledger) := by
  refine (evolves_matures c a).execution (fun _ _ => trivial) fun hsuccess b hb s => ?_
  exact .destroyAccount s fun hab => ha ⟨hsuccess, hab ▸ hb⟩

/-- An account that no frame acts on keeps code and storage. -/
theorem keepsContract_execute (h : ∀ m, Visited c l message observer m → m.top.address ≠ a) :
    LedgerState.KeepsContract a (state l) (state (execute c l message observer).ledger) := by
  refine (evolves_keepsContract c a).execution h fun hsuccess b hb s => ?_
  obtain ⟨m, hm, hmb⟩ := exists_of_destroyed hsuccess hb
  exact .destroyAccount s fun hab => h m hm (hmb.trans hab.symm)

end Machine

/-- Accounts evolve so on every lawful ledger. -/
theorem accountEvolution_of_lawful : AccountEvolution L where
  code {c _ _ _ a _} hcode hm :=
    ((Machine.evolves_matures c a).visited hm fun _ _ => trivial).code hcode
  codeDeposited {c _ _ _ a _} hcode hm hphase :=
    ((Machine.evolves_matures c a).deposited hm hphase fun _ _ => trivial).code hcode
  codeAfter _ _ _ _ _ hcode ha := (Machine.matures_execute ha).code hcode
  nonceAfter _ _ _ _ _ ha := (Machine.matures_execute ha).nonce
  untouched _ _ _ _ _ h :=
    ⟨(Machine.keepsContract_execute h).code, (Machine.keepsContract_execute h).storage⟩

/-- On both ledgers, whatever world lies below, accounts only evolve in these ways. -/
theorem account_evolution :
    (∀ (S : Type) [WorldSource S], AccountEvolution (JournaledLedger S)) ∧
      AccountEvolution SnapshotLedger :=
  ⟨fun _ _ => accountEvolution_of_lawful, accountEvolution_of_lawful⟩

/-- A contract calls one that destroys itself.  The code of the first one stays, and so does the
    contract at 9, of which no frame runs. -/
theorem account_evolution_past_destruction :
    let c : Context := { precompiles := .none }
    let l := SnapshotLedger.ofWorld (World.setStorage (World.setCode (World.setCode (World.setCode {}
      9 #[0xfe]) 8 #[0x30, 0xff])
      7 #[0x60, 0, 0x60, 0, 0x60, 0, 0x60, 0, 0x60, 0, 0x60, 8, 0x61, 0xff, 0xff, 0xf1]) ⟨9, 1⟩ 5)
    let message : Message := .call 1 7 0 #[] 300000
    let x := execute c l message .off
    x.result.selfDestructs = #[8] ∧
      (∀ m, Machine.Visited c l message .off m → Ledger.code m.ledger 8 = Ledger.code l 8) ∧
      Ledger.code x.ledger 7 = Ledger.code l 7 ∧
      Ledger.nonce l 7 ≤ Ledger.nonce (execute c l message .off).ledger 7 ∧
      Ledger.code x.ledger 9 = Ledger.code l 9 ∧
      ∀ key, Ledger.storage x.ledger ⟨9, key⟩ = Ledger.storage l ⟨9, key⟩ := by
  intro c l message x
  have destroyed : x.result.selfDestructs = #[8] := by decide +kernel
  have kept : ¬ (x.result.isSuccess = true ∧ (7 : Address) ∈ x.result.selfDestructs) := by
    rw [destroyed]
    exact fun h => absurd (Array.mem_singleton.1 h.2) (by decide)
  have elsewhere (m : Machine SnapshotLedger) (hm : Machine.Visited c l message .off m) :
      m.top.address ≠ 9 := by
    -- the execution ends after 16 steps
    have ended : ((Machine.launch c l message .off).after c 16).top.phase = .finalizing := by
      decide +kernel
    have lowest : ((Machine.launch c l message .off).after c 16).below.length = 0 := by
      decide +kernel
    have others : ∀ n ≤ 16, ((Machine.launch c l message .off).after c n).top.address ≠ 9 := by
      decide +kernel
    obtain ⟨n, hn, rfl⟩ := hm.exists_le fun m' hstep =>
      Machine.phase_ne_finalizing hstep (Nat.le_trans (Nat.le_of_eq lowest) (Nat.zero_le _)) ended
    exact others n hn
  have codes (a : Address) (ha : a = 7 ∨ a = 8) : Ledger.code l a ≠ #[] := by
    obtain rfl | rfl := ha <;> decide +kernel
  refine ⟨destroyed, fun m hm => account_evolution.2.code (codes 8 (.inr rfl)) hm, ?_, ?_, ?_⟩
  · exact account_evolution.2.codeAfter c l message .off 7 (codes 7 (.inl rfl)) kept
  · exact account_evolution.2.nonceAfter c l message .off 7 kept
  · exact account_evolution.2.untouched c l message .off 9 elsewhere

end Evm
