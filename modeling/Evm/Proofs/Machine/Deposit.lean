import Evm.Proofs.Instruction.Output
import Evm.Proofs.Machine.Aborts
import Evm.Proofs.Machine.Origins

namespace Evm

/-!
# Depositing code

A creation that has come to its end without a failure has the bytes that it returns made the code of
the new account, if they may be code and the gas that is left pays for them.  If they may not, or on
later forks if they are not paid for, the creation fails after all, with all of its gas and without
any of its changes.

* `Context.Admits` — code that a creation may leave, out of so much gas.
* `Local.Deposit` — all that depositing code can come to.
* `Machine.Deposits` — a creation that is to deposit code.
* `Machine.Deposited`, `Machine.Discarded` — what becomes of it.
* `CodeDeposits`, `code_deposits` — just the code that is admitted is deposited, on both ledgers.
-/

/-- A creation may leave such code if so much gas is left. -/
structure Context.Admits (c : Context) (code : Bytes) (gas : Nat) : Prop where
  unreserved : ¬ (.london ≤ c.fork ∧ code[0]? = some 0xef)
  fits : ¬ (.spuriousDragon ≤ c.fork ∧ c.config.maxCodeSize < code.size)
  covered : Gas.codeDepositByte * code.size ≤ gas ∨ c.fork = .frontier

/-- The price of code that is not longer than any output is exact. -/
theorem Gas.codeDeposit_eq {size : Nat} (h : size ≤ maxOffset) :
    codeDeposit size = codeDepositByte * size := by
  refine Nat.min_eq_left ?_
  calc codeDepositByte * size
      ≤ codeDepositByte * maxOffset := Nat.mul_le_mul_left _ h
    _ ≤ Counter.limit := by decide

/-- Only one fork is older than Homestead. -/
theorem Fork.eq_frontier_of_not_homestead {f : Fork} (h : ¬ .homestead ≤ f) : f = .frontier := by
  cases f <;> first | rfl | exact absurd (by decide) h

variable {L : Type} [Ledger L]

/-! ### What a deposit comes to -/

namespace Local

/-- What depositing the output of a frame as code comes to: the error, if it fails, and the place
    after it.  The output is taken in any case. -/
inductive Deposit (c : Context) (s : Local L) : Option VmError × Local L → Prop where
  | paid {gas : Meter} : c.Admits s.frame.output s.frame.gas.remaining →
      gas.limit = s.frame.gas.limit →
      gas.remaining + Gas.codeDepositByte * s.frame.output.size = s.frame.gas.remaining →
      Deposit c s (none,
        { frame := { s.frame with output := #[], gas }
          ledger := Ledger.setCode s.ledger s.frame.address s.frame.output })
  /-- On Frontier an account may be left without code. -/
  | skipped : c.Admits s.frame.output s.frame.gas.remaining → c.fork = .frontier →
      s.frame.gas.remaining < Gas.codeDepositByte * s.frame.output.size →
      Deposit c s (none, { s with frame := { s.frame with output := #[] } })
  | refused (e : VmError) : ¬ c.Admits s.frame.output s.frame.gas.remaining → e.IsRefusal →
      Deposit c s (some e, { s with frame := { s.frame with output := #[] } })

/-- The deposit by itself, from any state of a creation that ran to its end. -/
theorem attempt_depositCode (c : Context) {s : Local L} (hsize : s.frame.output.size ≤ maxOffset) :
    Deposit c s (s.attempt (Effect.depositCode c)) := by
  have attempted := s.depositAttempt c
  generalize s.attempt (Effect.depositCode c) = r at attempted ⊢
  cases attempted with
  | reserved hreserved => exact .refused _ (fun h => h.unreserved hreserved) trivial
  | tooLong hlong => exact .refused _ (fun h => h.fits hlong) trivial
  | unpaid hfork hshort =>
    rw [Gas.codeDeposit_eq hsize] at hshort
    refine .refused _ (fun h => ?_) trivial
    rcases h.covered with hcovered | hfrontier
    · exact absurd hcovered (Nat.not_le.2 hshort)
    · rw [hfrontier] at hfork
      exact absurd hfork (by decide)
  | dropped hreserved hlong hfork hshort =>
    rw [Gas.codeDeposit_eq hsize] at hshort
    -- the only fork that takes an output it cannot pay for is the oldest one
    have hfrontier := Fork.eq_frontier_of_not_homestead hfork
    exact .skipped ⟨hreserved, hlong, .inr hfrontier⟩ hfrontier hshort
  | paid hreserved hlong hpaid =>
    rw [Gas.codeDeposit_eq hsize] at hpaid
    obtain ⟨hlimit, hspent, -⟩ := Meter.consume_eq_ok_iff.1 hpaid
    exact .paid ⟨hreserved, hlong, .inl (by omega)⟩ hlimit hspent

/-- The deposit of code that is admitted. -/
theorem Deposit.of_admits {c : Context} {s : Local L} {r : Option VmError × Local L}
    (h : Deposit c s r) (hadmits : c.Admits s.frame.output s.frame.gas.remaining) :
    let price := Gas.codeDepositByte * s.frame.output.size
    r.1 = none ∧ r.2.frame.output = #[] ∧ r.2.frame.gas.limit = s.frame.gas.limit ∧
      r.2.frame.gas.remaining =
        (if price ≤ s.frame.gas.remaining then s.frame.gas.remaining - price
        else s.frame.gas.remaining) ∧
      r.2.ledger =
        (if price ≤ s.frame.gas.remaining then
          Ledger.setCode s.ledger s.frame.address s.frame.output
        else s.ledger) ∧
      (s.frame.gas.remaining < price → c.fork = .frontier) := by
  intro price
  cases h with
  | @paid gas _ hlimit hspent =>
    have covered : price ≤ s.frame.gas.remaining := Nat.le.intro ((Nat.add_comm _ _).trans hspent)
    rw [if_pos covered, if_pos covered]
    refine ⟨rfl, rfl, hlimit, Nat.eq_sub_of_add_eq hspent, rfl, fun hshort => ?_⟩
    exact absurd covered (Nat.not_le.2 hshort)
  | skipped _ hfork hshort =>
    rw [if_neg (Nat.not_le.2 hshort), if_neg (Nat.not_le.2 hshort)]
    exact ⟨rfl, rfl, rfl, rfl, rfl, fun _ => hfork⟩
  | refused _ hrefused _ => exact absurd hadmits hrefused

/-- Code that is not admitted is refused. -/
theorem Deposit.of_not_admits {c : Context} {s : Local L} {r : Option VmError × Local L}
    (h : Deposit c s r) (hrefused : ¬ c.Admits s.frame.output s.frame.gas.remaining) :
    ∃ e, r.1 = some e ∧ e.IsRefusal := by
  cases h with
  | paid hadmits | skipped hadmits => exact absurd hadmits hrefused
  | refused e _ hrefusal => exact ⟨e, rfl, hrefusal⟩

end Local

namespace Machine

variable {c : Context} {l : L} {message : Message} {observer : Observer} {m : Machine L}

/-- A creation has come to its end without a failure, with its output to be deposited. -/
structure Deposits (m : Machine L) : Prop where
  phase : m.top.phase = .finalizing
  error : m.top.error = none
  creates : m.top.message.isCreate = true

/-! ### The output of a creation -/

/-- A parent that has taken in its child has the output that it had. -/
theorem handedTo_output (c : Context) (m : Machine L) (parent : Frame) (below : List Frame) :
    (m.handedTo c parent below).top.output = parent.output := by
  obtain ⟨_, _, _, _, _, _, hresumed⟩ := parent.resume_merged
    (m.toLocal.finalize c m.isRoot).2.frame.gas (m.topResult c)
  refine (congrArg Frame.output hresumed).trans ?_
  rw [Frame.mergeChild_eq]
  dsimp only
  split <;> rfl

/-- The output of a creation is not too long.  That of a precompiled contract may be. -/
theorem lasting_output :
    Lasting L c fun f => f.message.isCreate = true → f.output.size ≤ maxOffset where
  prepare {m} _ hm := by
    obtain ⟨program, snapshot, heq⟩ := m.toLocal.attempt_prepare_eq c
    unfold prepare
    dsimp only
    rw [heq]
    split <;> exact hm
  enter {m} hm hcreate := by
    rw [(m.enter_records c).1] at hcreate
    have none : m.calledPrecompile c = none := if_pos hcreate
    unfold enter
    rw [none]
    exact hm hcreate
  turn h hm := by
    have steady : Frame.IsSteady fun f => f.message.isCreate = true → f.output.size ≤ maxOffset :=
      { work := fun _ _ _ _ _ _ _ hf => hf
        output := fun hsize _ _ => hsize }
    -- an instruction sets the output from a range of memory, which the reader checks
    exact Local.turn_keeps steady h hm
  finish _ hf := hf
  suspend _ hf := hf
  child _ _ _ _ := Nat.zero_le _
  resume {m parent below} _ hparent := by
    rw [(m.handedTo_records c parent below).1, m.handedTo_output c parent below]
    exact hparent

/-- The deposit of a creation on the machine of an execution. -/
theorem Visited.deposit (h : Visited c l message observer m) (hdeposits : m.Deposits) :
    Local.Deposit c m.toLocal (m.toLocal.deposited c) := by
  have short : m.top.output.size ≤ maxOffset :=
    Steps.lasts (m := launch c l message observer) lasting_output h.steps (fun _ => Nat.zero_le _)
      hdeposits.creates
  have attempted : m.toLocal.deposited c = m.toLocal.attempt (Effect.depositCode c) := by
    rw [Local.deposited, show m.toLocal.frame.error = none from hdeposits.error]
    exact if_pos hdeposits.creates
  rw [attempted]
  exact Local.attempt_depositCode c short

/-! ### The end of a frame -/

variable [LawfulLedger L]

/-- Whether a frame fails in the end is known once the code is deposited: its snapshot is always
    settled. -/
theorem Visited.finalError_eq (h : Visited c l message observer m)
    (hphase : m.top.phase = .finalizing) :
    m.toLocal.finalError c m.isRoot = (m.toLocal.deposited c).1 := by
  rcases Local.settle_error ((m.toLocal.deposited c).2.swept m.isRoot (m.toLocal.deposited c).1)
    (m.toLocal.deposited c).1 with hsame | ⟨hnone, cause, hrefused⟩
  · exact hsame
  · obtain ⟨start, -, hfresh, hcourse⟩ := h.exists_course
    have hsuccess := m.toLocal.finalize_isSuccess c m.isRoot
    rw [hrefused] at hsuccess
    cases hcourse.settled hfresh hphase with
    | refused _ _ _ _ herror => exact absurd (hnone ▸ herror) nofun
    | kept _ _ _ _ _ hkept => exact absurd (hkept.symm.trans hsuccess) nofun
    | undone _ _ _ herror => exact absurd (hnone.symm.trans herror) nofun

/-- A frame succeeds when its deposit leaves no error. -/
theorem Visited.isSuccess_iff (h : Visited c l message observer m)
    (hphase : m.top.phase = .finalizing) :
    (m.topResult c).isSuccess = true ↔ (m.toLocal.deposited c).1 = none := by
  rw [← h.finalError_eq hphase, topResult, Local.finalize_isSuccess, Option.isNone_iff_eq_none]
  rfl

/-- The price of the output of the top frame as code. -/
def depositPrice (m : Machine L) : Nat := Gas.codeDepositByte * m.top.output.size

/-- What becomes of a creation whose code is admitted.  Its account is told as it is before the
    registered accounts are destroyed, if it is the first frame that ends. -/
structure Deposited (c : Context) (m : Machine L) : Prop where
  output : (m.topResult c).output = #[]
  created : (m.topResult c).createdAddress = some m.top.address
  remaining : (m.toLocal.finalize c m.isRoot).2.frame.gas.remaining =
    if m.depositPrice ≤ m.top.gas.remaining then m.top.gas.remaining - m.depositPrice
    else m.top.gas.remaining
  gasUsed : (m.topResult c).gasUsed +
    (m.toLocal.finalize c m.isRoot).2.frame.gas.remaining = m.top.message.gasLimit
  /-- All that the creation has done is kept. -/
  kept : Ledger.state (m.toLocal.finalize c m.isRoot).2.ledger =
    Ledger.state ((m.toLocal.deposited c).2.swept m.isRoot none).ledger
  code : m.depositPrice ≤ m.top.gas.remaining →
    Ledger.code (m.toLocal.deposited c).2.ledger m.top.address = m.top.output
  /-- An account whose code could not be paid for on Frontier is left without code, unless another
      creation on top of this one has gone to the same address from another origin. -/
  codeless : m.top.gas.remaining < m.depositPrice →
    c.fork = .frontier ∧ (Ledger.code (m.toLocal.deposited c).2.ledger m.top.address = #[] ∨
      ∃ start x, start.IsFresh c ∧ Course c start m ∧ Clashes c start x)
  /-- The deposit writes nothing else. -/
  others : Ledger.state (m.toLocal.deposited c).2.ledger =
    if m.depositPrice ≤ m.top.gas.remaining then
      (Ledger.state m.ledger).setCode m.top.address m.top.output
    else Ledger.state m.ledger
  nonce : .spuriousDragon ≤ c.fork →
    1 ≤ Ledger.nonce (m.toLocal.deposited c).2.ledger m.top.address

/-- What becomes of a creation whose code is not admitted. -/
structure Discarded (c : Context) (m : Machine L) : Prop where
  status : (m.topResult c).status = .failed
  gasUsed : (m.topResult c).gasUsed = m.top.message.gasLimit
  remaining : (m.toLocal.finalize c m.isRoot).2.frame.gas.remaining = 0
  /-- All accounts are as they were when the frame, once on the stack, took its snapshot. -/
  restored : ∃ start, start.IsFresh c ∧ Course c start m ∧
    m.top.snapshot = some (Ledger.snapshot (start.top.message.entered c start.ledger)).1 ∧
    Ledger.state (m.toLocal.finalize c m.isRoot).2.ledger =
      Ledger.state (start.top.message.entered c start.ledger)

omit [LawfulLedger L] in
/-- The gas that the top frame has been given. -/
theorem Visited.gasLimit_eq (h : Visited c l message observer m) :
    m.top.gas.limit = m.top.message.gasLimit :=
  Steps.lasts (m := launch c l message observer) lasting_limit h.steps rfl

/-- What an admitted output leaves: its code at the address of the frame, paid for. -/
theorem Visited.deposited (h : Visited c l message observer m) (hdeposits : m.Deposits)
    (hadmits : c.Admits m.top.output m.top.gas.remaining) : m.Deposited c := by
  obtain ⟨hnone, houtput, hlimit, hremaining, hledger, hfork⟩ :=
    (h.deposit hdeposits).of_admits hadmits
  obtain ⟨start, hstart, hfresh, hcourse⟩ := h.exists_course
  obtain ⟨t, hresult, hleft, hframe⟩ := m.toLocal.finalize_drawn c m.isRoot
  have hsuccess : (m.topResult c).isSuccess = true := (h.isSuccess_iff hdeposits.phase).2 hnone
  -- a creation that deposits has no error of its own, so it has not failed before
  have hsound : ¬ m.HasFailed := fun hfailed => by
    rw [HasFailed, hdeposits.error] at hfailed
    exact absurd hfailed.2 nofun
  have hcreates : start.top.message.isCreate = true := by
    rw [← hcourse.message]
    exact hdeposits.creates
  have haddress : m.top.address = start.top.address := congrArg Message.recipient hcourse.message
  rw [h.finalError_eq hdeposits.phase, hnone] at hresult hleft
  have drawn : (m.topResult c).output = #[] ∧
      (m.topResult c).gasUsed = (m.toLocal.deposited c).2.frame.gas.used := by
    rw [topResult, hresult, ← houtput, ← hframe]
    exact ⟨rfl, rfl⟩
  have left : (m.toLocal.finalize c m.isRoot).2.frame.gas = (m.toLocal.deposited c).2.frame.gas := by
    rw [hleft, ← hframe]
    rfl
  -- the whole of what the deposit does to the state, from which the fields below are read
  have written : Ledger.state (m.toLocal.deposited c).2.ledger =
      if m.depositPrice ≤ m.top.gas.remaining then
        (Ledger.state m.ledger).setCode m.top.address m.top.output
      else Ledger.state m.ledger := by
    rw [hledger, apply_ite Ledger.state, LawfulLedger.state_setCode]
    rfl
  exact {
    output := drawn.1
    created := Local.finalize_createdAddress c m.isRoot m.toLocal hsuccess hdeposits.creates
    remaining := by
      rw [left]
      exact hremaining
    gasUsed := by
      rw [drawn.2, left, Meter.used_add_remaining, hlimit]
      exact h.gasLimit_eq
    kept := (finalize_succeeded hfresh hcourse hdeposits.phase hsuccess).2
    code := fun hcovered => by
      rw [← Ledger.state_code, written, if_pos hcovered]
      exact Function.update_self ..
    codeless := fun hshort => by
      have hfrontier := hfork hshort
      refine ⟨hfrontier, ?_⟩
      rw [← Ledger.state_code, written, if_neg (Nat.not_le.2 hshort), haddress]
      -- without the price nothing is written: the address is codeless as it was when the frame
      -- began, unless it clashed
      rcases hcourse.codeless hstart (hfrontier ▸ by decide) hfresh hcreates hdeposits.phase hsound with
        hnone | ⟨x, hclash⟩
      · exact .inl hnone
      · exact .inr ⟨start, x, hfresh, hcourse, hclash⟩
    others := written
    nonce := fun hlate => by
      -- the nonce is set when the frame is prepared, and only grows on the way to the deposit
      obtain ⟨hprepared, hafter⟩ := hcourse.prepared_of_not_hasFailed hfresh hdeposits.phase hsound
      have first := Local.nonce_of_prepared hlate hprepared hcreates
      change (Ledger.state (start.prepare c).ledger).nonce start.top.address = 1 at first
      have grown := (hafter.steps.matures start.top.address).nonce
      have kept : (Ledger.state (m.toLocal.deposited c).2.ledger).nonce =
          (Ledger.state m.ledger).nonce := by
        rw [written]
        split <;> rfl
      rw [← Ledger.state_nonce, kept, haddress, ← first]
      exact grown }

/-- A frame that has come to its end without an error has taken its snapshot. -/
theorem Course.snapshot_eq {start : Machine L} (h : Course c start m) (hfresh : start.IsFresh c)
    (hphase : m.top.phase = .finalizing) (herror : m.top.error = none) :
    m.top.snapshot = some (Ledger.snapshot (start.top.message.entered c start.ledger)).1 := by
  have taken {f : Frame} {e l : L} (halive : (EngineCoupling.self L).Alive c f f e e l l)
      (hf : f.phase = .finalizing) (hnone : f.error = none) :
      f.snapshot = some (Ledger.snapshot (f.message.entered c e)).1 := by
    have hstage := halive.stage
    generalize f.snapshot = token at hstage
    cases hstage with
    | created hcreated => exact absurd (hcreated.symm.trans hf) nofun
    | refused _ _ hfailed => exact absurd (hnone ▸ hfailed) nofun
    | opened => rfl
  rw [← h.message]
  exact taken (h.alive hfresh) hphase herror

/-- What a refused output leaves: the state before the frame's snapshot. -/
theorem Visited.discarded (h : Visited c l message observer m) (hdeposits : m.Deposits)
    (hrefused : ¬ c.Admits m.top.output m.top.gas.remaining) : m.Discarded c := by
  obtain ⟨e, herror, hrefusal⟩ := (h.deposit hdeposits).of_not_admits hrefused
  obtain ⟨start, hstart, hfresh, hcourse⟩ := h.exists_course
  obtain ⟨t, hresult, hleft, hframe⟩ := m.toLocal.finalize_drawn c m.isRoot
  -- a refusal is no revert, so the frame's gas is gone
  have hrevert : e ≠ .revert := by
    rintro rfl
    exact hrefusal
  rw [h.finalError_eq hdeposits.phase, herror] at hresult hleft
  obtain ⟨drawn, left⟩ := t.conclude_of_error hrevert
  rw [if_pos hrefusal.consumesAllGas] at drawn left
  have limit : t.frame.gas.limit = m.top.message.gasLimit := by
    rw [hframe, Local.deposited_limit]
    exact h.gasLimit_eq
  rw [drawn, limit] at hresult
  have failed : (m.topResult c).status ≠ .success := by
    rw [topResult, hresult]
    intro hsuccess
    cases hsuccess
  exact {
    status := by rw [topResult, hresult]; rfl
    gasUsed := by rw [topResult, hresult]; rfl
    remaining := by rw [hleft, left]
    restored := by
      refine ⟨start, hfresh, hcourse,
        hcourse.snapshot_eq hfresh hdeposits.phase hdeposits.error, ?_⟩
      rw [Message.state_entered]
      exact (finalize_failed hfresh hcourse.steps hcourse.length hdeposits.phase failed).1 }

end Machine

/-! ### Executions -/

open Machine in
/-- What becomes of the creations of an execution that come to their end without a failure. -/
structure CodeDeposits (c : Context) (l : L) (message : Message) (observer : Observer) : Prop where
  /-- A creation succeeds exactly if its code is admitted. -/
  succeeds {m : Machine L} : Visited c l message observer m → m.Deposits →
    ((m.topResult c).isSuccess = true ↔ c.Admits m.top.output m.top.gas.remaining)
  /-- Then its code is deposited, -/
  deposited {m : Machine L} : Visited c l message observer m → m.Deposits →
    c.Admits m.top.output m.top.gas.remaining → m.Deposited c
  /-- and otherwise nothing is left of it. -/
  discarded {m : Machine L} : Visited c l message observer m → m.Deposits →
    ¬ c.Admits m.top.output m.top.gas.remaining → m.Discarded c
  /-- If it has been asked for, the frame below it goes on with what is left. -/
  nested {m : Machine L} {parent : Frame} {below : List Frame} : Visited c l message observer m →
    m.Deposits → m.below = parent :: below →
    m.step c = .running (m.handedTo c parent below) ∧
      (m.handedTo c parent below).ledger = (m.toLocal.finalize c m.isRoot).2.ledger ∧
      (m.handedTo c parent below).top.gas.remaining =
        parent.gas.remaining + (m.toLocal.finalize c m.isRoot).2.frame.gas.remaining
  /-- If it is the first frame, that is what the execution comes to. -/
  first {m : Machine L} : Visited c l message observer m → m.Deposits → m.below = [] →
    (execute c l message observer).result =
        (m.topResult c).withGrantedRefund c.fork message.gasLimit ∧
      (execute c l message observer).ledger = (m.toLocal.finalize c m.isRoot).2.ledger

open Machine in
/-- All of it together, over every lawful ledger. -/
theorem codeDeposits_of_lawful [LawfulLedger L] (c : Context) (l : L) (message : Message)
    (observer : Observer) : CodeDeposits c l message observer where
  succeeds {m} hm hdeposits := by
    constructor
    · intro hsuccess
      -- the other direction of the refusal: what fails is not admitted
      by_contra hrefused
      have failed := (hm.discarded hdeposits hrefused).status
      exact absurd ((of_decide_eq_true hsuccess).symm.trans failed) nofun
    · intro hadmits
      exact (hm.isSuccess_iff hdeposits.phase).2 ((hm.deposit hdeposits).of_admits hadmits).1
  deposited hm := hm.deposited
  discarded hm := hm.discarded
  nested {m parent below} hm hdeposits hbelow := by
    refine ⟨step_of_finalizing hdeposits.phase hbelow, rfl, ?_⟩
    exact hm.metered.resume_exact hbelow
  first {m} hm hdeposits hbelow := by
    obtain ⟨last, x, hlast, -, hdone, hexecute⟩ := execute_eq l observer hm.depth
    obtain ⟨-, -, hresult, hledger⟩ := step_done hdone
    -- no step can leave a machine that finalizes with nothing below
    have rest : Steps c m.below.length m last := by
      rw [hbelow]
      exact hm.steps_to_end hlast hdone
    obtain rfl : last = m := rest.eq_of_finalizing hdeposits.phase
    rw [hexecute, ← message.gasLimit_resolve l, topResult, ← hresult]
    exact ⟨rfl, hledger⟩

/-- On both ledgers, whatever world lies below, creations deposit just the code that is admitted. -/
theorem code_deposits (c : Context) (message : Message) (observer : Observer) :
    (∀ (S : Type) [WorldSource S] (l : JournaledLedger S), CodeDeposits c l message observer) ∧
      ∀ l : SnapshotLedger, CodeDeposits c l message observer :=
  ⟨fun _ _ l => codeDeposits_of_lawful c l message observer,
    fun l => codeDeposits_of_lawful c l message observer⟩

/-- A creation returns one zero byte and pays for it: it succeeds, and that is the code of the new
    account. -/
theorem code_deposits_of_one_byte :
    let c : Context := { config := { fork := .london }, precompiles := .none }
    let l := SnapshotLedger.ofWorld {}
    let message := Message.create 1 0 #[0x60, 1, 0x60, 0, 0xf3] 60000
    let m := (Machine.launch c l message .off).after c 5
    Machine.Visited c l message .off m ∧ m.Deposits ∧
      c.Admits m.top.output m.top.gas.remaining ∧ (m.topResult c).isSuccess = true ∧
      (execute c l message .off).result.output = #[] ∧
      (execute c l message .off).result.createdAddress = some m.top.address ∧
      Ledger.code (m.toLocal.deposited c).2.ledger m.top.address = #[0] ∧
      1 ≤ Ledger.nonce (m.toLocal.deposited c).2.ledger m.top.address := by
  -- the address of the contract is a digest, so the machine is evaluated once, at the end
  have becomes {c : Context} {l : SnapshotLedger} {message : Message} {m : Machine SnapshotLedger}
      (hfork : c.fork = .london) (hfits : 1 ≤ c.config.maxCodeSize)
      (visited : Machine.Visited c l message .off m)
      (ended : (m.top.phase = .finalizing ∧ m.top.error = none ∧ m.top.message.isCreate = true) ∧
        m.below.length = 0 ∧ m.top.output = #[0] ∧ m.depositPrice ≤ m.top.gas.remaining) :
      Machine.Visited c l message .off m ∧ m.Deposits ∧
        c.Admits m.top.output m.top.gas.remaining ∧ (m.topResult c).isSuccess = true ∧
        (execute c l message .off).result.output = #[] ∧
        (execute c l message .off).result.createdAddress = some m.top.address ∧
        Ledger.code (m.toLocal.deposited c).2.ledger m.top.address = #[0] ∧
        1 ≤ Ledger.nonce (m.toLocal.deposited c).2.ledger m.top.address := by
    obtain ⟨⟨hphase, herror, hcreate⟩, hheight, houtput, hcovered⟩ := ended
    have deposits : m.Deposits := ⟨hphase, herror, hcreate⟩
    have admits : c.Admits m.top.output m.top.gas.remaining := by
      refine ⟨?_, ?_, .inl hcovered⟩
      · rw [houtput]
        exact fun h => absurd h.2 (by decide)
      · rw [houtput]
        exact fun h => absurd h.2 (Nat.not_lt.2 hfits)
    have rule := (code_deposits c message .off).2 l
    have deposited := rule.deposited visited deposits admits
    obtain ⟨result, -⟩ := rule.first visited deposits (List.length_eq_zero_iff.1 hheight)
    refine ⟨visited, deposits, admits, (rule.succeeds visited deposits).2 admits, ?_, ?_, ?_, ?_⟩
    · rw [result]
      exact deposited.output
    · rw [result]
      exact deposited.created
    · rw [deposited.code hcovered, houtput]
    · exact deposited.nonce (by rw [hfork]; decide)
  exact becomes rfl (by decide) (Machine.Visited.iff_after.2 ⟨Nat.zero_le _, 5, rfl⟩)
    (by decide +kernel)

end Evm
