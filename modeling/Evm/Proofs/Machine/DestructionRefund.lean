import Mathlib.Data.Finset.Card
import Evm.Proofs.Instruction.Refund
import Evm.Proofs.Ledger.Populated
import Evm.Proofs.Machine.DestroyingLoop
import Evm.Proofs.Machine.Gas
import Evm.Proofs.Machine.Records

namespace Evm

/-!
# The refund for a destruction is granted once

Before London an account that is to be destroyed earns a refund, and it does so once in a
transaction, however often and wherever it is registered.  A frame registers an account for itself,
passes its counter on to its children, and takes both the counter and the registrations of a child
over if that succeeds and neither of them if it does not.  So as long as no slot is written, a
counter always holds the refund for the accounts that its frame and the frames below have
registered.

* `registeredIn`, `destructionCredit` — the registered accounts, and what they have earned.
* `Local.Credits` — what a turn makes of the counter and of the registered accounts.
* `Machine.Credited` — each counter on the stack holds what has been earned.
* `Machine.step_registers` — every account that is registered is paid for by a frame that ends.
* `destructions_refunded_once` — what all this means for an execution.
-/

/-! ### Accounts that are registered -/

/-- The accounts that at least one of the frames has registered for destruction. -/
def registeredIn (frames : List Frame) : Finset Address :=
  (frames.flatMap (·.selfDestructs.toList)).toFinset

/-- What the registered accounts have earned, as far as a counter can hold it. -/
def destructionCredit (fork : Fork) (frames : List Frame) : Nat :=
  if fork < .london then min (Gas.selfDestructRefund * (registeredIn frames).card) Counter.limit
  else 0

section Registered

variable {f g child : Frame} {below frames : List Frame} {a : Address} {fork : Fork}

/-- An account is registered if a frame has registered it. -/
@[simp] theorem mem_registeredIn : a ∈ registeredIn frames ↔ ∃ f ∈ frames, a ∈ f.selfDestructs := by
  simp [registeredIn]

/-- The frames below have registered no more accounts. -/
theorem registeredIn_subset_of_suffix (h : frames <:+ below) :
    registeredIn frames ⊆ registeredIn below := by
  intro a ha
  obtain ⟨f, hf, hmem⟩ := mem_registeredIn.1 ha
  exact mem_registeredIn.2 ⟨f, h.subset hf, hmem⟩

/-- What else is in a frame plays no part. -/
theorem registeredIn_congr (h : g.selfDestructs = f.selfDestructs) :
    registeredIn (g :: below) = registeredIn (f :: below) := by
  ext a
  simp [h]

/-- A frame that has registered nothing adds nothing. -/
theorem registeredIn_of_none (h : f.selfDestructs = #[]) :
    registeredIn (f :: below) = registeredIn below := by
  ext a
  simp [h]

/-- A frame that notes an account registers it. -/
theorem registeredIn_of_noted (h : g.selfDestructs = Frame.noted f.selfDestructs a) :
    registeredIn (g :: below) = insert a (registeredIn (f :: below)) := by
  ext b
  simp only [mem_registeredIn, List.exists_mem_cons_iff, h, Frame.mem_noted, Finset.mem_insert]
  tauto

/-- A frame that takes over what its child has registered stands for both. -/
theorem registeredIn_of_absorbed
    (h : g.selfDestructs = child.selfDestructs.foldl Frame.noted f.selfDestructs) :
    registeredIn (g :: below) = registeredIn (child :: f :: below) := by
  ext b
  simp only [mem_registeredIn, List.exists_mem_cons_iff, h, ← Array.foldl_toList,
    Frame.mem_foldl_noted, Array.mem_toList_iff]
  tauto

/-- What has been earned depends on the registered accounts alone. -/
theorem destructionCredit_congr (h : registeredIn below = registeredIn frames) :
    destructionCredit fork below = destructionCredit fork frames := by
  rw [destructionCredit, destructionCredit, h]

/-- One more account earns one more refund, and an account that is registered already earns
    nothing. -/
theorem destructionCredit_of_noted (h : g.selfDestructs = Frame.noted f.selfDestructs a) :
    destructionCredit fork (g :: below) =
      if fork < .london ∧ a ∉ registeredIn (f :: below) then
        Counter.add (destructionCredit fork (f :: below)) Gas.selfDestructRefund
      else destructionCredit fork (f :: below) := by
  have hregistered : registeredIn (g :: below) = _ := registeredIn_of_noted h
  unfold destructionCredit
  rw [hregistered]
  by_cases hfork : fork < .london
  -- one address more, or one that was there already
  · by_cases hmem : a ∈ registeredIn (f :: below)
    · have known : ¬ (fork < .london ∧ a ∉ registeredIn (f :: below)) := fun ⟨_, hnew⟩ => hnew hmem
      rw [Finset.insert_eq_of_mem hmem, if_neg known]
    · rw [Finset.card_insert_of_notMem hmem, if_pos hfork, if_pos hfork, if_pos ⟨hfork, hmem⟩,
        Counter.add, Nat.mul_succ]
      omega
  · have never : ¬ (fork < .london ∧ a ∉ registeredIn (f :: below)) := fun ⟨hbefore, _⟩ =>
      hfork hbefore
    rw [if_neg hfork, if_neg hfork, if_neg never]

end Registered

/-! ### What a turn does -/

namespace Local

variable {L : Type}

/-- The refund counter and the registered accounts are as before. -/
structure KeepsCredit (s t : Local L) : Prop where
  refund : t.frame.gas.refund = s.frame.gas.refund
  selfDestructs : t.frame.selfDestructs = s.frame.selfDestructs

/-- The account of the frame is registered, and its refund is granted unless it has been. -/
structure Registers (fork : Fork) (below : List Frame) (s t : Local L) : Prop where
  refund : t.frame.gas.refund =
    if fork < .london ∧ s.frame.address ∉ registeredIn (s.frame :: below) then
      Counter.add s.frame.gas.refund Gas.selfDestructRefund
    else s.frame.gas.refund
  selfDestructs : t.frame.selfDestructs = Frame.noted s.frame.selfDestructs s.frame.address

/-- What a turn makes of the refund counter and of the registered accounts. -/
inductive Credits (fork : Fork) (below : List Frame) (s : Local L) (o : Outcome) (t : Local L) :
    Prop where
  | kept : s.KeepsCredit t → Credits fork below s o t
  | registered : (∃ error, o.Ends error) → s.Registers fork below t → Credits fork below s o t
  /-- A write goes through, which has a counter of its own. -/
  | wrote : s.frame.nextInstruction fork = some .sstore → (∀ e, o ≠ .failed e) →
      t.frame.selfDestructs = s.frame.selfDestructs → Credits fork below s o t

variable [Ledger L] {fork : Fork} {below : List Frame} {s t u : Local L}

/-- Quiet effects earn nothing. -/
theorem Quiet.keepsCredit (h : s.Quiet t) : s.KeepsCredit t := ⟨h.refund, h.selfDestructs⟩

/-- What is registered after quiet effects is registered. -/
theorem Quiet.registers (h : s.Quiet t) (k : t.Registers fork below u) :
    s.Registers fork below u := by
  have address : t.frame.address = s.frame.address := congrArg Message.recipient h.message
  obtain ⟨hrefund, hdestructs⟩ := k
  rw [address, h.refund, registeredIn_congr h.selfDestructs] at hrefund
  rw [address, h.selfDestructs] at hdestructs
  exact ⟨hrefund, hdestructs⟩

end Local

namespace Effect

variable {L : Type} [Ledger L]

/-- A write that fails has not come to the counter. -/
theorem sstore_credits (c : Context) (s : Local L) :
    Ensures (sstore c) (fun _ t => t.frame.selfDestructs = s.frame.selfDestructs)
      (fun t => s.KeepsCredit t) s := by
  have fails (u : Local L) (hu : s.Quiet u) : s.KeepsCredit u := hu.keepsCredit
  refine .quiet_bind .requireNonStatic (.refl s) fails fun _ t ht => ?_
  refine .quiet_bind (.requireSentry c) ht fails fun _ t ht => ?_
  refine .quiet_bind (.onStack Stack.pop2) ht fails fun (key, value) t ht => .frame_bind ?_
  refine .quiet_bind (.accessSlot _ _ _) ht fails fun _ t ht => .ledger_bind ?_
  refine .quiet_bind (.charge _) ht fails fun _ t ht => ?_
  exact .bind (.modifyFrame (.modifyLedger ht.selfDestructs))

omit [Ledger L] in
/-- The refund for a destruction is granted unless the account is registered, in the frame or below
    it. -/
theorem refundDestruction_eq (fork : Fork) (below : List Frame) (s : Local L) :
    ∃ gas, (refundDestruction fork below).run s = .ok () { s with frame := { s.frame with gas } } ∧
      gas.refund =
        if fork < .london ∧ s.frame.address ∉ registeredIn (s.frame :: below) then
          Counter.add s.frame.gas.refund Gas.selfDestructRefund
        else s.frame.gas.refund := by
  have known : (s.frame.hasSelfDestructed s.frame.address ||
      below.any (·.hasSelfDestructed s.frame.address)) = true ↔
        s.frame.address ∈ registeredIn (s.frame :: below) := by
    simp [Frame.hasSelfDestructed]
  rw [refundDestruction, run_frame_bind]
  -- the check of the frames is the membership in what they have registered
  by_cases h : fork < .london ∧ s.frame.address ∉ registeredIn (s.frame :: below)
  · refine ⟨s.frame.gas.addRefund Gas.selfDestructRefund, ?_, ?_⟩
    · have first : fork < .london ∧ (!(s.frame.hasSelfDestructed s.frame.address ||
          below.any (·.hasSelfDestructed s.frame.address))) = true :=
        ⟨h.1, by rw [Bool.not_eq_true', ← Bool.not_eq_true, known]; exact h.2⟩
      dsimp only
      rw [if_pos first]
      rfl
    · rw [if_pos h]
      rfl
  · refine ⟨s.frame.gas, ?_, ?_⟩
    · have again : ¬ (fork < .london ∧ (!(s.frame.hasSelfDestructed s.frame.address ||
          below.any (·.hasSelfDestructed s.frame.address))) = true) := by
        rw [Bool.not_eq_true', ← Bool.not_eq_true, known]
        exact h
      dsimp only
      rw [if_neg again]
      rfl
    · rw [if_neg h]

/-- The last part of a destruction registers the account, and grants its refund before that.  What
    may fail then, the payment to the beneficiary, changes neither. -/
theorem surrender_credits {s t : Local L} {fork : Fork} (below : List Frame) (ht : s.Quiet t)
    (beneficiary : Address) (balance : Word) :
    Ensures (do
      refundDestruction fork below
      modifyFrame (·.registerSelfDestruct s.frame.address)
      if beneficiary ≠ s.frame.address then
        tryLedger (Ledger.tryAddBalance beneficiary balance) .state
      modifyLedger (Ledger.setBalance · s.frame.address 0))
      (fun _ u => s.Registers fork below u) (fun u => s.KeepsCredit u ∨ s.Registers fork below u)
      t := by
  have address : t.frame.address = s.frame.address := congrArg Message.recipient ht.message
  -- whatever the ledger does, the registration and the counter are settled before
  obtain ⟨gas, hrun, hrefund⟩ := refundDestruction_eq fork below t
  have registered (l : L) : s.Registers fork below
      { frame := ({ t.frame with gas } : Frame).registerSelfDestruct s.frame.address
        ledger := l } := by
    refine ht.registers ?_
    rw [Frame.registerSelfDestruct_eq, ← address]
    exact ⟨hrefund, rfl⟩
  refine .bind (.of_run hrun (.bind (.modifyFrame (.ite (fun _ => ?_) fun _ => ?_))))
  · exact .bind (.tryLedger (fun _ _ _ => .modifyLedger (registered _))
      fun _ _ _ => .inr (registered _))
  · exact .modifyLedger (registered _)

/-- A destruction earns its refund when it registers the account, and may fail after that. -/
theorem selfDestruct_credits (c : Context) (below : List Frame) (s : Local L) :
    Ensures (selfDestruct c below) (fun _ t => s.Registers c.fork below t)
      (fun t => s.KeepsCredit t ∨ s.Registers c.fork below t) s := by
  have fails (u : Local L) (hu : s.Quiet u) : s.KeepsCredit u ∨ s.Registers c.fork below u :=
    .inl hu.keepsCredit
  refine .quiet_bind .requireNonStatic (.refl s) fails fun _ t ht => ?_
  refine .quiet_bind .popAddress ht fails fun beneficiary t ht => .frame_bind ?_
  have address : t.frame.address = s.frame.address := congrArg Message.recipient ht.message
  rw [address]
  refine .quiet_bind (.accessAccount _ _ _) ht fails fun _ t ht => .ledger_bind ?_
  refine .ite (fun _ => .quiet_bind (.charge _) ht fails fun _ t ht => ?_) fun _ => ?_
  · exact surrender_credits below ht beneficiary _
  · exact surrender_credits below ht beneficiary _

end Effect

namespace Local

variable {L : Type} [Ledger L] {c : Context} {below : List Frame} {s t : Local L}
  {trace trace' : Trace} {o : Outcome}

/-- Apart from writes and destructions, instructions leave the counter alone. -/
theorem Did.keepsCredit {i : Instruction} (h : s.Did i t) (hstore : i ≠ .sstore)
    (hdestroy : i ≠ .selfDestruct) : s.KeepsCredit t := by
  cases h with
  | quiet hquiet => exact hquiet.keepsCredit
  | logged entry _ hquiet _ => exact ⟨hquiet.refund, hquiet.selfDestructs⟩
  | stored => exact absurd rfl hstore
  | destroyed => exact absurd rfl hdestroy

/-- What an instruction makes of the counter once it is paid for. -/
theorem paidEffect_credits (c : Context) (below : List Frame) (i : Instruction) (s : Local L) :
    Effect.Ensures (paidEffect c below i)
      (fun flow t => s.KeepsCredit t ∨ flow = .halt ∧ s.Registers c.fork below t ∨
        i = .sstore ∧ t.frame.selfDestructs = s.frame.selfDestructs)
      (fun t => s.KeepsCredit t ∨ s.Registers c.fork below t) s := by
  have fails (u : Local L) (hu : s.Quiet u) : s.KeepsCredit u ∨ s.Registers c.fork below u :=
    .inl hu.keepsCredit
  refine .quiet_bind (.charge _) (.refl s) fails fun _ t ht => ?_
  have kept {u : Local L} (hu : t.KeepsCredit u) : s.KeepsCredit u :=
    ⟨hu.refund.trans ht.refund, hu.selfDestructs.trans ht.selfDestructs⟩
  -- a write earns a refund of its own kind, and only a self-destruction registers
  by_cases hstore : i = .sstore
  · subst hstore
    refine .bind ((Effect.sstore_credits c t).imp (fun _ u hu => .pure ?_) fun u hu => .inl (kept hu))
    exact .inr (.inr ⟨rfl, hu.trans ht.selfDestructs⟩)
  · by_cases hdestroy : i = .selfDestruct
    · subst hdestroy
      refine .bind ((Effect.selfDestruct_credits c below t).imp (fun _ u hu => .pure ?_) ?_)
      · exact .inr (.inl ⟨rfl, ht.registers hu⟩)
      · exact fun u hu => hu.imp kept ht.registers
    · refine (Effect.Ensures.of_final (Effect.ofInstruction_did c below i t)).imp
        (fun _ u hu => .inl ?_) fun u hu => .inl ?_
      · exact kept (hu.keepsCredit hstore hdestroy)
      · exact kept (hu.keepsCredit hstore hdestroy)

/-- A turn earns nothing, or it registers the account of its frame, or it writes. -/
theorem turn_credits (h : s.turn c below trace = (o, t, trace')) :
    s.Credits c.fork below o t := by
  cases hnext : s.frame.nextInstruction c.fork with
  | none =>
    rw [(turn_ends h hnext).1]
    exact .kept ⟨rfl, rfl⟩
  | some i =>
    have paid := paidEffect_credits c below i s
    obtain ⟨flow, u, hdone, hfollow⟩ | ⟨⟨e, rfl⟩, hfailed⟩ := turn_ensures h hnext paid
    · -- where the program goes on does not matter
      have same : t.frame.gas.refund = u.frame.gas.refund ∧
          t.frame.selfDestructs = u.frame.selfDestructs := by
        cases flow <;> cases hfollow <;> exact ⟨rfl, rfl⟩
      rcases hdone with hkept | ⟨rfl, hregisters⟩ | ⟨rfl, hdestructs⟩
      · exact .kept ⟨same.1.trans hkept.refund, same.2.trans hkept.selfDestructs⟩
      · cases hfollow
        exact .registered ⟨_, .halted⟩ hregisters
      · refine .wrote hnext (fun e he => ?_) (same.2.trans hdestructs)
        cases flow <;> cases hfollow <;> cases he
    · rcases hfailed with hkept | hregisters
      · exact .kept hkept
      · exact .registered ⟨_, .failed e⟩ hregisters

end Local

variable {L : Type} [Ledger L]

/-! ### What is on the stack -/

/-- The counter of each frame holds what the accounts have earned that it or a frame below it has
    registered. -/
def CreditedStack (fork : Fork) (frames : List Frame) : Prop :=
  ∀ f below, f :: below <:+ frames → f.gas.refund = destructionCredit fork (f :: below)

/-- The counters hold what they should if that of the top frame does and the others do. -/
theorem creditedStack_cons {fork : Fork} {f : Frame} {below : List Frame} :
    CreditedStack fork (f :: below) ↔
      f.gas.refund = destructionCredit fork (f :: below) ∧ CreditedStack fork below := by
  constructor
  · intro h
    exact ⟨h f below (List.suffix_refl _),
      fun g rest hg => h g rest (hg.trans (List.suffix_cons f below))⟩
  · rintro ⟨htop, hbelow⟩ g rest hg
    rcases List.suffix_cons_iff.1 hg with heq | hrest
    · obtain ⟨rfl, rfl⟩ := List.cons.inj heq
      exact htop
    · exact hbelow g rest hrest

/-- A frame in whose place another one stands that has the same counter and the same accounts. -/
theorem CreditedStack.congr {fork : Fork} {f g : Frame} {below : List Frame}
    (h : CreditedStack fork (f :: below)) (hrefund : g.gas.refund = f.gas.refund)
    (hdestructs : g.selfDestructs = f.selfDestructs) : CreditedStack fork (g :: below) := by
  obtain ⟨htop, hbelow⟩ := creditedStack_cons.1 h
  refine creditedStack_cons.2 ⟨?_, hbelow⟩
  rw [hrefund, htop, destructionCredit_congr (registeredIn_congr hdestructs)]

namespace Machine

variable {c : Context} {m m' m'' : Machine L}

omit [Ledger L] in
/-- The counters of all frames of the machine hold what has been earned. -/
def Credited (fork : Fork) (m : Machine L) : Prop := CreditedStack fork (m.top :: m.below)

/-- A write goes through in the next step. -/
def Writes (c : Context) (m : Machine L) : Prop :=
  m.Executes c .sstore ∧ ∀ e, (m.turn c).1 ≠ .failed e

/-- Unless it writes, a frame that has its turn still has the counter that it should have. -/
theorem Credited.turn (hm : m.Credited c.fork) (hidle : ¬ m.Writes c) (hrun : m.IsRunning)
    {o : Outcome} {s : Local L} {t : Trace} (hturn : m.turn c = (o, s, t)) :
    CreditedStack c.fork (s.frame :: m.below) := by
  obtain ⟨htop, hbelow⟩ := creditedStack_cons.1 hm
  cases Local.turn_credits hturn with
  | kept hkept => exact hm.congr hkept.refund hkept.selfDestructs
  | registered _ hregisters =>
    refine creditedStack_cons.2 ⟨?_, hbelow⟩
    rw [destructionCredit_of_noted (f := m.top) hregisters.selfDestructs, ← htop]
    exact hregisters.refund
  | wrote hnext hfine _ =>
    refine absurd ⟨⟨hrun, hnext⟩, ?_⟩ hidle
    rw [hturn]
    exact hfine

/-- Unless a write goes through, a step keeps all counters as they should be. -/
theorem Credited.step (hm : m.Credited c.fork) (hidle : ¬ m.Writes c) (h : Stepped c m m') :
    m'.Credited c.fork := by
  cases h with
  | prepares _ =>
    refine CreditedStack.congr hm ?_ (m.prepare_records c).2.2
    rw [prepare_gas]
  | enters _ =>
    show CreditedStack c.fork ((m.enter c).top :: (m.enter c).below)
    rw [enter_below]
    exact CreditedStack.congr hm (m.enter_gas c).2.2 (m.enter_records c).2.2.1
  | continues hrun hturn => exact hm.turn hidle hrun hturn
  | ends hrun hturn _ => exact CreditedStack.congr (hm.turn hidle hrun hturn) rfl rfl
  | @spawns message k s t hrun hturn =>
    -- the child starts from the counter of its parent and has registered nothing
    have hwaiting : CreditedStack c.fork
        ({ s.frame with continuation := some k, phase := .suspended } :: m.below) :=
      CreditedStack.congr (hm.turn hidle hrun hturn) rfl rfl
    refine creditedStack_cons.2 ⟨?_, hwaiting⟩
    rw [destructionCredit_congr (registeredIn_of_none rfl)]
    exact (creditedStack_cons.1 hwaiting).1
  | @pops parent below _ hpop =>
    unfold Credited at hm
    rw [hpop] at hm
    obtain ⟨htop, hparent⟩ := creditedStack_cons.1 hm
    have hrefund := (m.handedTo_gas c parent below).2.2
    have hdestructs := (m.handedTo_records c parent below).2.2
    by_cases hsuccess : (m.toLocal.finalize c m.isRoot).1.isSuccess = true
    · -- the parent takes over both the counter and the accounts
      rw [if_pos hsuccess] at hrefund
      rw [topResult, if_pos hsuccess] at hdestructs
      refine creditedStack_cons.2 ⟨?_, (creditedStack_cons.1 hparent).2⟩
      show (m.handedTo c parent below).top.gas.refund = destructionCredit c.fork _
      rw [hrefund, htop]
      exact (destructionCredit_congr (registeredIn_of_absorbed hdestructs)).symm
    · rw [if_neg hsuccess] at hrefund
      rw [topResult, if_neg hsuccess] at hdestructs
      exact hparent.congr hrefund hdestructs

/-! ### How many accounts there can be -/

omit [Ledger L] in
/-- For each of these an account can still be registered: a unit of gas may pay for a frame, and a
    frame may end by registering its account. -/
def destructionsLeft (m : Machine L) : Nat :=
  m.gas + m.below.length + if m.top.phase = .finalizing then 0 else 1

omit [Ledger L] in
/-- A frame at its end registers nothing more. -/
theorem destructionsLeft_of_finalizing (h : m.top.phase = .finalizing) :
    m.destructionsLeft = m.gas + m.below.length := by
  rw [destructionsLeft, if_pos h, Nat.add_zero]

omit [Ledger L] in
/-- A frame before its end may still register its account. -/
theorem destructionsLeft_of_not (h : m.top.phase ≠ .finalizing) :
    m.destructionsLeft = m.gas + m.below.length + 1 := by
  rw [destructionsLeft, if_neg h]

omit [Ledger L] in
/-- There is at most one account for each unit of gas and each frame. -/
theorem destructionsLeft_le (m : Machine L) : m.destructionsLeft ≤ m.gas + m.below.length + 1 := by
  unfold destructionsLeft
  split <;> omega

omit [Ledger L] in
/-- A frame that runs is not at its end. -/
theorem IsRunning.not_finalizing (h : m.IsRunning) : m.top.phase ≠ .finalizing := by
  rcases h with h | h
  · rw [h]
    decide
  · rw [h]
    decide

/-- A turn registers one account at most, and then it ends the frame. -/
theorem turn_registers {o : Outcome} {s : Local L} {t : Trace} (hturn : m.turn c = (o, s, t)) :
    registeredIn (s.frame :: m.below) = registeredIn (m.top :: m.below) ∨
      (∃ error, o.Ends error) ∧
        (registeredIn (s.frame :: m.below)).card ≤ (registeredIn (m.top :: m.below)).card + 1 := by
  cases Local.turn_credits hturn with
  | kept hkept => exact .inl (registeredIn_congr (f := m.top) hkept.selfDestructs)
  | registered hends hregisters =>
    refine .inr ⟨hends, ?_⟩
    rw [registeredIn_of_noted (f := m.top) hregisters.selfDestructs]
    exact Finset.card_insert_le _ _
  | wrote _ _ hdestructs => exact .inl (registeredIn_congr (f := m.top) hdestructs)

/-- Every account that is registered is paid for by a frame that ends, and every frame by gas. -/
theorem step_registers (h : Stepped c m m') :
    (registeredIn (m'.top :: m'.below)).card + m'.destructionsLeft ≤
      (registeredIn (m.top :: m.below)).card + m.destructionsLeft := by
  have hgas := step_gas h
  have after := m'.destructionsLeft_le
  cases h with
  | prepares hphase =>
    have before := destructionsLeft_of_not (m := m) (by rw [hphase]; decide)
    have same : registeredIn ((m.prepare c).top :: m.below) = registeredIn (m.top :: m.below) :=
      registeredIn_congr (m.prepare_records c).2.2
    rw [prepare_below] at after ⊢
    rw [same]
    omega
  | enters hphase =>
    have before := destructionsLeft_of_not (m := m) (by rw [hphase]; decide)
    have same : registeredIn ((m.enter c).top :: m.below) = registeredIn (m.top :: m.below) :=
      registeredIn_congr (m.enter_records c).2.2.1
    rw [enter_below] at after ⊢
    rw [same]
    omega
  | @continues s t hrun hturn =>
    have before := destructionsLeft_of_not hrun.not_finalizing
    change _ ≤ _ + m.below.length + 1 at after
    show (registeredIn (s.frame :: m.below)).card + _ ≤ _
    rcases turn_registers hturn with hsame | ⟨⟨_, hends⟩, -⟩
    · rw [hsame]
      omega
    · cases hends
  | @ends o error s t hrun hturn hends =>
    -- the frame that ends pays for the account
    have before := destructionsLeft_of_not hrun.not_finalizing
    have ended := destructionsLeft_of_finalizing
      (m := (m.landed s t).withTop (s.frame.finish error)) rfl
    have more : (registeredIn (s.frame :: m.below)).card ≤
        (registeredIn (m.top :: m.below)).card + 1 := by
      rcases turn_registers hturn with hsame | ⟨-, hcard⟩
      · rw [hsame]
        exact Nat.le_succ _
      · exact hcard
    have same : registeredIn (s.frame.finish error :: m.below) =
        registeredIn (s.frame :: m.below) := registeredIn_congr rfl
    change _ = _ + m.below.length at ended
    show (registeredIn (s.frame.finish error :: m.below)).card + _ ≤ _
    rw [same]
    omega
  | @spawns message k s t hrun hturn =>
    -- the unit of gas that the request costs pays for the new frame
    have before := destructionsLeft_of_not hrun.not_finalizing
    have paid := landed_gas hturn
    have given := spawn_gas c (m.landed s t) message k
    change _ + (message.gasLimit + 1) ≤ _ at paid
    change _ ≤ _ + (m.below.length + 1) + 1 at after
    have none : registeredIn (((m.landed s t).spawn c message k).top ::
        ((m.landed s t).spawn c message k).below) = registeredIn (s.frame :: m.below) :=
      (registeredIn_of_none rfl).trans (registeredIn_congr rfl)
    rw [none]
    rcases turn_registers hturn with hsame | ⟨⟨_, hends⟩, -⟩
    · rw [hsame]
      omega
    · cases hends
  | @pops parent below hphase hpop =>
    have before := destructionsLeft_of_finalizing hphase
    have hdestructs := (m.handedTo_records c parent below).2.2
    rw [hpop, List.length_cons] at before
    change _ ≤ _ + below.length + 1 at after
    have fewer : registeredIn ((m.handedTo c parent below).top :: below) ⊆
        registeredIn (m.top :: parent :: below) := by
      by_cases hsuccess : (m.topResult c).isSuccess = true
      · rw [if_pos hsuccess] at hdestructs
        exact (registeredIn_of_absorbed hdestructs).subset
      · rw [if_neg hsuccess] at hdestructs
        rw [registeredIn_congr hdestructs]
        exact registeredIn_subset_of_suffix (List.suffix_cons _ _)
    have hcard := Finset.card_le_card fewer
    rw [hpop]
    show (registeredIn ((m.handedTo c parent below).top :: below)).card + _ ≤ _
    omega

/-- So over any steps the accounts are paid for. -/
theorem Steps.registers {floor : Nat} (h : Steps c floor m m') :
    (registeredIn (m'.top :: m'.below)).card + m'.destructionsLeft ≤
      (registeredIn (m.top :: m.below)).card + m.destructionsLeft := by
  induction h with
  | refl => exact Nat.le_refl _
  | tail _ hstep _ ih => exact Nat.le_trans (step_registers (step_cases hstep)) ih

/-! ### Whole executions -/

/-- In so many steps no write goes through. -/
def Unwritten (c : Context) (m : Machine L) (n : Nat) : Prop := ∀ k < n, ¬ (m.after c k).Writes c

/-- Some steps, in which no write goes through, lead to the machine. -/
def Idles (c : Context) (m m' : Machine L) : Prop := ∃ n, m' = m.after c n ∧ Unwritten c m n

/-- Where no write goes through twice, none does together. -/
theorem Idles.trans (h : Idles c m m') (k : Idles c m' m'') : Idles c m m'' := by
  obtain ⟨n, rfl, hn⟩ := h
  obtain ⟨n', rfl, hn'⟩ := k
  refine ⟨n + n', (after_add ..).symm, fun j hj => ?_⟩
  by_cases hlow : j < n
  · exact hn j hlow
  · obtain ⟨i, rfl⟩ := Nat.exists_eq_add_of_le (Nat.not_lt.1 hlow)
    rw [after_add]
    exact hn' i (Nat.lt_of_add_lt_add_left hj)

section Writes

variable [LawfulLedger L] [StartValues L]

/-- Without net metering a write costs more than most instructions. -/
theorem Writes.gas_le (h : m.Writes c) (hgross : c.fork.netMetering = false) :
    ∃ m', m.step c = .running m' ∧ m'.gas + 5000 ≤ m.gas := by
  obtain ⟨⟨hrun, hnext⟩, hfine⟩ := h
  generalize hturn : m.turn c = r at hfine
  obtain ⟨o, s, t⟩ := r
  obtain ⟨hother, -⟩ | ⟨rfl, hwrote⟩ := Local.turn_refunds (s := m.running) hturn
  · exact absurd hnext (hother hfine)
  · refine ⟨m.landed s t, step_of_turn hrun hturn, ?_⟩
    -- before net metering each write costs at least this much
    have charge : 5000 ≤ (m.running.writePrice c.fork).charge := by
      rw [Local.writePrice, Gas.storageWrite, if_neg (ne_true_of_eq_false hgross), Gas.grossWrite]
      dsimp only
      split
      · decide
      · exact Nat.le_refl _
    have paid := hwrote.charge
    change _ ≤ m.top.gas.remaining at paid
    unfold gas
    show s.frame.gas.remaining + _ + 5000 ≤ _
    dsimp only [landed]
    omega

/-- So no write goes through where less gas is spent. -/
theorem Idles.of_gas {floor : Nat} (hgross : c.fork.netMetering = false) (h : Steps c floor m m')
    (hgas : m.gas < m'.gas + 5000) : Idles c m m' := by
  obtain ⟨n, rfl⟩ := h.exists_after
  refine ⟨n, rfl, fun k hk hwrites => ?_⟩
  obtain ⟨next, hstep, hpaid⟩ := hwrites.gas_le hgross
  obtain ⟨rest, rfl⟩ := Nat.exists_eq_add_of_lt hk
  have before : (m.after c k).gas ≤ m.gas := (steps_after k m fun _ _ => Nat.zero_le _).gas_le
  have after : (m.after c (k + rest + 1)).gas ≤ next.gas := by
    rw [Nat.add_right_comm, after_add, after_step k m hstep]
    exact (steps_after rest next fun _ _ => Nat.zero_le _).gas_le
  omega

end Writes

section Executions

variable {l : L} {message : Message} {observer : Observer}

/-- At the start no account is registered. -/
theorem registeredIn_launch :
    registeredIn ((launch c l message observer).top :: (launch c l message observer).below) = ∅ :=
  registeredIn_of_none rfl

/-- At the start nothing has been earned. -/
theorem credited_launch : (launch c l message observer).Credited c.fork := by
  refine creditedStack_cons.2 ⟨?_, fun f below h => absurd (List.suffix_nil.1 h) nofun⟩
  show 0 = destructionCredit c.fork
    ((launch c l message observer).top :: (launch c l message observer).below)
  rw [destructionCredit, registeredIn_launch]
  simp

/-- As long as no write has gone through, all counters hold what has been earned. -/
theorem credited_after {n : Nat} (hidle : Unwritten c (launch c l message observer) n) :
    ((launch c l message observer).after c n).Credited c.fork := by
  induction n with
  | zero => exact credited_launch
  | succ n ih =>
    have before := ih fun k hk => hidle k (Nat.lt_succ_of_lt hk)
    rcases after_succ_cases c (launch c l message observer) n with hend | hstep
    · rwa [hend]
    · exact before.step (hidle n (Nat.lt_succ_self n)) (step_cases hstep)

/-- No more accounts are registered than the gas of the message pays for frames. -/
theorem card_registeredIn_le (n : Nat) :
    (registeredIn (((launch c l message observer).after c n).top ::
      ((launch c l message observer).after c n).below)).card ≤ message.gasLimit + 1 := by
  have hsteps : Steps c 0 (launch c l message observer) ((launch c l message observer).after c n) :=
    steps_after n _ fun _ _ => Nat.zero_le _
  have bounded := hsteps.registers
  have given : (launch c l message observer).gas = message.gasLimit := message.gasLimit_resolve l
  have start : (launch c l message observer).destructionsLeft = message.gasLimit + 1 := by
    rw [destructionsLeft_of_not (show Phase.created ≠ .finalizing by decide), given]
    rfl
  rw [registeredIn_launch, Finset.card_empty, start] at bounded
  omega

/-- An execution of the contract comes to any round that its gas pays for, and writes no slot. -/
theorem after_destroyingRound [LawfulLedger L] [StartValues L] (hfork : c.fork < .tangerineWhistle)
    (hlimit : c.config.stackLimit = 1024) (hdepth : message.childDepth ≤ c.config.maxCallDepth)
    (hkind : message.kind = .call) (hvalue : message.value = 0) (hstatic : message.isStatic = false)
    (hlookup : ∀ a, c.precompiles.lookup c.fork a = none)
    (hcode : Ledger.code l message.codeAddress = destroyingCode)
    (hvictims : ∀ a : Address, 7 < a.toNat →
      Ledger.accountExists l a = true ∧ Ledger.code l a = victimCode)
    (hgas : message.gasLimit ≤ Counter.limit) {k : Nat} (hk : 76 * k + 26 ≤ message.gasLimit) :
    ∃ n, Unwritten c (launch c l message observer) n ∧
      DestroyingRound c message.gasLimit k ((launch c l message observer).after c n) := by
  have gross : c.fork.netMetering = false := by
    revert hfork
    cases c.fork <;> decide
  have free : c.fork.accessLists = false := by
    revert hfork
    cases c.fork <;> decide
  let first := start c l { toObserver := observer } message
  obtain ⟨t, begins⟩ := steps_to_coded_of_launch l observer free hkind hvalue (hlookup _)
  have given : (launch c l message observer).gas = message.gasLimit := message.gasLimit_resolve l
  have loads : Idles c (launch c l message observer) (first.coded .running t) := by
    refine .of_gas gross begins ?_
    rw [given]
    exact Nat.lt_add_of_pos_right (by decide)
  have round (j : Nat) (x : Machine L) (hj : j < k)
      (hx : Idles c (launch c l message observer) x ∧ x.below = [] ∧
        DestroyingRound c message.gasLimit j x) :
      ∃ y, Steps c 0 x y ∧ Idles c (launch c l message observer) y ∧ y.below = [] ∧
        DestroyingRound c message.gasLimit (j + 1) y := by
    obtain ⟨hidle, hbelow, hround⟩ := hx
    obtain ⟨y, steps, hsame, hy⟩ := hround.next hfork hlimit hlookup hgas (by omega)
    have short : Steps c 0 x y := steps.weaken (Nat.zero_le _)
    -- a round costs less than a write
    have spent : x.gas < y.gas + 5000 := by
      have before := hround.paid
      have after := hy.paid
      unfold gas
      rw [hsame]
      omega
    exact ⟨y, short, hidle.trans (.of_gas gross short spent), hsame.trans hbelow, hy⟩
  have room : first.top.stack = {} := by
    show ({ limit := c.config.stackLimit } : Stack) = _
    rw [hlimit]
  obtain ⟨m, -, ⟨n, rfl, hidle⟩, -, hm⟩ := steps_of_rounds round
    ⟨loads, rfl, .first (m := first) hstatic hdepth room rfl rfl hcode hvictims t⟩
  exact ⟨n, hidle, hm⟩

end Executions

end Machine

open Machine in
/-- The refund for destructions in the execution of a message, whatever its frames have registered,
    and however the children have ended that have registered the same accounts before. -/
structure DestructionsRefundedOnce (c : Context) (l : L) (message : Message) (observer : Observer) :
    Prop where
  /-- Before London, as long as no write has gone through, each frame on the stack has counted one
      refund for each account that it or a frame below it has registered.  A counter stops at the
      end of its range. -/
  counted (n : Nat) : c.fork < .london → Unwritten c (launch c l message observer) n →
    ∀ {f : Frame} {below : List Frame},
      f :: below <:+ ((launch c l message observer).after c n).top ::
        ((launch c l message observer).after c n).below →
      f.gas.refund =
        min (Gas.selfDestructRefund * (registeredIn (f :: below)).card) Counter.limit
  /-- It does not come to that unless the gas of the message pays for so many frames. -/
  inRange (n : Nat) : c.fork < .london → Unwritten c (launch c l message observer) n →
    Gas.selfDestructRefund * (message.gasLimit + 1) ≤ Counter.limit →
    ∀ {f : Frame} {below : List Frame},
      f :: below <:+ ((launch c l message observer).after c n).top ::
        ((launch c l message observer).after c n).below →
      f.gas.refund = Gas.selfDestructRefund * (registeredIn (f :: below)).card
  /-- From London on there is no such refund. -/
  abolished (n : Nat) : .london ≤ c.fork → Unwritten c (launch c l message observer) n →
    ∀ f ∈ ((launch c l message observer).after c n).top ::
      ((launch c l message observer).after c n).below, f.gas.refund = 0

open Machine in
/-- On every fork and every ledger, destructions are refunded once. -/
theorem destructions_refunded_once (c : Context) (l : L) (message : Message) (observer : Observer) :
    DestructionsRefundedOnce c l message observer := by
  -- the counter of a frame is what the addresses below and in it are worth
  have counted (n : Nat) (hfork : c.fork < .london)
      (hidle : Unwritten c (launch c l message observer) n) {f : Frame} {below : List Frame}
      (hf : f :: below <:+ ((launch c l message observer).after c n).top ::
        ((launch c l message observer).after c n).below) :
      f.gas.refund =
        min (Gas.selfDestructRefund * (registeredIn (f :: below)).card) Counter.limit := by
    rw [credited_after hidle f below hf, destructionCredit, if_pos hfork]
  refine ⟨counted, fun n hfork hidle hgas f below hf => ?_, fun n hfork hidle f hf => ?_⟩
  · have few : (registeredIn (f :: below)).card ≤ message.gasLimit + 1 :=
      Nat.le_trans (Finset.card_le_card (registeredIn_subset_of_suffix hf)) (card_registeredIn_le n)
    rw [counted n hfork hidle hf]
    exact Nat.min_eq_left (Nat.le_trans (Nat.mul_le_mul_left _ few) hgas)
  · obtain ⟨above, below, heq⟩ := List.append_of_mem hf
    have past : ¬ c.fork < .london := Nat.not_lt.2 hfork
    rw [credited_after hidle f below ⟨above, heq.symm⟩, destructionCredit, if_neg past]

/-- A contract calls one that destroys itself, and then one that lends its account to the same code
    and takes everything back.  While the loan lasts two accounts have earned a refund, and after it
    only the first. -/
theorem destructions_refunded_once_despite_revert :
    let c : Context := { config := { fork := .istanbul }, precompiles := .none }
    let l := SnapshotLedger.ofWorld (World.setCode (World.setCode (World.setCode {} 8
      #[0x60, 9, 0xff])
      10 #[0x60, 0, 0x60, 0, 0x60, 0, 0x60, 0, 0x60, 8, 0x61, 0xff, 0xff, 0xf4,
        0x60, 0, 0x60, 0, 0xfd])
      7 #[0x60, 0, 0x60, 0, 0x60, 0, 0x60, 0, 0x60, 0, 0x60, 8, 0x61, 0xff, 0xff, 0xf1,
        0x60, 0, 0x60, 0, 0x60, 0, 0x60, 0, 0x60, 0, 0x60, 10, 0x61, 0xff, 0xff, 0xf1])
    let start := Machine.launch c l (.call 1 7 0 #[] 400000) .off
    let lent := start.after c 36
    let undone := start.after c 41
    c.fork < .london ∧ Machine.Unwritten c start 41 ∧
      Gas.selfDestructRefund * (400000 + 1) ≤ Counter.limit ∧
      lent.below.length = 2 ∧ registeredIn (lent.top :: lent.below) = {8, 10} ∧
      lent.top.gas.refund = Gas.selfDestructRefund * 2 ∧
      undone.below.length = 0 ∧ registeredIn (undone.top :: undone.below) = {8} ∧
      undone.top.gas.refund = Gas.selfDestructRefund * 1 := by
  intro c l start lent undone
  have never : ∀ k < 41, (start.after c k).top.nextInstruction c.fork ≠ some .sstore := by
    decide +kernel
  have unwritten : Machine.Unwritten c start 41 := fun k hk hwrites => never k hk hwrites.1.2
  have range : Gas.selfDestructRefund * (400000 + 1) ≤ Counter.limit := by decide
  -- the reverted child's registration goes with it, and so does its refund
  have both : registeredIn (lent.top :: lent.below) = {8, 10} := by decide +kernel
  have first : registeredIn (undone.top :: undone.below) = {8} := by decide +kernel
  have refunded := destructions_refunded_once c l (.call 1 7 0 #[] 400000) .off
  refine ⟨by decide, unwritten, range, by decide +kernel, both, ?_, by decide +kernel, first, ?_⟩
  · have counter : lent.top.gas.refund = _ := refunded.inRange 36 (by decide)
      (fun k hk => unwritten k (by omega)) range (List.suffix_refl _)
    rw [counter, both]
    rfl
  · have counter : undone.top.gas.refund = _ := refunded.inRange 41 (by decide) unwritten range
      (List.suffix_refl _)
    rw [counter, first]
    rfl

/-- Where more accounts are registered than a counter can hold the refunds for, the counter is short
    of them: a contract calls one account after another, in a world in which all of them destroy
    themselves. -/
theorem destructions_outgrow_counter :
    let c : Context := { config := { fork := .frontier }, precompiles := .none }
    let source : Populated := { code := fun a => if a = 7 then destroyingCode else victimCode }
    let l : JournaledLedger Populated := .ofSource source
    let start := Machine.launch c l (.call 1 7 0 #[] Counter.limit) .off
    c.fork < .london ∧ ∃ n, Machine.Unwritten c start n ∧
      (start.after c n).top.phase = .running ∧
        (start.after c n).top.gas.refund < Gas.selfDestructRefund *
          (registeredIn ((start.after c n).top :: (start.after c n).below)).card := by
  intro c source l start
  have victims (a : Address) (ha : 7 < a.toNat) :
      Ledger.accountExists l a = true ∧ Ledger.code l a = victimCode := by
    have other : a ≠ 7 := by
      rintro rfl
      exact absurd ha (by decide)
    exact ⟨rfl, if_neg other⟩
  have rounds : ∃ n, Machine.Unwritten c start n ∧
      DestroyingRound c Counter.limit 768614336404565 (start.after c n) :=
    Machine.after_destroyingRound (by decide) rfl (by decide) rfl rfl rfl (fun _ => rfl) rfl victims
      (Nat.le_refl _) (by decide)
  obtain ⟨n, unwritten, hround⟩ := rounds
  refine ⟨by decide, n, unwritten, hround.phase, ?_⟩
  -- the addresses are in the frame, so they count among all that are registered
  have credited : (start.after c n).Credited c.fork := Machine.credited_after unwritten
  have counter : (start.after c n).top.gas.refund ≤ Counter.limit := by
    rw [(creditedStack_cons.1 credited).1, destructionCredit, if_pos (by decide)]
    exact Nat.min_le_right _ _
  have own : (start.after c n).top.selfDestructs.toList.toFinset ⊆
      registeredIn ((start.after c n).top :: (start.after c n).below) := fun a ha =>
    mem_registeredIn.2 ⟨_, List.mem_cons_self, by simpa using ha⟩
  calc (start.after c n).top.gas.refund
      ≤ Counter.limit := counter
    _ < 24000 * 768614336404565 := by decide
    _ = 24000 * (start.after c n).top.selfDestructs.toList.toFinset.card := by rw [hround.registered]
    _ ≤ _ := Nat.mul_le_mul_left _ (Finset.card_le_card own)

end Evm
