import Evm.Proofs.Ledger.Supply
import Evm.Proofs.Machine.Success

namespace Evm

/-!
# Ether is not created

Value moves when a frame is entered and when a contract gives itself up, and accounts are destroyed
at the end of a transaction.  None of that raises the supply.  What lowers it is the destruction of
an account alone, and only in a frame that succeeds together with all frames below it: all else is
undone.

* `Machine.Survives` — what the top frame does is kept in the end.
* `Machine.Course.supply_le` — no frame raises the supply, with all its children.
* `Machine.Course.tracks_kept` — what is undone further up breaks no relation of a kind.
* `Machine.tracks_supply` — where all destructions are undone, the supply stays.
* `EtherConserved` — what this means for an execution.
* `ether_conserved` — every execution is like that.
-/

open Ledger

variable {L : Type} [Ledger L]

namespace Machine

/-- The top frame and all frames below it come to a successful end. -/
def Survives (c : Context) (m : Machine L) : Prop :=
  ∀ last, Steps c last.below.length m last → last.below.length ≤ m.below.length →
    last.top.phase = .finalizing → (last.topResult c).isSuccess = true

/-- The top frame, or one that lies below it and on so many others, does not succeed. -/
def IsUndone (c : Context) (floor : Nat) (m : Machine L) : Prop :=
  ∃ last, floor ≤ last.below.length ∧ Steps c last.below.length m last ∧
    last.below.length ≤ m.below.length ∧ last.top.phase = .finalizing ∧
    (last.topResult c).isSuccess ≠ true

variable {c : Context} {m m' last x : Machine L}

/-- What does not survive is undone together with a frame of the stack. -/
theorem isUndone_of_not_survives (h : ¬ m.Survives c) : m.IsUndone c 0 := by
  unfold Survives at h
  push Not at h
  obtain ⟨last, hsteps, hlow, hphase, hfailed⟩ := h
  exact ⟨last, Nat.zero_le _, hsteps, hlow, hphase, hfailed⟩

/-- If a frame has succeeded, what was done in it is undone further up or not at all. -/
theorem IsUndone.above {floor : Nat} (h : x.IsUndone c floor) (hx : Steps c floor m x)
    (hlast : Steps c floor m last) (hheight : last.below.length = floor)
    (hphase : last.top.phase = .finalizing) (hsuccess : (last.topResult c).isSuccess = true) :
    x.IsUndone c (floor + 1) := by
  obtain ⟨failed, hfloor, hsteps, hlow, hphase', hfailed⟩ := h
  rcases Nat.lt_or_eq_of_le hfloor with hhigher | hsame
  · exact ⟨failed, hhigher, hsteps, hlow, hphase', hfailed⟩
  · -- the frame comes to one end only, and that is successful
    have hend : Steps c floor m failed := hx.trans (hsame ▸ hsteps)
    have same := hlast.unique_end hend hheight hsame.symm hphase hphase'
    rw [same] at hfailed
    exact absurd hsuccess hfailed

/-- What the top frame does itself cannot be undone further up. -/
theorem IsUndone.lt {floor : Nat} (h : m.IsUndone c floor) : floor ≤ m.below.length := by
  obtain ⟨last, hfloor, -, hlow, -⟩ := h
  exact Nat.le_trans hfloor hlow

/-! ### Relations that what is undone does not break -/

/-- A relation that holds across the steps in which a frame does not do a certain thing, and across
    the life of a child: where it has held up to its end if the child succeeds, and anyway else. -/
structure TracksKept (c : Context) (I E : Machine L → Prop) (R : Machine L → Machine L → Prop) :
    Prop where
  refl (m : Machine L) : R m m
  trans {m m' m'' : Machine L} : R m m' → R m' m'' → R m m''
  step {m m' : Machine L} : I m → ¬ E m → Stepped c m m' → m.below.length ≤ m'.below.length → R m m'
  kept {m last m' : Machine L} : I m → Popped c m last m' →
    (last.topResult c).isSuccess = true → R m last → R m m'
  undone {m last m' : Machine L} : I m → Popped c m last m' →
    ¬ (last.topResult c).isSuccess = true → R m m'

variable {I E : Machine L → Prop} {R : Machine L → Machine L → Prop}

/-- If all that is done is undone further up, the frame has not done it itself. -/
theorem Course.idle (h : Course c m m')
    (hE : ∀ x, Steps c m.below.length m x → E x → x.IsUndone c (m.below.length + 1)) : ¬ E m' := by
  intro hdone
  have hlow := (hE m' h.steps hdone).lt
  rw [h.length] at hlow
  exact absurd hlow (Nat.not_succ_le_self _)

/-- Such a relation holds over the course of a frame if all that is done is undone further up. -/
theorem Course.tracks_kept (hR : TracksKept c I E R) (h : Course c m m')
    (hI : ∀ x, Steps c m.below.length m x → I x)
    (hE : ∀ x, Steps c m.below.length m x → E x → x.IsUndone c (m.below.length + 1)) :
    R m m' := by
  -- by induction on the course: a child has one of its own, on one frame more
  induction h with
  | refl m => exact hR.refl m
  | own hcourse hstep hbelow ih =>
    have hown := hR.step (hI _ hcourse.steps) (hcourse.idle hE) (step_cases hstep)
      (Nat.le_of_eq (by rw [hbelow]))
    exact hR.trans (ih hI hE) hown
  | @child m m₁ m₂ last m₃ hcourse hspawn hfresh hhigher hchild hpop hback ih ihchild =>
    have hheight := hcourse.length
    have hspawned := hcourse.steps.tail hspawn (by omega)
    have hstep := hR.step (hI _ hcourse.steps) (hcourse.idle hE) (step_cases hspawn) (by omega)
    have hpopped := hchild.popped hfresh hpop (by omega)
    have hlife : R m₂ m₃ := by
      by_cases hsuccess : (last.topResult c).isSuccess
      · -- what is undone in the child is undone in a child of its own
        refine hR.kept (hI _ hspawned) hpopped hsuccess (ihchild ?_ fun x hx hdone => ?_)
        · exact fun x hx => hI x (hspawned.trans (hx.weaken (by omega)))
        · have undone := hE x (hspawned.trans (hx.weaken (by omega))) hdone
          rw [show m.below.length + 1 = m₂.below.length by omega] at undone
          exact undone.above hx hchild.steps hchild.length hpopped.handedTo.1 hsuccess
      · exact hR.undone (hI _ hspawned) hpopped hsuccess
    exact hR.trans (hR.trans (ih hI hE) hstep) hlife

end Machine

/-! ### Instructions and stages -/

section Lawful

variable [LawfulLedger L]

/-- A self-destruction burns the balance that its own account inherits, and creates none. -/
theorem Ledger.Surrendered.supply_le {a : Address} {l l' : L} (h : Surrendered a l l') :
    supply l' ≤ supply l := by
  cases h with
  | refused _ hrefused => rw [isAtomic_tryAddBalance _ _ hrefused]
  | burned => exact Nat.le.intro (supply_burned l a)
  | handed hne hadd =>
    exact Nat.le_of_eq (supply_handed hne (LedgerStep.after_eq_ok_iff.2 hadd))

namespace Local

variable {s t : Local L} {i : Instruction}

/-- Only destructions lower the supply or register an account. -/
theorem Did.supply_eq (h : s.Did i t) (hi : i ≠ .selfDestruct) :
    supply t.ledger = supply s.ledger ∧ t.frame.selfDestructs = s.frame.selfDestructs := by
  cases h with
  | quiet hquiet => exact ⟨supply_of_state hquiet.ledger.state, hquiet.selfDestructs⟩
  | logged _ _ hquiet _ => exact ⟨supply_of_state hquiet.ledger.state, hquiet.selfDestructs⟩
  | @stored u _ key value _ hquiet =>
    have kept : balance (setStorage u.ledger ⟨s.frame.address, key⟩ value) = balance u.ledger :=
      congrArg LedgerState.balance (LawfulLedger.state_setStorage u.ledger _ value)
    exact ⟨(supply_congr kept).trans (supply_of_state hquiet.ledger.state), hquiet.selfDestructs⟩
  | destroyed => exact absurd rfl hi

/-- No instruction raises the supply. -/
theorem Did.supply_le (h : s.Did i t) : supply t.ledger ≤ supply s.ledger := by
  -- all but a destruction leave it as it is
  by_cases hi : i = .selfDestruct
  · subst hi
    cases h with
    | quiet hquiet => exact Nat.le_of_eq (supply_of_state hquiet.ledger.state)
    | destroyed _ hquiet hsurrendered =>
      have accessed := supply_of_state hquiet.ledger.state
      exact Nat.le_trans hsurrendered.supply_le (Nat.le_of_eq accessed)
  · exact Nat.le_of_eq (h.supply_eq hi).1

end Local

omit [Ledger L] [LawfulLedger L] in
/-- A failed frame leaves no mark on balances. -/
theorem LedgerState.balance_afterFailure (s : LedgerState) (message : Message) :
    (s.afterFailure message).balance = s.balance := by
  unfold afterFailure
  split <;> rfl

/-- Preparing a frame moves value and creates none, also where it fails. -/
theorem Local.supply_attempt_prepare (c : Context) (s : Local L) :
    supply (s.attempt (Effect.prepare c)).2.ledger = supply s.ledger := by
  have prepared := s.attempt_prepare_ledger c
  generalize (s.attempt (Effect.prepare c)).2.ledger = l at prepared ⊢
  induction prepared with
  | refused => rfl
  | opened =>
    refine (supply_of_state (LawfulLedger.state_snapshot _)).trans (supply_congr ?_)
    exact (congrArg LedgerState.balance (s.frame.message.state_entered c _)).trans
      (LedgerState.balance_afterFailure _ _)
  | cleared _ _ ih =>
    exact (supply_congr (congrArg LedgerState.balance (LawfulLedger.state_reset _ _ _))).trans ih
  | moved _ _ ht ih => exact (supply_transfer ht).trans ih

/-- Code that is deposited holds no ether. -/
theorem Local.supply_deposited (c : Context) (s : Local L) :
    supply (s.deposited c).2.ledger = supply s.ledger := by
  rcases s.deposited_ledger c with hsame | ⟨code, hcoded⟩
  · rw [hsame]
  · rw [hcoded]
    exact supply_congr (congrArg LedgerState.balance (LawfulLedger.state_setCode s.ledger _ code))

/-- Destroying the registered accounts raises nothing. -/
theorem Local.supply_swept_le (isRoot : Bool) (s : Local L) (error : Option VmError) :
    supply (s.swept isRoot error).ledger ≤ supply s.ledger := by
  unfold swept
  split
  · show supply (s.frame.selfDestructs.foldl destroyAccount s.ledger) ≤ _
    rw [← Array.foldl_toList]
    exact supply_foldl_destroyAccount_le _ _
  · exact Nat.le_refl _

omit [LawfulLedger L] in
/-- Where nothing is registered nothing is destroyed. -/
theorem Local.swept_deposited_ledger (c : Context) (s : Local L) {isRoot : Bool}
    {error : Option VmError} (h : s.frame.selfDestructs = #[]) :
    ((s.deposited c).2.swept isRoot error).ledger = (s.deposited c).2.ledger := by
  obtain ⟨gas, output, -, hframe⟩ := s.deposited_frame c
  unfold swept
  split
  · show (s.deposited c).2.frame.selfDestructs.foldl destroyAccount _ = _
    rw [hframe, h]
    rfl
  · rfl

/-! ### Steps -/

namespace Machine

variable {c : Context} {m m' last x : Machine L}

/-- A step raises no supply, unless it pops a frame. -/
theorem step_supply_le (h : Stepped c m m') (hstays : m.below.length ≤ m'.below.length) :
    supply m'.ledger ≤ supply m.ledger := by
  obtain ⟨-, hledger⟩ | hsame | ⟨o, s, t, hturn, hledger⟩ := h.ledger_cases hstays
  · rw [hledger]
    exact Nat.le_of_eq (m.toLocal.supply_attempt_prepare c)
  · rw [hsame]
  · rw [hledger]
    rcases turn_did hturn with rfl | ⟨i, -, hdid⟩
    · exact Nat.le_refl _
    · exact hdid.supply_le

/-- The accounts that the frames have registered, latest frame first. -/
def registered (m : Machine L) : List (Array Address) :=
  m.top.selfDestructs :: m.below.map Frame.selfDestructs

/-- A step that neither destroys an account nor pops a frame keeps the supply and what is
    registered. -/
theorem step_supply_eq (h : Stepped c m m') (hstays : m.below.length ≤ m'.below.length)
    (hidle : ¬ m.Executes c .selfDestruct) :
    supply m'.ledger = supply m.ledger ∧
      (m'.below.length = m.below.length ∧ m'.registered = m.registered ∨
        m'.below.length = m.below.length + 1 ∧ m'.registered = #[] :: m.registered) := by
  -- a turn destroys an account only if that is the next instruction
  have turned {o : Outcome} {s : Local L} {t : Trace} (hrun : m.IsRunning)
      (hturn : m.turn c = (o, s, t)) :
      supply s.ledger = supply m.ledger ∧ s.frame.selfDestructs = m.top.selfDestructs := by
    rcases turn_did hturn with rfl | ⟨i, hnext, hdid⟩
    · exact ⟨rfl, rfl⟩
    · exact hdid.supply_eq fun hi => hidle ⟨hrun, hi ▸ hnext⟩
  cases h with
  | prepares hphase =>
    refine ⟨m.toLocal.supply_attempt_prepare c, .inl ⟨rfl, ?_⟩⟩
    exact congrArg (· :: _) (m.prepare_records c).2.2
  | enters hphase =>
    obtain ⟨-, -, hdestructs, hledger⟩ := m.enter_records c
    refine ⟨by rw [hledger], .inl ⟨by rw [enter_below], ?_⟩⟩
    rw [registered, hdestructs, enter_below]
    rfl
  | continues hrun hturn | ends hrun hturn _ =>
    obtain ⟨hsupply, hdestructs⟩ := turned hrun hturn
    exact ⟨hsupply, .inl ⟨rfl, congrArg (· :: _) hdestructs⟩⟩
  | spawns hrun hturn =>
    obtain ⟨hsupply, hdestructs⟩ := turned hrun hturn
    exact ⟨hsupply, .inr ⟨rfl, congrArg (#[] :: · :: _) hdestructs⟩⟩
  | pops hphase hbelow =>
    rw [hbelow] at hstays
    exact absurd hstays (Nat.not_succ_le_self _)

/-! ### Frames -/

/-- What a popped frame leaves of the supply: what it has come to if it has succeeded, and else what
    there was when it was put on the stack. -/
theorem Popped.supply (h : Popped c m last m') :
    supply m'.ledger =
      if (last.topResult c).isSuccess then supply last.ledger else supply m.ledger := by
  by_cases hsuccess : (last.topResult c).isSuccess
  · rw [if_pos hsuccess, supply_of_state (h.succeeded hsuccess)]
    exact last.toLocal.supply_deposited c
  · have hfailed := ExecutionResult.status_ne_success hsuccess
    rw [if_neg hsuccess]
    refine supply_congr ((congrArg LedgerState.balance (h.failed hfailed).1).trans ?_)
    exact LedgerState.balance_afterFailure _ _

omit [LawfulLedger L] in
/-- A popped frame registers nothing with its parent if it has nothing registered or does not
    succeed. -/
theorem Popped.registered (h : Popped c m last m')
    (hnone : (last.topResult c).isSuccess = true → last.top.selfDestructs = #[]) :
    m'.registered = last.registered.tail := by
  obtain ⟨-, parent, hbelow, hhanded⟩ := h.handedTo
  have hdestructs := (last.handedTo_records c parent m'.below).2.2
  rw [← hhanded] at hdestructs
  -- the parent takes over what is registered, which is nothing, or takes over nothing
  have same : m'.top.selfDestructs = parent.selfDestructs := by
    rw [hdestructs]
    split
    · rename_i hsuccess
      rw [hnone hsuccess]
      rfl
    · rfl
  show _ :: m'.below.map _ = last.below.map _
  rw [hbelow, same]
  rfl

/-- Over its course no frame raises the supply, with all the children that it has had. -/
theorem Course.supply_le (h : Course c m m') : Ledger.supply m'.ledger ≤ Ledger.supply m.ledger := by
  induction h with
  | refl => exact Nat.le_refl _
  | own hcourse hstep hbelow ih =>
    have hown := step_supply_le (step_cases hstep) (Nat.le_of_eq (by rw [hbelow]))
    exact Nat.le_trans hown ih
  | child hcourse hspawn hfresh hhigher hchild hpop hback ih ihchild =>
    have spawned := step_supply_le (step_cases hspawn) (by omega)
    have popped := (hchild.popped hfresh hpop (by omega)).supply
    -- the child leaves what it has come to, or what it was put on the stack with
    split at popped <;> omega

/-- The supply is as before, and so is what is registered. -/
structure SameSupply (m m' : Machine L) : Prop where
  supply : Ledger.supply m'.ledger = Ledger.supply m.ledger
  registered : m'.registered.flatMap Array.toList = m.registered.flatMap Array.toList

/-- Both stay across all that does not destroy an account. -/
theorem tracks_supply (c : Context) :
    TracksKept (L := L) c (fun _ => True) (·.Executes c .selfDestruct) SameSupply where
  refl _ := ⟨rfl, rfl⟩
  trans h k := ⟨k.supply.trans h.supply, k.registered.trans h.registered⟩
  step _ hidle hstep hstays := by
    obtain ⟨hsupply, ⟨-, hsame⟩ | ⟨-, hmore⟩⟩ := step_supply_eq hstep hstays hidle
    · exact ⟨hsupply, by rw [hsame]⟩
    · exact ⟨hsupply, by rw [hmore, List.flatMap_cons]; rfl⟩
  kept {m last m'} _ hpopped hsuccess hlife := by
    have hsupply := hpopped.supply
    rw [if_pos hsuccess] at hsupply
    -- the child had nothing registered when it was put on the stack
    have hnone : last.top.selfDestructs = #[] := by
      obtain ⟨message, refund, htop⟩ := hpopped.fresh
      have hregistered := hlife.registered
      rw [registered, registered, hpopped.course.below_eq, htop, List.flatMap_cons,
        List.flatMap_cons] at hregistered
      exact Array.toList_eq_nil_iff.1 (List.append_cancel_right hregistered)
    refine ⟨hsupply.trans hlife.supply, ?_⟩
    rw [hpopped.registered fun _ => hnone, ← hlife.registered, registered, List.flatMap_cons, hnone]
    rfl
  undone {m last m'} _ hpopped hfailed := by
    have hsupply := hpopped.supply
    rw [if_neg hfailed] at hsupply
    refine ⟨hsupply, ?_⟩
    obtain ⟨message, refund, htop⟩ := hpopped.fresh
    rw [hpopped.registered fun hsuccess => absurd hsuccess hfailed, registered, registered,
      hpopped.course.below_eq, htop, List.flatMap_cons]
    rfl

/-! ### Whole executions -/

section Executions

variable {l : L} {message : Message} {observer : Observer}

/-- What counts as accessed from the start costs no ether. -/
theorem supply_launch (c : Context) (l : L) (message : Message) (observer : Observer) :
    Ledger.supply (launch c l message observer).ledger = Ledger.supply l :=
  supply_of_state (state_prewarm l _)

/-- What an execution leaves of the supply, once its first frame has ended. -/
theorem Visited.supply_end (h : Visited c l message observer last)
    (hphase : last.top.phase = .finalizing) (hbelow : last.below = []) :
    Ledger.supply (last.toLocal.finalize c last.isRoot).2.ledger =
      if (last.topResult c).isSuccess then
        Ledger.supply ((last.toLocal.deposited c).2.swept last.isRoot none).ledger
      else Ledger.supply l := by
  have hcourse := h.course hbelow
  by_cases hsuccess : (last.topResult c).isSuccess
  · rw [if_pos hsuccess]
    exact supply_of_state (finalize_succeeded isFresh_launch hcourse hphase hsuccess).2
  · have hfailed := ExecutionResult.status_ne_success hsuccess
    have hstate := (finalize_failed isFresh_launch hcourse.steps hcourse.length hphase hfailed).1
    rw [if_neg hsuccess, ← supply_launch c l message observer]
    exact supply_congr ((congrArg LedgerState.balance hstate).trans
      (LedgerState.balance_afterFailure _ _))

/-- A root message never adds to the supply. -/
theorem execute_supply_le (c : Context) (l : L) (message : Message) (observer : Observer) :
    Ledger.supply (execute c l message observer).ledger ≤ Ledger.supply l := by
  by_cases hdepth : message.depth ≤ c.config.maxCallDepth
  · obtain ⟨last, x, hvisited, -, hdone, heq⟩ := execute_eq l observer hdepth
    obtain ⟨hphase, hbelow, -, hledger⟩ := step_done hdone
    have hend := hvisited.supply_end hphase hbelow
    have lived := (hvisited.course hbelow).supply_le
    rw [supply_launch] at lived
    rw [heq]
    show Ledger.supply x.ledger ≤ _
    rw [hledger, hend]
    -- the end of the first frame: a deposit moves nothing, a sweep burns, a failure takes it all
    -- back
    split
    · calc Ledger.supply ((last.toLocal.deposited c).2.swept last.isRoot none).ledger
          ≤ Ledger.supply (last.toLocal.deposited c).2.ledger := Local.supply_swept_le _ _ _
        _ = Ledger.supply last.ledger := last.toLocal.supply_deposited c
        _ ≤ Ledger.supply l := lived
    · exact Nat.le_refl _
  · rw [execute_of_depth (Nat.lt_of_not_le hdepth)]

/-- Without a self-destruction that survives, it takes nothing from it either. -/
theorem execute_supply_eq (c : Context) (l : L) (message : Message) (observer : Observer)
    (h : ∀ x, Visited c l message observer x → x.Executes c .selfDestruct → ¬ x.Survives c) :
    Ledger.supply (execute c l message observer).ledger = Ledger.supply l := by
  by_cases hdepth : message.depth ≤ c.config.maxCallDepth
  · obtain ⟨last, x, hvisited, -, hdone, heq⟩ := execute_eq l observer hdepth
    obtain ⟨hphase, hbelow, -, hledger⟩ := step_done hdone
    rw [heq]
    show Ledger.supply x.ledger = _
    rw [hledger, hvisited.supply_end hphase hbelow]
    split
    · rename_i hsuccess
      have hheight : last.below.length = 0 := by rw [hbelow]; rfl
      -- the first frame is not what undoes a destruction, so it is a frame further up
      have undone (x : Machine L) (hx : Steps c 0 (launch c l message observer) x)
          (hexec : x.Executes c .selfDestruct) : x.IsUndone c 1 :=
        (isUndone_of_not_survives (h x ⟨hdepth, hx⟩ hexec)).above hx hvisited.steps hheight hphase
          hsuccess
      have same :=
        (hvisited.course hbelow).tracks_kept (tracks_supply c) (fun _ _ => trivial) undone
      have unregistered : last.top.selfDestructs = #[] := by
        have hregistered := same.registered
        rw [registered, hbelow, List.flatMap_cons] at hregistered
        exact Array.toList_eq_nil_iff.1 (List.append_eq_nil_iff.1 hregistered).1
      rw [last.toLocal.swept_deposited_ledger c unregistered, last.toLocal.supply_deposited c]
      exact same.supply.trans (supply_launch c l message observer)
    · rfl
  · rw [execute_of_depth (Nat.lt_of_not_le hdepth)]

end Executions

end Machine

end Lawful

/-! ### Everywhere -/

open Machine in
/-- Ledgers on which ether is not created. -/
structure EtherConserved (L : Type) [Ledger L] : Prop where
  /-- An execution does not raise the supply. -/
  execute_le (c : Context) (l : L) (message : Message) (observer : Observer) :
    supply (execute c l message observer).ledger ≤ supply l
  /-- It leaves the supply as it is unless an account is destroyed in a frame that survives. -/
  execute_eq (c : Context) (l : L) (message : Message) (observer : Observer) :
    (∀ x, Visited c l message observer x → x.Executes c .selfDestruct → ¬ x.Survives c) →
      supply (execute c l message observer).ledger = supply l
  /-- A transfer leaves the supply as it is, also from an account to itself. -/
  transferred {l l' : L} {sender recipient : Address} {value : Word} :
    transfer l sender recipient value = .ok l' → supply l' = supply l
  /-- A frame whose value cannot be moved is left as it was, and so is the ledger. -/
  refused {s t : Local L} {error : VmError} :
    (Effect.moveValue : Effect L Unit).run s = .error error t → t = s

/-- A transfer that fails moves nothing. -/
theorem Effect.state_of_moveValue_error [StandardLedger L] {s t : Local L} {error : VmError}
    (h : (Effect.moveValue : Effect L Unit).run s = .error error t) : t = s := by
  rw [moveValue, run_frame_bind] at h
  dsimp only at h
  rw [run_tryLedger] at h
  split at h
  · cases h
  · rename_i hrefused
    cases h
    rw [Ledger.isAtomic_tryTransfer _ _ _ hrefused]

/-- All of it together, over every lawful ledger. -/
theorem etherConserved_of_lawful [LawfulLedger L] : EtherConserved L where
  execute_le := Machine.execute_supply_le
  execute_eq := Machine.execute_supply_eq
  transferred := supply_transfer
  refused := Effect.state_of_moveValue_error

/-- On both ledgers, whatever world lies below, ether is not created. -/
theorem ether_conserved :
    (∀ (S : Type) [WorldSource S], EtherConserved (JournaledLedger S)) ∧
      EtherConserved SnapshotLedger :=
  ⟨fun _ _ => etherConserved_of_lawful, etherConserved_of_lawful⟩

/-- In an execution that fails nothing survives. -/
theorem Machine.not_survives_of_failed {c : Context} {l : L} {message : Message}
    {observer : Observer} {x : Machine L} (h : Visited c l message observer x)
    (hfailed : (execute c l message observer).result.isSuccess = false) : ¬ x.Survives c := by
  obtain ⟨last, y, hlast, -, hdone, heq⟩ := execute_eq l observer h.depth
  obtain ⟨hphase, hbelow, hresult, -⟩ := step_done hdone
  -- the first frame outlives every other, and it has failed
  have hsteps : Steps c last.below.length x last := by
    rw [hbelow]
    exact h.steps_to_end hlast hdone
  intro hsurvives
  have hsuccess : (last.topResult c).isSuccess = true :=
    hsurvives last hsteps (by rw [hbelow]; exact Nat.zero_le _) hphase
  rw [heq] at hfailed
  have same : y.result.isSuccess = false := hfailed
  rw [hresult] at same
  exact Bool.false_ne_true (same.symm.trans hsuccess)

/-- A contract calls another one, which destroys itself in its own favour, and then asks for a
    rollback: the destruction is executed, but it does not survive. -/
theorem ether_conserved_on_rollback :
    let c : Context := { precompiles := .none }
    let l := SnapshotLedger.ofWorld (World.setBalance (World.setCode (World.setCode {} 8 #[0x30, 0xff])
      7 #[0x60, 0, 0x60, 0, 0x60, 0, 0x60, 0, 0x60, 0, 0x60, 8, 0x61, 0xff, 0xff, 0xf1,
        0x60, 0, 0x60, 0, 0xfd]) 8 5)
    let message := Message.call 1 7 0 #[] 200000
    let x := (Machine.launch c l message .off).after c 13
    Machine.Visited c l message .off x ∧ x.Executes c .selfDestruct ∧
      Ledger.balance x.ledger 8 = 5 ∧
      Ledger.supply (execute c l message .off).ledger = Ledger.supply l := by
  intro c l message x
  have visited : Machine.Visited c l message .off x :=
    Machine.Visited.iff_after.2 ⟨Nat.zero_le _, 13, rfl⟩
  have failed : (execute c l message .off).result.isSuccess = false := by decide +kernel
  refine ⟨visited, ⟨.inl (by decide +kernel), by decide +kernel⟩, by decide +kernel, ?_⟩
  exact ether_conserved.2.execute_eq c l message .off fun y hy _ =>
    Machine.not_survives_of_failed hy failed

end Evm
