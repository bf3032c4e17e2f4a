import Evm.Proofs.Machine.Records

namespace Evm

/-!
# What surfaces of an execution

Frames hand what they have collected on to their parents as long as they succeed.  So what is left
at the end comes from frames that have succeeded together with all frames below them, and it is all
that those have left, in order.

* `Machine.kept` — what is left of a trail.
* `Machine.Course.collects` — what a frame has collected over its course.
* `EffectsSurface` — what this means for an execution that succeeds.
* `effects_surface` — every execution is like that.
-/

variable {L : Type} [Ledger L]

namespace Machine

variable {c : Context} {m m' m'' last x : Machine L} {floor low : Nat} {ms : List (Machine L)}

/-! ### What is kept of a trail -/

open Classical in
/-- What some machines are to leave, but for those in which a frame at least so high up does not
    succeed. -/
noncomputable def kept {α : Type} (c : Context) (floor : Nat) (leaves : Machine L → Option α)
    (ms : List (Machine L)) : List α :=
  (ms.filter fun x => ¬ x.IsUndone c floor).filterMap leaves

section Kept

variable {α : Type} {leaves : Machine L → Option α}

/-- What is kept of a longer trail is kept of its parts. -/
theorem kept_append (ms ms' : List (Machine L)) :
    kept c floor leaves (ms ++ ms') = kept c floor leaves ms ++ kept c floor leaves ms' := by
  rw [kept, List.filter_append, List.filterMap_append]
  rfl

/-- A machine is kept if no frame above the floor is to fail. -/
theorem kept_singleton (h : ¬ x.IsUndone c floor) :
    kept c floor leaves [x] = (leaves x).toList := by
  rw [kept, List.filter_cons_of_pos (by simpa using h), List.filter_nil]
  cases hx : leaves x with
  | none => simp [hx]
  | some a => simp [hx]

/-- Nothing is kept of machines that are undone or leave nothing. -/
theorem kept_eq_nil (h : ∀ x ∈ ms, x.IsUndone c floor ∨ leaves x = none) :
    kept c floor leaves ms = [] := by
  refine List.filterMap_eq_nil_iff.2 fun x hx => ?_
  obtain ⟨hmem, hkept⟩ := List.mem_filter.1 hx
  exact (h x hmem).resolve_left (by simpa using hkept)

/-- Another floor keeps the same if the same machines are undone. -/
theorem kept_congr (h : ∀ x ∈ ms, x.IsUndone c floor ↔ x.IsUndone c low) :
    kept c floor leaves ms = kept c low leaves ms := by
  rw [kept, kept, List.filter_congr fun x hx => by rw [h x hx]]

end Kept

/-- What is undone so high up is undone from further below. -/
theorem IsUndone.weaken (h : x.IsUndone c floor) (hlow : low ≤ floor) : x.IsUndone c low := by
  obtain ⟨last, hfloor, hrest⟩ := h
  exact ⟨last, Nat.le_trans hlow hfloor, hrest⟩

/-- A frame that goes on has not come to its end. -/
theorem phase_ne_finalizing (h : m.step c = .running m') (hstays : m.below.length ≤ m'.below.length) :
    m.top.phase ≠ .finalizing := by
  intro hphase
  rw [step, hphase] at h
  dsimp only [finalizeTop] at h
  split at h
  · cases h
  · rename_i hbelow
    cases h
    rw [hbelow] at hstays
    exact absurd hstays (Nat.not_succ_le_self _)

/-- A frame that has failed takes no further step of its own. -/
theorem HasFailed.not_step (h : m.HasFailed) (hstep : m.step c = .running m')
    (hstays : m.below.length ≤ m'.below.length) : False :=
  phase_ne_finalizing hstep hstays h.1

/-! ### What a frame collects -/

/-- Between two machines the top frame has collected all that is kept of a trail. -/
def CollectsOver (c : Context) (floor : Nat) (ms : List (Machine L)) (m m' : Machine L) : Prop :=
  m.top.Collects m'.top (kept c floor (nextRecord c) ms) (kept c floor (nextDestruction c) ms)

variable [LawfulLedger L]

/-- A frame that succeeds has not run into an error. -/
theorem not_hasFailed (hfresh : m.IsFresh c) (hcourse : Course c m last)
    (hphase : last.top.phase = .finalizing) (hsuccess : (last.topResult c).isSuccess = true) :
    ¬ last.HasFailed := by
  intro hfailed
  obtain ⟨e, herror⟩ := Option.isSome_iff_exists.1 hfailed.2
  have hdeposited := (finalize_succeeded hfresh hcourse hphase hsuccess).1
  rw [Local.deposited, show last.toLocal.frame.error = some e from herror] at hdeposited
  cases hdeposited

omit [LawfulLedger L] in
/-- A frame that comes to its end without an error has been prepared, and that has not failed. -/
theorem Course.prepared_of_not_hasFailed (hcourse : Course c m last) (hfresh : m.IsFresh c)
    (hphase : last.top.phase = .finalizing) (hsound : ¬ last.HasFailed) :
    (m.toLocal.attempt (Effect.prepare c)).1 = none ∧ Course c (m.prepare c) last := by
  have hfirst : m.step c = .running (m.prepare c) := by
    rw [step, hfresh.phase]
  rcases hcourse.steps.cases_head with rfl | ⟨m₁, hstep, -, hrest⟩
  · cases hphase.symm.trans hfresh.phase
  · obtain rfl : m.prepare c = m₁ := Progress.running.inj (hfirst.symm.trans hstep)
    have hafter : Course c (m.prepare c) last := Steps.course hrest hcourse.length
    refine ⟨?_, hafter⟩
    cases herror : (m.toLocal.attempt (Effect.prepare c)).1 with
    | none => rfl
    | some e =>
      -- a frame that cannot be prepared is at its end at once
      have hfailed : (m.prepare c).HasFailed := by
        unfold HasFailed prepare
        dsimp only
        rw [herror]
        exact ⟨rfl, rfl⟩
      have same : last = m.prepare c := hafter.steps.eq_of_finalizing hfailed.1
      exact absurd (same ▸ hfailed) hsound

/-- So has a frame that succeeds. -/
theorem Course.prepared (hcourse : Course c m last) (hfresh : m.IsFresh c)
    (hphase : last.top.phase = .finalizing) (hsuccess : (last.topResult c).isSuccess = true) :
    (m.toLocal.attempt (Effect.prepare c)).1 = none ∧ Course c (m.prepare c) last :=
  hcourse.prepared_of_not_hasFailed hfresh hphase (not_hasFailed hfresh hcourse hphase hsuccess)

omit [LawfulLedger L] in
/-- All of a frame that does not succeed is undone. -/
theorem Popped.isUndone (h : Popped c m last m') (hfailed : (last.topResult c).isSuccess ≠ true)
    (hx : Steps c m.below.length m x) (hlast : Steps c m.below.length x last) :
    x.IsUndone c m.below.length := by
  refine ⟨last, Nat.le_of_eq h.length.1.symm, h.length.1 ▸ hlast, ?_, h.handedTo.1, hfailed⟩
  rw [h.length.1]
  exact hx.floor_le (Nat.le_refl _)

/-- A child that is popped hands on all that is kept of its life, which is nothing if it does not
    succeed. -/
theorem Popped.collects (h : Popped c m last m') (htrail : Trail c m.below.length m ms last)
    (hcollected : last.HasFailed ∨ CollectsOver c (m.below.length + 1) ms m last) {parent : Frame}
    (hparent : m.below = parent :: m'.below) :
    parent.Collects m'.top (kept c m.below.length (nextRecord c) ms)
      (kept c m.below.length (nextDestruction c) ms) := by
  obtain ⟨hphase, parent', hbelow, hhanded⟩ := h.handedTo
  have same : parent' = parent := by
    have hbelow' := hbelow.symm.trans (h.course.below_eq.trans hparent)
    exact (List.cons.inj hbelow').1
  subst same
  obtain ⟨-, hlogs, hdestructs⟩ := last.handedTo_records c parent' m'.below
  rw [← hhanded] at hlogs hdestructs
  by_cases hsuccess : (last.topResult c).isSuccess
  · -- what is undone in the child is undone further up
    have above (x : Machine L) (hx : x ∈ ms) :
        x.IsUndone c m.below.length ↔ x.IsUndone c (m.below.length + 1) :=
      ⟨fun hundone => hundone.above (htrail.steps_of_mem hx).1 h.steps h.length.1 hphase hsuccess,
        fun hundone => hundone.weaken (Nat.le_succ _)⟩
    -- the child started without records, so what it has now is what it has collected
    have hnew := hcollected.resolve_left (not_hasFailed h.fresh h.course hphase hsuccess)
    obtain ⟨message, refund, htop⟩ := h.fresh
    rw [CollectsOver, htop] at hnew
    rw [if_pos hsuccess] at hlogs hdestructs
    rw [kept_congr above, kept_congr above]
    refine ⟨?_, ?_⟩
    · rw [hlogs, Array.toList_append, hnew.logs]
      rfl
    · rw [hdestructs, hnew.selfDestructs, Frame.foldl_noted_foldl]
      rfl
  -- everything in a child that failed is undone
  · have undone (x : Machine L) (hx : x ∈ ms) : x.IsUndone c m.below.length :=
      h.isUndone hsuccess (htrail.steps_of_mem hx).1 (htrail.steps_of_mem hx).2
    rw [if_neg hsuccess] at hlogs hdestructs
    rw [kept_eq_nil fun x hx => .inl (undone x hx), kept_eq_nil fun x hx => .inl (undone x hx)]
    exact .of_eq hlogs hdestructs

/-- Over its course a frame collects all that its own instructions leave, and those of its children
    that are not undone further up. -/
theorem Course.collects (h : Course c m m') : ∃ ms, Trail c m.below.length m ms m' ∧
    (m'.HasFailed ∨ CollectsOver c (m.below.length + 1) ms m m') := by
  -- by induction on the course: a child has one of its own, on one frame more
  induction h with
  | refl m => exact ⟨[], .refl m, .inr (.refl m.top)⟩
  | @own m m₁ m₂ hcourse hstep hbelow ih =>
    obtain ⟨ms, htrail, hcollected⟩ := ih
    have hheight := hcourse.length
    have hsame : m₂.below.length = m₁.below.length := by rw [hbelow]
    have hkept : ¬ m₁.IsUndone c (m.below.length + 1) := fun hundone => by
      have := hundone.lt
      omega
    refine ⟨ms ++ [m₁], .tail htrail hstep (by omega), ?_⟩
    obtain hfailed | hown := (step_cases hstep).collects hsame
    · exact .inl hfailed
    · have hbefore := hcollected.resolve_left fun hfailed => hfailed.not_step hstep (by omega)
      refine .inr ?_
      rw [CollectsOver, kept_append, kept_append, kept_singleton hkept, kept_singleton hkept]
      exact hbefore.trans hown
  | @child m m₁ m₂ last m₃ hcourse hspawn hfresh hhigher hchild hpop hback ih ihchild =>
    obtain ⟨ms, htrail, hcollected⟩ := ih
    obtain ⟨ms', htrail', hcollected'⟩ := ihchild
    have hheight := hcourse.length
    have hbefore := hcollected.resolve_left fun hfailed => hfailed.not_step hspawn (by omega)
    obtain ⟨-, -, waiting, hwaiting, hspawned⟩ := (step_cases hspawn).collects_waiting hhigher
    have hpopped := hchild.popped hfresh hpop (by omega)
    have hrest : m₃.below = m₁.below :=
      (Course.child hcourse hspawn hfresh hhigher hchild hpop hback).below_eq.trans
        hcourse.below_eq.symm
    have hhanded := hpopped.collects htrail' hcollected' (hrest ▸ hwaiting)
    rw [show m₂.below.length = m.below.length + 1 by omega] at hhanded
    -- what the frame has left before, the request for the child, its life, and its end
    have hkept : ¬ m₁.IsUndone c (m.below.length + 1) := fun hundone => by
      have := hundone.lt
      omega
    have hidle : ¬ last.IsRunning := by
      rw [IsRunning, hpopped.handedTo.1]
      decide
    refine ⟨ms ++ [m₁] ++ ms' ++ [last], ?_, .inr ?_⟩
    · exact .tail ((htrail.tail hspawn (by omega)).trans (htrail'.weaken (by omega))) hpop (by omega)
    · rw [CollectsOver, kept_append, kept_append, kept_append, kept_append, kept_append, kept_append,
        kept_singleton hkept, kept_singleton hkept,
        kept_eq_nil (List.forall_mem_singleton.2 (.inr (if_neg hidle))),
        kept_eq_nil (List.forall_mem_singleton.2 (.inr (if_neg hidle))),
        List.append_nil, List.append_nil]
      exact (hbefore.trans hspawned).trans hhanded

/-! ### Whole executions -/

/-- At the end of an execution the first frame has collected what the frames have left that
    survive. -/
theorem Visited.surface {l : L} {message : Message} {observer : Observer}
    (h : Visited c l message observer last) (hphase : last.top.phase = .finalizing)
    (hbelow : last.below = []) (hsuccess : (last.topResult c).isSuccess = true) :
    ∃ ms, Trail c 0 (launch c l message observer) ms last ∧
      last.top.logs.toList = kept c 0 (nextRecord c) ms ∧
      last.top.selfDestructs = (kept c 0 (nextDestruction c) ms).foldl Frame.noted #[] := by
  have hcourse := h.course hbelow
  obtain ⟨ms, htrail, hcollected⟩ := hcourse.collects
  have htop := hcollected.resolve_left (not_hasFailed isFresh_launch hcourse hphase hsuccess)
  -- the first frame is not what undoes anything
  have above (x : Machine L) (hx : x ∈ ms) : x.IsUndone c 0 ↔ x.IsUndone c 1 :=
    ⟨fun hundone => hundone.above (htrail.steps_of_mem hx).1 h.steps (by rw [hbelow]; rfl) hphase
      hsuccess, fun hundone => hundone.weaken (Nat.zero_le _)⟩
  refine ⟨ms, htrail, ?_, ?_⟩
  · rw [kept_congr above]
    exact htop.logs
  · rw [kept_congr above]
    exact htop.selfDestructs

end Machine

/-! ### Destroyed accounts -/

/-- Nothing is left of the account. -/
structure LedgerState.IsGone (s : LedgerState) (a : Address) : Prop where
  present : s.present a = false
  balance : s.balance a = 0
  nonce : s.nonce a = 0
  code : s.code a = #[]
  storage (key : Word) : s.storage ⟨a, key⟩ = 0

namespace LedgerState.IsGone

omit [Ledger L]

/-- An account that is destroyed is gone. -/
theorem destroyAccount_self (s : LedgerState) (a : Address) : (s.destroyAccount a).IsGone a where
  present := Function.update_self ..
  balance := Function.update_self ..
  nonce := Function.update_self ..
  code := Function.update_self ..
  storage _ := if_pos rfl

/-- An account that is gone stays gone when another one is destroyed. -/
theorem destroyAccount {s : LedgerState} {a : Address} (h : s.IsGone a) (b : Address) :
    (s.destroyAccount b).IsGone a := by
  by_cases hb : a = b
  · exact hb ▸ destroyAccount_self s a
  · exact
      { present := (Function.update_of_ne hb ..).trans h.present
        balance := (Function.update_of_ne hb ..).trans h.balance
        nonce := (Function.update_of_ne hb ..).trans h.nonce
        code := (Function.update_of_ne hb ..).trans h.code
        storage := fun key => (if_neg hb).trans (h.storage key) }

/-- So is every account of a list that is destroyed. -/
theorem foldl_destroyAccount {s : LedgerState} {a : Address} {addresses : List Address}
    (h : a ∈ addresses ∨ s.IsGone a) : (addresses.foldl .destroyAccount s).IsGone a := by
  induction addresses generalizing s with
  | nil => exact h.resolve_left List.not_mem_nil
  | cons b rest ih =>
    refine ih ?_
    obtain h | h := h
    · obtain rfl | h := List.mem_cons.1 h
      · exact .inr (destroyAccount_self s a)
      · exact .inl h
    · exact .inr (h.destroyAccount b)

end LedgerState.IsGone

/-- A ledger destroys accounts one after another. -/
theorem Ledger.state_foldl_destroyAccount [LawfulLedger L] (l : L) (addresses : List Address) :
    state (addresses.foldl destroyAccount l) = addresses.foldl .destroyAccount (state l) := by
  induction addresses generalizing l with
  | nil => rfl
  | cons a rest ih => rw [List.foldl_cons, ih, LawfulLedger.state_destroyAccount, List.foldl_cons]

/-- At the end of the first frame the accounts that it has registered are gone. -/
theorem Local.isGone_swept [LawfulLedger L] (s : Local L) {a : Address}
    (h : a ∈ s.frame.selfDestructs) : (Ledger.state (s.swept true none).ledger).IsGone a := by
  show (Ledger.state (s.frame.selfDestructs.foldl Ledger.destroyAccount s.ledger)).IsGone a
  rw [← Array.foldl_toList, Ledger.state_foldl_destroyAccount]
  exact .foldl_destroyAccount (.inl (Array.mem_toList_iff.2 h))

/-! ### Everywhere -/

open Machine Classical in
/-- Ledgers on which just the effects that survive surface. -/
structure EffectsSurface (L : Type) [Ledger L] : Prop where
  /-- The records of an execution that succeeds are those that the instructions of surviving frames
      leave, in order.  The addresses that it names are those that such frames have registered, each
      where it comes first. -/
  surface (c : Context) (l : L) (message : Message) (observer : Observer) :
    (execute c l message observer).result.isSuccess = true →
      ∃ ms last x, Trail c 0 (launch c l message observer) ms last ∧ last.step c = .done x ∧
        (execute c l message observer).result.logs.toList =
          (ms.filter fun x => x.Survives c).filterMap (nextRecord c) ∧
        (execute c l message observer).result.selfDestructs.toList =
          ((ms.filter fun x => x.Survives c).filterMap (nextDestruction c)).eraseDups ∧
        (execute c l message observer).result.selfDestructs.toList.Nodup
  /-- Nothing is left of an account that it names. -/
  gone (c : Context) (l : L) (message : Message) (observer : Observer) (a : Address) :
    (execute c l message observer).result.isSuccess = true →
      a ∈ (execute c l message observer).result.selfDestructs →
      (Ledger.state (execute c l message observer).ledger).IsGone a

namespace Machine

variable {c : Context} {l : L} {message : Message} {observer : Observer} {x : Machine L}

/-- What survives is not undone by any frame. -/
theorem survives_iff : x.Survives c ↔ ¬ x.IsUndone c 0 := by
  constructor
  · rintro hsurvives ⟨last, -, hsteps, hlow, hphase, hfailed⟩
    exact hfailed (hsurvives last hsteps hlow hphase)
  · intro hkept
    by_contra hsurvives
    exact hkept (isUndone_of_not_survives hsurvives)

open Classical in
/-- So what is kept in the end is what survives. -/
theorem kept_zero {α : Type} (leaves : Machine L → Option α) (ms : List (Machine L)) :
    kept c 0 leaves ms = (ms.filter fun x => x.Survives c).filterMap leaves := by
  exact congrArg (List.filterMap leaves)
    (List.filter_congr fun x _ => decide_eq_decide.2 survives_iff.symm)

/-- An execution that succeeds ends with a step of its first frame, the result of which it is. -/
theorem execute_succeeded (hsuccess : (execute c l message observer).result.isSuccess = true) :
    ∃ last x, Visited c l message observer last ∧ last.step c = .done x ∧
      last.top.phase = .finalizing ∧ last.below = [] ∧ (last.topResult c).isSuccess = true ∧
      (execute c l message observer).result.logs = last.top.logs ∧
      (execute c l message observer).result.selfDestructs = last.top.selfDestructs ∧
      (execute c l message observer).ledger = (last.toLocal.finalize c last.isRoot).2.ledger := by
  -- a message too deep does not succeed
  by_cases hdepth : message.depth ≤ c.config.maxCallDepth
  · obtain ⟨last, x, hvisited, -, hdone, heq⟩ := execute_eq l observer hdepth
    obtain ⟨hphase, hbelow, hresult, hledger⟩ := step_done hdone
    rw [heq] at hsuccess ⊢
    have htop : (last.topResult c).isSuccess = true := by
      rw [topResult, ← hresult]
      exact hsuccess
    obtain ⟨hlogs, hdestructs⟩ := last.toLocal.finalize_records c last.isRoot
    refine ⟨last, x, hvisited, hdone, hphase, hbelow, htop, ?_, ?_, hledger⟩
    · show x.result.logs = _
      rw [hresult]
      exact hlogs.trans (if_pos htop)
    · show x.result.selfDestructs = _
      rw [hresult]
      exact hdestructs.trans (if_pos htop)
  · rw [execute_of_depth (Nat.lt_of_not_le hdepth)] at hsuccess
    cases hsuccess

/-- An execution that does not succeed leaves no records. -/
theorem execute_records_of_failed
    (hfailed : ¬ (execute c l message observer).result.isSuccess = true) :
    (execute c l message observer).result.logs = #[] ∧
      (execute c l message observer).result.selfDestructs = #[] := by
  by_cases hdepth : message.depth ≤ c.config.maxCallDepth
  · obtain ⟨last, x, -, -, hdone, heq⟩ := execute_eq l observer hdepth
    obtain ⟨-, -, hresult, -⟩ := step_done hdone
    rw [heq] at hfailed ⊢
    have htop : ¬ (last.toLocal.finalize c last.isRoot).1.isSuccess = true := by
      rw [← hresult]
      exact hfailed
    obtain ⟨hlogs, hdestructs⟩ := last.toLocal.finalize_records c last.isRoot
    rw [if_neg htop] at hlogs hdestructs
    show x.result.logs = #[] ∧ x.result.selfDestructs = #[]
    rw [hresult]
    exact ⟨hlogs, hdestructs⟩
  · rw [execute_of_depth (Nat.lt_of_not_le hdepth)]
    exact ⟨rfl, rfl⟩

variable [LawfulLedger L]

/-- The result of an execution has just what its machines leave and no frame undoes. -/
theorem execute_surface (hsuccess : (execute c l message observer).result.isSuccess = true) :
    ∃ ms last x, Trail c 0 (launch c l message observer) ms last ∧ last.step c = .done x ∧
      (execute c l message observer).result.logs.toList = kept c 0 (nextRecord c) ms ∧
      (execute c l message observer).result.selfDestructs.toList =
        (kept c 0 (nextDestruction c) ms).eraseDups ∧
      (execute c l message observer).result.selfDestructs.toList.Nodup := by
  obtain ⟨last, x, hvisited, hdone, hphase, hbelow, htop, hlogs, hdestructs, -⟩ :=
    execute_succeeded hsuccess
  obtain ⟨ms, htrail, hrecords, hregistered⟩ := hvisited.surface hphase hbelow htop
  refine ⟨ms, last, x, htrail, hdone, hlogs ▸ hrecords, ?_, ?_⟩
  · rw [hdestructs, hregistered, Frame.toList_foldl_noted]
  · rw [hdestructs, hregistered]
    exact Frame.nodup_foldl_noted _ List.nodup_nil

/-- An account in the result is gone. -/
theorem execute_gone {a : Address} (hsuccess : (execute c l message observer).result.isSuccess = true)
    (ha : a ∈ (execute c l message observer).result.selfDestructs) :
    (Ledger.state (execute c l message observer).ledger).IsGone a := by
  obtain ⟨last, x, hvisited, hdone, hphase, hbelow, htop, -, hdestructs, hledger⟩ :=
    execute_succeeded hsuccess
  have hroot : last.isRoot = true := by
    rw [isRoot, hbelow]
    rfl
  obtain ⟨gas, output, -, hframe⟩ := last.toLocal.deposited_frame c
  have hend := finalize_succeeded isFresh_launch (hvisited.course hbelow) hphase htop
  rw [hledger, hend.2, hroot]
  refine Local.isGone_swept _ ?_
  rw [hframe]
  exact hdestructs ▸ ha

end Machine

/-- Effects surface on every lawful ledger. -/
theorem effectsSurface_of_lawful [LawfulLedger L] : EffectsSurface L where
  surface c l message observer hsuccess := by
    simp only [← Machine.kept_zero]
    exact Machine.execute_surface hsuccess
  gone _ _ _ _ _ := Machine.execute_gone

/-- On both ledgers, whatever world lies below, just the effects that survive surface. -/
theorem effects_surface :
    (∀ (S : Type) [WorldSource S], EffectsSurface (JournaledLedger S)) ∧
      EffectsSurface SnapshotLedger :=
  ⟨fun _ _ => effectsSurface_of_lawful, effectsSurface_of_lawful⟩

/-- A contract calls one that leaves a record and asks for a rollback, then one that leaves a record
    and destroys itself, and at last leaves a record of its own: the first record is lost, and the
    second contract is gone. -/
theorem effects_surface_past_rollback :
    let c : Context := { precompiles := .none }
    let l := SnapshotLedger.ofWorld (World.setCode (World.setCode (World.setCode {}
      8 #[0x60, 0, 0x60, 0, 0xa0, 0x60, 0, 0x60, 0, 0xfd])
      9 #[0x60, 0, 0x60, 0, 0xa0, 0x30, 0xff])
      7 #[0x60, 0, 0x60, 0, 0x60, 0, 0x60, 0, 0x60, 0, 0x60, 8, 0x61, 0xff, 0xff, 0xf1,
        0x60, 0, 0x60, 0, 0x60, 0, 0x60, 0, 0x60, 0, 0x60, 9, 0x61, 0xff, 0xff, 0xf1,
        0x60, 1, 0x60, 0, 0x60, 0, 0xa1])
    let x := execute c l (.call 1 7 0 #[] 300000) .off
    x.result.isSuccess = true ∧
      x.result.logs = #[⟨9, [], #[]⟩, ⟨7, [1], #[]⟩] ∧ x.result.selfDestructs = #[9] ∧
      (∃ ms last y, Machine.Trail c 0 (Machine.launch c l (.call 1 7 0 #[] 300000) .off) ms last ∧
        last.step c = .done y) ∧
      (Ledger.state x.ledger).IsGone 9 := by
  intro c l x
  have succeeded : x.result.isSuccess = true := by decide +kernel
  obtain ⟨ms, last, y, htrail, hdone, -⟩ := effects_surface.2.surface c l _ .off succeeded
  have named : 9 ∈ x.result.selfDestructs := by decide +kernel
  refine ⟨succeeded, by decide +kernel, by decide +kernel, ⟨ms, last, y, htrail, hdone⟩, ?_⟩
  exact effects_surface.2.gone c l _ .off 9 succeeded named

end Evm
