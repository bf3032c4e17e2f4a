import Evm.Proofs.Machine.Course

namespace Evm

/-!
# Success keeps what was done

A frame that succeeds has its changes kept: after its end the ledger answers as it did before its
snapshot was settled.  Its records and its destructions go to the parent, while those of a frame
that does not succeed are dropped.

* `Local.finalize_succeeded`, `Machine.Popped.succeeded` — the ledger after a success.
* `Local.finalize_records` — the records in the result of a frame.
* `Frame.resume_records` — what a parent takes over.
-/

/-! ### Records -/

/-- The message and the records of a parent once it has taken in a child. -/
theorem Frame.resume_records (parent : Frame) (childGas : Meter) (result : ExecutionResult) :
    (parent.resume childGas result).message = parent.message ∧
      (parent.resume childGas result).logs =
        (if result.isSuccess then parent.logs ++ result.logs else parent.logs) ∧
      (parent.resume childGas result).selfDestructs =
        (if result.isSuccess then result.selfDestructs.foldl noted parent.selfDestructs
          else parent.selfDestructs) := by
  obtain ⟨_, _, _, _, _, _, heq⟩ := parent.resume_merged childGas result
  rw [heq, mergeChild_eq]
  dsimp only
  split <;> exact ⟨rfl, rfl, rfl⟩

variable {L : Type} [Ledger L]

namespace Local

omit [Ledger L] in
/-- A result carries the frame's records when there is no error. -/
theorem conclude_records (s : Local L) (error : Option VmError) :
    (s.conclude error).1.logs = (if error.isNone then s.frame.logs else #[]) ∧
      (s.conclude error).1.selfDestructs =
        (if error.isNone then s.frame.selfDestructs else #[]) := by
  cases error with
  | none => exact ⟨rfl, rfl⟩
  | some e => cases e <;> exact ⟨rfl, rfl⟩

/-- The result of a frame has its records if the frame has succeeded, and none otherwise. -/
theorem finalize_records (c : Context) (isRoot : Bool) (s : Local L) :
    (s.finalize c isRoot).1.logs =
        (if (s.finalize c isRoot).1.isSuccess then s.frame.logs else #[]) ∧
      (s.finalize c isRoot).1.selfDestructs =
        (if (s.finalize c isRoot).1.isSuccess then s.frame.selfDestructs else #[]) := by
  obtain ⟨gas, output, -, hframe⟩ := s.deposited_frame c
  rw [finalize_eq]
  dsimp only
  rw [conclude_isSuccess]
  obtain ⟨hlogs, hdestructs⟩ := conclude_records
    (((s.deposited c).2.swept isRoot (s.deposited c).1).settle (s.deposited c).1).2
    (((s.deposited c).2.swept isRoot (s.deposited c).1).settle (s.deposited c).1).1
  rw [settle_frame, swept_frame, hframe] at hlogs hdestructs
  exact ⟨hlogs, hdestructs⟩

variable [LawfulLedger L]

/-- A frame that succeeds leaves what there was before its snapshot was settled. -/
theorem finalize_succeeded {c : Context} {f : Frame} {e l : L}
    (h : (EngineCoupling.self L).Alive c f f e e l l) (hphase : f.phase = .finalizing)
    (isRoot : Bool) (hsuccess : (Local.finalize c isRoot ⟨f, l⟩).1.isSuccess = true) :
    (Local.deposited c ⟨f, l⟩).1 = none ∧
      Ledger.state (Local.finalize c isRoot ⟨f, l⟩).2.ledger =
        Ledger.state ((Local.deposited c ⟨f, l⟩).2.swept isRoot none).ledger := by
  cases finalize_settled h hphase isRoot with
  | refused _ _ _ _ _ _ hfailed => exact absurd (hsuccess.symm.trans hfailed) nofun
  | kept _ _ hnone _ hstate _ =>
    rw [hnone] at hstate
    exact ⟨hnone, hstate⟩
  | undone _ _ _ _ _ _ _ hfailed => exact absurd (hsuccess.symm.trans hfailed) nofun

end Local

namespace Machine

variable {c : Context} {m last m' : Machine L}

/-- The records of a frame when it is prepared. -/
theorem prepare_records (c : Context) (m : Machine L) :
    (m.prepare c).top.message = m.top.message ∧ (m.prepare c).top.logs = m.top.logs ∧
      (m.prepare c).top.selfDestructs = m.top.selfDestructs := by
  obtain ⟨program, snapshot, heq⟩ := m.toLocal.attempt_prepare_eq c
  unfold prepare
  dsimp only
  rw [heq]
  split <;> exact ⟨rfl, rfl, rfl⟩

omit [Ledger L] in
/-- Entering a frame leaves its records and the ledger alone, also where a precompiled contract
    answers. -/
theorem enter_records (c : Context) (m : Machine L) :
    (m.enter c).top.message = m.top.message ∧ (m.enter c).top.logs = m.top.logs ∧
      (m.enter c).top.selfDestructs = m.top.selfDestructs ∧ (m.enter c).ledger = m.ledger := by
  unfold enter
  cases m.calledPrecompile c with
  | none => exact ⟨rfl, rfl, rfl, rfl⟩
  | some p =>
    obtain ⟨gas, output, -, heq⟩ := m.top.answered_eq p
    dsimp only
    rw [Local.attempt_runPrecompile]
    dsimp only [toLocal]
    rw [heq]
    exact ⟨rfl, rfl, rfl, rfl⟩

/-- What a step that pops no frame does to the ledger: it prepares a new frame, it does nothing, or
    it does what the turn of a running frame does. -/
theorem Stepped.ledger_cases (h : Stepped c m m') (hstays : m.below.length ≤ m'.below.length) :
    m.top.phase = .created ∧ m'.ledger = (m.toLocal.attempt (Effect.prepare c)).2.ledger ∨
      m'.ledger = m.ledger ∨ ∃ o s t, m.turn c = (o, s, t) ∧ m'.ledger = s.ledger := by
  cases h with
  | prepares hphase => exact .inl ⟨hphase, rfl⟩
  | enters _ => exact .inr (.inl (m.enter_records c).2.2.2)
  | continues _ hturn | ends _ hturn _ | spawns _ hturn => exact .inr (.inr ⟨_, _, _, hturn, rfl⟩)
  | pops _ hbelow =>
    rw [hbelow] at hstays
    exact absurd hstays (Nat.not_succ_le_self _)

/-- What the top frame hands to its parent. -/
theorem handedTo_records (c : Context) (m : Machine L) (parent : Frame) (below : List Frame) :
    (m.handedTo c parent below).top.message = parent.message ∧
      (m.handedTo c parent below).top.logs =
        (if (m.topResult c).isSuccess then parent.logs ++ m.top.logs else parent.logs) ∧
      (m.handedTo c parent below).top.selfDestructs =
        (if (m.topResult c).isSuccess then m.top.selfDestructs.foldl Frame.noted parent.selfDestructs
          else parent.selfDestructs) := by
  obtain ⟨hlogs, hdestructs⟩ := m.toLocal.finalize_records c m.isRoot
  obtain ⟨hmessage, htaken, hnoted⟩ := parent.resume_records
    (m.toLocal.finalize c m.isRoot).2.frame.gas (m.topResult c)
  -- both records go the same way: to the parent when the child has succeeded
  refine ⟨hmessage, htaken.trans ?_, hnoted.trans ?_⟩
  · split
    · rename_i hsuccess
      rw [topResult, hlogs]
      exact congrArg (parent.logs ++ ·) (if_pos hsuccess)
    · rfl
  · split
    · rename_i hsuccess
      rw [topResult, hdestructs]
      exact congrArg (Array.foldl Frame.noted parent.selfDestructs) (if_pos hsuccess)
    · rfl

/-! ### Frames that succeed -/

/-- A frame keeps its message over its course. -/
theorem Course.message (h : Course c m m') : m'.top.message = m.top.message :=
  h.steps.message h.length

variable [LawfulLedger L]

/-- A frame that has come to its end, on the stack as when it was put there, and succeeds. -/
theorem finalize_succeeded (hfresh : m.IsFresh c) (hcourse : Course c m last)
    (hphase : last.top.phase = .finalizing) (hsuccess : (last.topResult c).isSuccess = true) :
    (last.toLocal.deposited c).1 = none ∧
      Ledger.state (last.toLocal.finalize c last.isRoot).2.ledger =
        Ledger.state ((last.toLocal.deposited c).2.swept last.isRoot none).ledger := by
  have hrelated := LedgerInvariant.trivial.steps_related hcourse.steps
    (LedgerInvariant.trivial.related_of_isFresh hfresh True.intro)
  obtain ⟨-, l, k, hbelow, halive⟩ := hrelated
  obtain ⟨rfl, rfl⟩ := hbelow.eq_of_length hcourse.length
  exact Local.finalize_succeeded halive hphase last.isRoot hsuccess

/-- A frame that succeeds and is popped leaves what it has done, and the code that it has
    deposited. -/
theorem Popped.succeeded (h : Popped c m last m') (hsuccess : (last.topResult c).isSuccess = true) :
    Ledger.state m'.ledger = Ledger.state (last.toLocal.deposited c).2.ledger := by
  have hstate := (finalize_succeeded h.fresh h.course h.handedTo.1 hsuccess).2
  rw [h.isRoot_eq] at hstate
  rw [h.ledger_eq, h.isRoot_eq]
  exact hstate

end Machine

end Evm
