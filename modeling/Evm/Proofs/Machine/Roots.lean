import Evm.Proofs.Machine.Evolution
import Evm.Proofs.Machine.StaticRoot

namespace Evm

/-!
# Accounts on behalf of which code runs

From Spurious Dragon on an account has a nonce or code of its own while code runs on its behalf: a
new contract starts with a nonce, a call runs the code of the account that it acts on, and the forms
of call that run the code of another account act on the account of their parent.  The first message
alone may name an account and have the code of another one run there.

* `LedgerState.IsRooted` — an account is more than its balance.
* `Message.IsDetached` — a message has the code of one account run on behalf of another.
* `Machine.Course.program_code` — a frame runs the code that it was prepared with.
* `Machine.Visited.rooted` — where code runs, the account of the frame is rooted.
* `Machine.Visited.payer_rooted` — so is the account that pays for a child.
-/

/-- The account has a nonce or code. -/
def LedgerState.IsRooted (s : LedgerState) (a : Address) : Prop := s.nonce a ≠ 0 ∨ s.code a ≠ #[]

/-- What matures stays rooted. -/
theorem LedgerState.IsRooted.matures {s t : LedgerState} {a : Address} (h : s.IsRooted a)
    (hmatures : s.Matures a t) : t.IsRooted a := by
  rcases h with hnonce | hcode
  · have := hmatures.nonce
    exact .inl (by omega)
  · exact .inr (hmatures.code hcode ▸ hcode)

/-- The message has the code of one account run on behalf of another one. -/
structure Message.IsDetached (m : Message) : Prop where
  isCreate : m.isCreate = false
  codeAddress : m.codeAddress ≠ m.recipient

variable {L : Type} [Ledger L]

/-! ### The code of a frame -/

/-- A frame with an instruction to run has code. -/
theorem Frame.hasCode_of_next {fork : Fork} {f : Frame} {i : Instruction}
    (h : f.nextInstruction fork = some i) : f.program.code.bytes ≠ #[] := by
  intro hnone
  have ended : f.program.current = none := by
    rw [Program.current, hnone]
    rfl
  rw [nextInstruction, ended] at h
  cases h

namespace Local

/-- Preparing a frame leaves its program alone, or puts it at the start of the code that it is to
    run: the input of a creation, and else the code of the account that is called. -/
theorem attempt_prepare_program (c : Context) (s : Local L) :
    (s.attempt (Effect.prepare c)).2.frame.program = s.frame.program ∨
      (s.attempt (Effect.prepare c)).1 = none ∧
        (s.attempt (Effect.prepare c)).2.frame.program =
          .ofBytes (if s.frame.message.isCreate then s.frame.message.input
            else Ledger.code (s.attempt (Effect.prepare c)).2.ledger
              s.frame.message.codeAddress) := by
  have admitted := s.admitted_prepare c
  unfold attempt
  revert admitted
  generalize (Effect.prepare c).run s = r
  rintro (⟨-, _, heq⟩ | @⟨t, hcall, _, heq⟩ | ⟨hcreate, _, heq⟩)
  · refine .inl ?_
    dsimp only
    rw [heq]
  · -- a precompiled contract has no code to load
    dsimp only
    unfold loaded
    dsimp only
    split
    · refine .inl ?_
      rw [heq]
    · refine .inr ⟨rfl, ?_⟩
      rw [heq, hcall]
      rfl
  · refine .inr ⟨rfl, ?_⟩
    rw [if_pos hcreate]
    rfl

variable [LawfulLedger L] {c : Context} {s : Local L}

/-- A frame that was prepared to create a contract has given it a nonce. -/
theorem nonce_of_prepared (hfork : .spuriousDragon ≤ c.fork)
    (h : (s.attempt (Effect.prepare c)).1 = none) (hcreate : s.frame.message.isCreate = true) :
    (Ledger.state (s.attempt (Effect.prepare c)).2.ledger).nonce s.frame.message.recipient = 1 := by
  have cleared : (((Ledger.state s.ledger).afterFailure s.frame.message).reset
      s.frame.message.recipient (Effect.initialNonce c.fork)).nonce s.frame.message.recipient =
        1 := by
    have first : Effect.initialNonce c.fork = 1 := if_pos hfork
    rw [first]
    exact Function.update_self ..
  rw [state_attempt_prepare_of_none h, LedgerState.afterEntry, if_pos hcreate,
    if_pos (Message.transfersValue_of_isCreate hcreate), LedgerState.pay]
  split
  · exact cleared
  · exact cleared

/-- A frame with code to run has a rooted account, unless it is to run the code of another one. -/
theorem rooted_of_prepared (hfork : .spuriousDragon ≤ c.fork)
    (hnone : s.frame.program.code.bytes = #[])
    (hcode : (s.attempt (Effect.prepare c)).2.frame.program.code.bytes ≠ #[]) :
    (Ledger.state (s.attempt (Effect.prepare c)).2.ledger).IsRooted s.frame.message.recipient ∨
      s.frame.message.IsDetached := by
  rcases s.attempt_prepare_program c with hsame | ⟨hprepared, hcalled⟩
  · exact absurd (hsame ▸ hnone) hcode
  · cases hcreate : s.frame.message.isCreate with
    | true =>
      have nonce := nonce_of_prepared hfork hprepared hcreate
      exact .inl (.inl (by omega))
    | false =>
      by_cases hown : s.frame.message.codeAddress = s.frame.message.recipient
      · rw [hcalled, hcreate, hown] at hcode
        exact .inl (.inr hcode)
      · exact .inr ⟨hcreate, hown⟩

end Local

namespace Machine

variable {c : Context} {l : L} {message : Message} {observer : Observer} {m m' last x : Machine L}

/-- A frame that asks for a child has code. -/
theorem hasCode_of_waits {child : Message} {k : Continuation} {s : Local L} {t : Trace}
    (h : m.turn c = (.waits child k, s, t)) : m.top.program.code.bytes ≠ #[] := by
  cases hnext : m.running.frame.nextInstruction c.fork with
  | none =>
    rcases (Local.turn_ends h hnext).2 with hhalted | ⟨e, hfailed⟩
    · cases hhalted
    · cases hfailed
  | some i => exact Frame.hasCode_of_next hnext

/-- After its turn a frame has the same code. -/
theorem turn_code {o : Outcome} {s : Local L} {t : Trace} (h : m.turn c = (o, s, t)) :
    s.frame.program.code = m.top.program.code :=
  congrArg Frame.Activation.code (turn_onward h).1.activation

/-- A parent that has taken in its child goes on with its program. -/
theorem handedTo_program (c : Context) (m : Machine L) (parent : Frame) (below : List Frame) :
    (m.handedTo c parent below).top.program = parent.program := by
  obtain ⟨_, _, _, _, _, _, hresumed⟩ := parent.resume_merged
    (m.toLocal.finalize c m.isRoot).2.frame.gas (m.topResult c)
  refine (congrArg Frame.program hresumed).trans ?_
  rw [Frame.mergeChild_eq]
  dsimp only
  split <;> rfl

/-- Once prepared, a frame runs the same code over its course. -/
theorem Course.program_code (h : Course c m m') (hm : m.top.phase ≠ .created) :
    m'.top.phase ≠ .created ∧ m'.top.program.code = m.top.program.code := by
  -- by induction on the course: a child runs between two frames of its own, and leaves the code
  -- of its parent
  induction h with
  | refl => exact ⟨hm, rfl⟩
  | @own m m₁ m₂ hcourse hstep hbelow ih =>
    obtain ⟨hphase, hcode⟩ := ih hm
    have hstepped := step_cases hstep
    refine ⟨fun hnew => ?_, ?_⟩
    · -- only a step that puts a frame on the stack leaves one that is yet to be prepared
      have hhigher := (hstepped.isFresh hnew).2
      rw [hbelow] at hhigher
      omega
    · rw [← hcode]
      cases hstepped with
      | prepares hcreated => exact absurd hcreated hphase
      | enters _ =>
        unfold enter
        cases m₁.calledPrecompile c with
        | none => rfl
        | some p =>
          obtain ⟨gas, output, -, heq⟩ := m₁.top.answered_eq p
          dsimp only
          rw [Local.attempt_runPrecompile]
          dsimp only [toLocal]
          rw [heq]
          rfl
      | continues _ hturn | ends _ hturn _ => exact turn_code hturn
      -- the frame itself comes back to the same height, so it neither spawns nor pops
      | spawns _ _ => exact absurd (congrArg List.length hbelow) (Nat.succ_ne_self _)
      | pops _ hpop =>
        rw [hpop] at hbelow
        exact absurd (congrArg List.length hbelow).symm (Nat.succ_ne_self _)
  | @child m m₁ m₂ last m₃ hcourse hspawn hfresh hhigher hchild hpop hback ih ihchild =>
    obtain ⟨hphase, hcode⟩ := ih hm
    obtain ⟨child, k, s, t, -, hturn, rfl⟩ := (step_cases hspawn).exists_request hhigher
    obtain ⟨-, parent, hparent, hhanded⟩ := (hchild.popped hfresh hpop (by omega)).handedTo
    rw [hchild.below_eq] at hparent
    have waiting := (List.cons.inj hparent).1
    refine ⟨fun hnew => ?_, ?_⟩
    · have higher := ((step_cases hpop).isFresh hnew).2
      have := hchild.length
      omega
    · have resumed := last.handedTo_program c parent m₃.below
      rw [hhanded, resumed, ← waiting, ← hcode]
      exact turn_code hturn

variable [LawfulLedger L]

/-- Over the course of a frame every account matures. -/
theorem Steps.matures (h : Steps c m.below.length m x) (a : Address) :
    (Ledger.state m.ledger).Matures a (Ledger.state x.ledger) :=
  h.tracks (evolves_matures c a).tracks fun _ _ => trivial

/-- Where a frame runs code, its account is rooted, unless the code is that of another one. -/
theorem Course.rooted (hfork : .spuriousDragon ≤ c.fork) (h : Course c m x) (hfresh : m.IsFresh c)
    (hcode : x.top.program.code.bytes ≠ #[]) :
    (Ledger.state x.ledger).IsRooted x.top.address ∨ x.top.message.IsDetached := by
  have hempty : m.top.program.code.bytes = #[] := by
    obtain ⟨_, _, htop⟩ := hfresh
    rw [htop]
    -- the first step is the preparation, and the rest is a course from there
    rfl
  have hfirst : m.step c = .running (m.prepare c) := by
    rw [step, hfresh.phase]
  rcases h.steps.cases_head with rfl | ⟨m₁, hstep, -, hrest⟩
  · exact absurd hempty hcode
  · obtain rfl : m.prepare c = m₁ := Progress.running.inj (hfirst.symm.trans hstep)
    have hafter : Course c (m.prepare c) x := Steps.course hrest h.length
    have hprepared : (m.toLocal.attempt (Effect.prepare c)).2.frame.program =
        (m.prepare c).top.program := by
      unfold prepare
      dsimp only
      split <;> rfl
    rw [(hafter.program_code (prepare_phase c m)).2, ← hprepared] at hcode
    rw [show x.top.address = m.top.address from congrArg Message.recipient h.message, h.message]
    rcases m.toLocal.rooted_of_prepared hfork hempty hcode with hroot | hdetached
    · exact .inl (LedgerState.IsRooted.matures hroot (hafter.steps.matures _))
    · exact .inr hdetached

/-- Where code runs on behalf of an account, that is rooted, or it is the one of a first message
    that has the code of another account run. -/
theorem Visited.rooted (hfork : .spuriousDragon ≤ c.fork) (h : Visited c l message observer x)
    (hcode : x.top.program.code.bytes ≠ #[]) :
    (Ledger.state x.ledger).IsRooted x.top.address ∨
      message.IsDetached ∧ x.top.address = message.recipient := by
  -- by induction on the height: a frame may act on the account of its parent
  induction hheight : x.below.length using Nat.strong_induction_on generalizing x with
  | _ height ih =>
  obtain ⟨f, hf, hfresh, hcourse⟩ := h.exists_course
  rcases hcourse.rooted hfork hfresh hcode with hroot | hdetached
  · exact .inl hroot
  · rw [hcourse.message] at hdetached
    have haddress : x.top.address = f.top.address := congrArg Message.recipient hcourse.message
    rcases hf.first_or_asked hfresh.phase with rfl | ⟨w, child, k, s, t, hw, hspawn, hturn, rfl⟩
    · -- it is the first frame that has the code of another account run
      have hdetached : (message.resolve l).IsDetached := hdetached
      have hcall : message.isCreate = false :=
        (message.isCreate_resolve l).symm.trans hdetached.isCreate
      have same := message.resolve_of_call hcall l
      rw [same] at hdetached
      exact .inr ⟨hdetached, haddress.trans (congrArg Message.recipient same)⟩
    · have hchild : child.IsChildOf w.top.message := (turn_onward hturn).2
      have hdetached : child.IsDetached := hdetached
      have hparent : x.top.address = w.top.address := by
        rcases hchild.account with hcreate | hown | hparent
        · exact absurd (hcreate.symm.trans hdetached.isCreate) nofun
        · exact absurd hown.symm hdetached.codeAddress
        · exact haddress.trans hparent
      have hlower : w.below.length + 1 = x.below.length := hcourse.length.symm
      have hsince : Steps c w.below.length w x :=
        (hcourse.steps.weaken (Nat.le_succ _)).head hspawn (Nat.le_succ _)
      rw [hparent]
      rcases ih w.below.length (by omega) hw (hasCode_of_waits hturn) rfl with hroot | hfirst
      · exact .inl (hroot.matures (hsince.matures _))
      · exact .inr hfirst

/-- So is an account that pays for a child when that is put on the stack. -/
theorem Visited.payer_rooted (hfork : .spuriousDragon ≤ c.fork) (h : Visited c l message observer x)
    (hphase : x.top.phase = .created) (hpays : x.top.message.kind.transfersValue = true) :
    x = launch c l message observer ∨
      (Ledger.state x.ledger).IsRooted x.top.message.sender ∨
      message.IsDetached ∧ x.top.message.sender = message.recipient := by
  rcases h.first_or_asked hphase with hfirst | ⟨w, child, k, s, t, hw, hspawn, hturn, rfl⟩
  · exact .inl hfirst
  · have hchild : child.IsChildOf w.top.message := (turn_onward hturn).2
    have hsender : child.sender = w.top.address := hchild.payer hpays
    have hsince : Steps c w.below.length w ((w.landed s t).spawn c child k) :=
      .tail (.refl w) hspawn (Nat.le_succ _)
    show _ ∨ LedgerState.IsRooted _ child.sender ∨ _ ∧ child.sender = _
    rw [hsender]
    rcases hw.rooted hfork (hasCode_of_waits hturn) with hroot | hfirst
    · exact .inr (.inl (hroot.matures (hsince.matures _)))
    · exact .inr (.inr hfirst)

end Machine

end Evm
