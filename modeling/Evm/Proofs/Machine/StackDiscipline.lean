import Evm.Proofs.Instruction.Arity
import Evm.Proofs.Machine.Delivery

namespace Evm

/-!
# Instructions leave the rest of the stack alone

An instruction works with the topmost words of the stack only, so many as it takes, and leaves so
many in their place as it gives.  If it asks for a child then the single word that it gives comes
with the result.

* `Frame.resume_trades` — the stack once the result of a child is taken in.
* `stack_discipline` — the stack after any instruction.
-/

/-- The words of an instruction that succeeds have been there. -/
theorem Flow.Trades.enough {σ : Stack} {d a : Nat} {f : Frame} {flow : Flow}
    (h : flow.Trades σ d a f) : d ≤ σ.size := by
  cases flow with
  | spawn message k => exact h.2.2.1.enough
  | next | jumped | halt => exact Stack.Trades.enough h

/-- A frame that has asked for a child gets the word that the instruction gives with the result. -/
theorem Frame.resume_trades {σ : Stack} {d : Nat} {f : Frame} {k : Continuation}
    (hσ : σ.size ≤ σ.limit) (hd : 0 < d) (traded : σ.Trades d 0 f.stack)
    (hk : f.continuation = some k) (reach : k.reach ≤ f.memory.size) (childGas : Meter)
    (result : ExecutionResult) :
    (f.resume childGas result).phase = .resuming ∧
      σ.Trades d 1 (f.resume childGas result).stack := by
  -- at least one word has been taken from a stack that was within its limit
  have room : f.stack.size < f.stack.limit := by
    rw [traded.size, traded.limit]
    have := traded.enough
    omega
  have taken := takesIn_resume hk room reach childGas result
  obtain ⟨g, -, resumed⟩ := taken.delivered
  obtain ⟨limit, items⟩ := taken.stack
  have pushed := traded.push (if k.isCreate then
    if result.isSuccess then result.createdAddress.elim 0 Address.toWord else 0
    else .ofBool result.isSuccess)
  refine ⟨congrArg Frame.phase resumed, pushed.enough, ?_, ?_, limit.trans pushed.limit⟩
  · exact (congrArg List.length items).trans pushed.size
  · exact (congrArg (List.drop 1) items).trans pushed.below

/-- An instruction that succeeds has found as many words as it takes, and has left as many in their
    place as it gives; all words below are as they were.  If it asks for a child it has yet to give
    its only word, which then comes with the result, whatever that is.  One that fails has taken
    some of its words, perhaps all or none, and has changed nothing else about the stack.  It fails
    if there are too few words for it, and it finds no room only on a full stack, if it gives more
    words than it takes. -/
theorem stack_discipline {L : Type} [Ledger L] (c : Context) (ancestors : List Frame)
    (i : Instruction) (s : Local L) (hσ : s.frame.stack.size ≤ s.frame.stack.limit) :
    let σ := s.frame.stack
    let e : Effect L Flow := Effect.ofInstruction c ancestors i
    (∀ flow t, e.run s = .ok flow t →
      match flow with
      | .spawn _ k =>
        i.added = 1 ∧ σ.Trades i.removed 0 t.frame.stack ∧
          ∀ f : Frame, f.stack = t.frame.stack → f.memory = t.frame.memory →
            f.continuation = some k → ∀ childGas result,
              (f.resume childGas result).phase = .resuming ∧
                σ.Trades i.removed i.added (f.resume childGas result).stack
      | _ => σ.Trades i.removed i.added t.frame.stack) ∧
    (∀ x t, e.run s = .error x t → σ.Falters i.removed i.added x t.frame.stack) ∧
    (σ.size < i.removed → ∃ x t, e.run s = .error x t) := by
  intro σ e
  have trades := Effect.Trades.ofInstruction hσ c ancestors i s (Nat.zero_le _) (Nat.zero_le _) rfl
    (Nat.zero_le _)
  cases hrun : e.run s with
  | ok flow t =>
    rw [hrun] at trades
    have traded : flow.Trades σ i.removed i.added t.frame := trades
    refine ⟨?_, fun _ _ h => (nomatch h), fun hfew => absurd traded.enough (Nat.not_le.2 hfew)⟩
    rintro _ _ ⟨⟩
    cases flow with
    | spawn message k =>
      -- the word is still to come
      obtain ⟨hd, single, dropped, reach⟩ := traded
      refine ⟨single, dropped, fun f hstack hmemory hk childGas result => ?_⟩
      rw [← hstack] at dropped
      rw [← hmemory] at reach
      rw [single]
      exact f.resume_trades hσ hd dropped hk reach childGas result
    | next | jumped | halt => exact traded
  | error x t =>
    rw [hrun] at trades
    refine ⟨fun _ _ h => (nomatch h), ?_, fun _ => ⟨x, t, rfl⟩⟩
    rintro _ _ ⟨⟩
    exact trades

/-- A call from a full stack of seven words takes all of them, and the result comes as the only
    word. -/
theorem stack_discipline_on_full_stack :
    let c : Context := { precompiles := .none }
    let s : Local SnapshotLedger :=
      { frame := { Frame.ofMessage (.call 1 7 0 #[] 100000) 0 7 with
          stack := { items := [1000, 8, 0, 0, 0, 0, 32], limit := 7 } }
        ledger := SnapshotLedger.ofWorld {} }
    let child : Message := { Message.call 7 8 0 #[] 1000 with depth := 1 }
    let k : Continuation := .call 0 32
    s.frame.stack.size = s.frame.stack.limit ∧
      ∃ t, (Effect.ofInstruction c [] .call).run s = .ok (.spawn child k) t ∧
        t.frame.stack.size = 0 ∧ ∀ childGas result,
          ({ t.frame with continuation := some k }.resume childGas result).stack.size = 1 := by
  intro c s child k
  obtain ⟨ok, -⟩ := stack_discipline c [] .call s (by decide)
  obtain ⟨t, hrun⟩ : ∃ t, (Effect.ofInstruction c [] .call).run s = .ok (.spawn child k) t :=
    Effect.exists_run_of_run' (by decide +kernel)
  obtain ⟨-, dropped, resumes⟩ := ok _ t hrun
  refine ⟨rfl, t, hrun, dropped.size, fun childGas result => ?_⟩
  let waiting : Frame := { t.frame with continuation := some k }
  exact (resumes waiting rfl rfl rfl childGas result).2.size

end Evm
