import Evm.Proofs.Ledger.Twins
import Evm.Proofs.Machine.Lockstep

namespace Evm

/-!
# The two ledgers are interchangeable

A journaled ledger over a world and a copying ledger that owns the same world lead every series of
transactions to the same results, the same traces and the same answers.  The machine only writes
storage of an account that runs its own code or whose storage is rooted, so it never comes to a
creation where the two disagree on whether there is storage.

* `Twins.coupling` — twins are coupled ledgers.
* `Message.IsRoot` — messages that a transaction may start with.
* `ledgers_interchangeable` — the two ledgers under series of transactions.
-/

/-! ### Twins as coupled ledgers -/

/-- Twins over a world that setters have built, whose records tell the digests of all code, cannot
    be told apart by the machine. -/
def Twins.coupling {w : World} (hw : w.Reachable) (hcodes : w.RecordsCode) :
    EngineCoupling (JournaledLedger World) SnapshotLedger where
  twin := Twins w
  rooted := JournaledLedger.Rooted
  answers h := h.answers hw.recorded hcodes
  isOccupied h := h.isOccupied hw.nonzero
  setBalance h := h.setBalance
  setNonce h := h.setNonce
  setCode h := h.setCode
  setStorage h := h.setStorage
  reset h a nonce _ := h.reset a nonce
  destroyAccount h := h.destroyAccount
  accessAccount h := h.accessAccount
  accessSlot h := h.accessSlot
  snapshot h := h.snapshot
  commit _ h := h.commit
  rollback hb h := hb.rollback h
  rooted_history h ha := ha.history h
  rooted_commit h ha := 
    ha.kept (.commit ((JournaledLedger.ledger_commit _ _).symm.trans h))
  rooted_snapshot h := h
  rooted_reset l a nonce :=
    (JournaledLedger.rooted_putAccount (l := l.dropSlots a) rfl).kept
      (.modifyAccount _ a (f := ({ · with nonce })) fun _ => id)
  rooted_destroyAccount _ _ := JournaledLedger.rooted_putAccount rfl

/-! ### Transactions -/

/-- The messages that a transaction may start with, at any depth: calls, in which an account runs
    its own code, and creations.  They may be static. -/
inductive Message.IsRoot : Message → Prop where
  | call (sender recipient : Address) (value : Word) (input : Bytes) (gasLimit : Nat)
      (isStatic : Bool) (depth : Nat) :
      IsRoot { Message.call sender recipient value input gasLimit with isStatic, depth }
  | create (sender : Address) (value : Word) (initCode : Bytes) (gasLimit : Nat) (isStatic : Bool)
      (depth : Nat) : IsRoot { Message.create sender value initCode gasLimit with isStatic, depth }
  | create2 (sender : Address) (value : Word) (initCode : Bytes) (salt : Word) (gasLimit : Nat)
      (isStatic : Bool) (depth : Nat) :
      IsRoot { Message.create2 sender value initCode salt gasLimit with isStatic, depth }

/-- A root message is entitled under every coupling. -/
theorem Message.IsRoot.entitled {L₁ L₂ : Type} [Ledger L₁] [Ledger L₂] (C : EngineCoupling L₁ L₂)
    {m : Message} (h : m.IsRoot) (l : L₁) : C.Entitled l m := by
  cases h with
  | call => exact .inr (.inl rfl)
  | create => exact .inl rfl
  | create2 => exact .inl rfl

/-- **The two ledgers are interchangeable.**  Any series of transactions comes to the same results
    and the same traces, and after each of them the ledgers give the same answers. -/
theorem ledgers_interchangeable {w : World} (hw : w.Reachable) (hcodes : w.RecordsCode)
    {submissions : List Submission} (hroot : ∀ s ∈ submissions, s.message.IsRoot) :
    List.Forall₂ (fun x y => x.result = y.result ∧ x.trace = y.trace ∧
        Ledger.SameAnswers x.ledger y.ledger)
      (executeAll JournaledLedger.beginTransaction (JournaledLedger.ofSource w) submissions)
      (executeAll SnapshotLedger.beginTransaction (SnapshotLedger.ofWorld w) submissions) := by
  have halike := (Twins.coupling hw hcodes).executeAll_alike
    (fun h => Twins.beginTransaction h) (fun s hs => (hroot s hs).entitled _)
    (Twins.ofWorld hw.nonzero)
  refine halike.imp fun x y h => ⟨h.result, h.trace, ?_⟩
  exact Twins.answers h.ledger hw.recorded hcodes

/-- A contract that counts its calls is called twice, and then a contract is created. -/
theorem ledgers_interchangeable_on_counter :
    let w : World := .setCode {} 7 #[0x60, 0, 0x54, 0x60, 1, 0x01, 0x60, 0, 0x55]
    let submissions : List Submission :=
      [⟨{ precompiles := .none }, .call 1 7 0 #[] 100000, .off⟩,
        ⟨{ precompiles := .none }, .call 2 7 0 #[] 100000, .off⟩,
        ⟨{ precompiles := .none }, .create 1 0 #[] 100000, .off⟩]
    w.Reachable ∧ w.RecordsCode ∧ (∀ s ∈ submissions, s.message.IsRoot) ∧
      List.Forall₂ (fun x y => x.result = y.result ∧ x.trace = y.trace ∧
          Ledger.SameAnswers x.ledger y.ledger)
        (executeAll JournaledLedger.beginTransaction (JournaledLedger.ofSource w) submissions)
        (executeAll SnapshotLedger.beginTransaction (SnapshotLedger.ofWorld w) submissions) := by
  intro w submissions
  have hw : w.Reachable := .setCode 7 _ .empty
  have hcodes : w.RecordsCode := World.RecordsCode.setCode (fun _ _ h => by simp at h) 7 _
  have hroot (s : Submission) (hs : s ∈ submissions) : s.message.IsRoot := by
    simp only [submissions, List.mem_cons, List.not_mem_nil, or_false] at hs
    obtain rfl | rfl | rfl := hs
    · exact .call 1 7 0 #[] 100000 false 0
    · exact .call 2 7 0 #[] 100000 false 0
    · exact .create 1 0 #[] 100000 false 0
  exact ⟨hw, hcodes, hroot, ledgers_interchangeable hw hcodes hroot⟩

end Evm
