import Evm.Proofs.Instruction.Causes

namespace Evm

/-!
# How many words an instruction takes and gives

Each instruction takes so many words from the stack and puts so many in their place.  One that fails
has taken some of its words and has put nothing there, and it finds the stack full only where it
gives more words than it takes.  An instruction that asks for a child has taken its words, and the
result of the child is still to come.

* `Instruction.removed`, `Instruction.added` — the words that an instruction takes and gives.
* `Stack.Falters` — the stack after an instruction that fails.
* `Effect.SparesStack` — an effect that has nothing to do with the stack.
* `Effect.Trades` — the rest of an instruction that has taken some words, and how that follows its
  structure.
* `Effect.Trades.ofInstruction` — all instructions.
-/

/-! ### Words taken and given -/

namespace Instruction

/-- How many words the instruction takes from the stack.  To copy or exchange words counts as taking
    all words down to the lowest one that it looks at. -/
def removed : Instruction → Nat
  | isZero | not | balance | callDataLoad | extCodeSize | extCodeHash | blockHash | pop | mload
  | sload | jump | selfDestruct => 1
  | add | mul | sub | div | sdiv | mod | smod | exp | signExtend | lt | gt | slt | sgt | eq | and
  | or | xor | byte | shl | shr | sar | keccak256 | mstore | mstore8 | sstore | jumpi | ret
  | revert => 2
  | addMod | mulMod | callDataCopy | codeCopy | returnDataCopy | create => 3
  | extCodeCopy | create2 => 4
  | delegateCall | staticCall => 6
  | call | callCode => 7
  | dup n => n
  | swap n => n + 1
  | log n => n + 2
  | _ => 0

/-- How many words it puts in their place. -/
def added : Instruction → Nat
  | stop | callDataCopy | codeCopy | extCodeCopy | returnDataCopy | pop | mstore | mstore8 | sstore
  | jump | jumpi | jumpDest | log _ | ret | revert | invalid | selfDestruct => 0
  | dup n | swap n => n + 1
  | _ => 1

end Instruction

/-- The stack after an instruction that takes `d` words and gives `a`, and fails: some of the words
    are gone. -/
structure Stack.Falters (σ : Stack) (d a : Nat) (e : VmError) (s : Stack) : Prop where
  taken : ∃ k, k ≤ d ∧ s = σ.dropped k
  /-- There is no room only on a full stack, and if more words are to come than to go. -/
  full : e = .stackOverflow → σ.size = σ.limit ∧ d < a

namespace Effect

variable {L : Type} {α β : Type}

/-! ### Effects beside the stack -/

/-- The stack is left alone, no memory is taken away, and no failure is one for want of room. -/
@[reducible] def Conduct.besideStack : Conduct L where
  goes s t := t.frame.stack = s.frame.stack ∧ s.frame.memory.size ≤ t.frame.memory.size
  fails x s t := t.frame.stack = s.frame.stack ∧ x ≠ .stackOverflow
  refl _ := ⟨rfl, Nat.le_refl _⟩
  trans h k := ⟨k.1.trans h.1, Nat.le_trans h.2 k.2⟩
  late h k := ⟨k.1.trans h.1, k.2⟩

/-- The effect leaves the stack alone, takes no memory away, and does not fail for want of room. -/
abbrev SparesStack (e : Effect L α) : Prop := Follows .besideStack e

namespace SparesStack

/-- A change of other parts of the frame. -/
theorem modifyFrame {g : Frame → Frame} (hg : ∀ f, (g f).stack = f.stack ∧ (g f).memory = f.memory) :
    SparesStack (modifyFrame g : Effect L Unit) :=
  fun s => ⟨(hg s.frame).1, Nat.le_of_eq (congrArg Memory.size (hg s.frame).2).symm⟩

/-- The ledger is no part of the frame. -/
theorem onLedger (f : L → α × L) : SparesStack (onLedger f) := fun _ => ⟨rfl, Nat.le_refl _⟩

/-- Nor is what is written to it. -/
theorem modifyLedger (f : L → L) : SparesStack (modifyLedger f) := fun _ => ⟨rfl, Nat.le_refl _⟩

/-- A ledger that refuses does not do so for want of room on the stack. -/
theorem tryLedger (step : LedgerStep L α) {cause : StateError → VmError}
    (hcause : ∀ e, cause e ≠ .stackOverflow) : SparesStack (tryLedger step cause) := by
  intro s
  rw [run_tryLedger]
  cases step s.ledger with
  | ok a ledger => exact ⟨rfl, Nat.le_refl _⟩
  | error e ledger => exact ⟨rfl, hcause e⟩

/-- Gas is another part of the frame. -/
theorem charge (amount : Nat) : SparesStack (charge amount : Effect L Unit) := by
  intro s
  rw [run_charge]
  cases hgas : s.frame.gas.consume amount with
  | ok gas => exact ⟨rfl, Nat.le_refl _⟩
  | error e =>
    rw [(Meter.consume_eq_error_iff.1 hgas).1]
    exact ⟨rfl, nofun⟩

/-- Memory that grows loses nothing. -/
theorem extendMemory {offset len : Nat} (hrange : Memory.InRange offset len) :
    SparesStack (extendMemory offset len : Effect L Unit) := by
  intro s
  rw [run_extendMemory]
  cases hm : s.frame.memory.extend offset len s.frame.gas with
  | ok r => exact ⟨rfl, Memory.size_le_of_extend hrange hm⟩
  | error e =>
    rw [Memory.error_of_extend hm]
    exact ⟨rfl, nofun⟩

/-- A write makes no memory smaller. -/
theorem writeMemory (offset : Nat) (b : Bytes) :
    SparesStack (writeMemory offset b : Effect L Unit) := by
  intro s
  rw [Effect.writeMemory, run_frame_bind]
  cases hwrite : s.frame.memory.write offset b with
  | ok memory => exact ⟨rfl, Nat.le_of_eq (Memory.size_of_write hwrite).symm⟩
  | error e =>
    rw [Memory.error_of_write hwrite]
    exact ⟨rfl, by rintro ⟨⟩⟩

/-- All parts of instructions but those on the stack are like that. -/
theorem letsPay [Ledger L] : (Conduct.besideStack : Conduct L).LetsPay :=
  .of_writeMemory (fun _ hroom _ => ⟨rfl, hroom⟩) charge extendMemory writeMemory
    (fun _ => onLedger _) fun _ => onLedger _

end SparesStack

/-! ### The rest of an instruction -/

/-- The rest of an instruction that is to take `d` words and to give `a`.  It has taken `k` of them
    from the stack `σ`, and so much memory is there.  If it succeeds it has the property. -/
def Trades (σ : Stack) (d a k reach : Nat) (e : Effect L α) (Q : α → Local L → Prop) : Prop :=
  ∀ s : Local L, k ≤ d → k ≤ σ.size → s.frame.stack = σ.dropped k → reach ≤ s.frame.memory.size →
    match e.run s with
    | .ok b t => Q b t
    | .error x t => σ.Falters d a x t.frame.stack

namespace Trades

variable {σ : Stack} {d a k reach : Nat} {Q : α → Local L → Prop}

/-- At the end it is said what has come of the stack. -/
theorem pure {b : α}
    (h : ∀ s : Local L, k ≤ σ.size → s.frame.stack = σ.dropped k → reach ≤ s.frame.memory.size →
      Q b s) :
    Trades σ d a k reach (Pure.pure b : Effect L α) Q :=
  fun s _ => h s

/-- Any failure but an overflow may come after operands are taken. -/
theorem throw {e : VmError} (he : e ≠ .stackOverflow) :
    Trades σ d a k reach (MonadExcept.throw e) Q :=
  fun _ hk _ hs _ => ⟨⟨k, hk, hs⟩, fun hfull => absurd hfull he⟩

/-- What leaves the stack alone may come before. -/
theorem bind {e : Effect L β} {f : β → Effect L α} (he : SparesStack e)
    (hf : ∀ b, Trades σ d a k reach (f b) Q) : Trades σ d a k reach (e >>= f) Q := by
  intro s hk hsize hs hreach
  have first := he s
  rw [run_bind]
  cases hrun : e.run s with
  | ok b t =>
    rw [hrun] at first
    exact hf b t hk hsize (first.1.trans hs) (Nat.le_trans hreach first.2)
  | error x t =>
    rw [hrun] at first
    exact ⟨⟨k, hk, first.1.trans hs⟩, fun hfull => absurd hfull first.2⟩

/-- Reading the frame trades nothing. -/
theorem frame_bind {f : Frame → Effect L α} (hf : ∀ g, Trades σ d a k reach (f g) Q) :
    Trades σ d a k reach (frame >>= f) Q :=
  fun s => hf s.frame s

/-- Reading the ledger trades nothing. -/
theorem ledger_bind {f : L → Effect L α} (hf : ∀ l, Trades σ d a k reach (f l) Q) :
    Trades σ d a k reach (ledger >>= f) Q :=
  fun s => hf s.ledger s

/-- Both branches trade the same. -/
theorem ite {p : Prop} [Decidable p] {e e' : Effect L α} (he : p → Trades σ d a k reach e Q)
    (he' : ¬ p → Trades σ d a k reach e' Q) : Trades σ d a k reach (if p then e else e') Q := by
  split
  · rename_i h
    exact he h
  · rename_i h
    exact he' h

/-- An effect that only runs in some cases, and what follows it. -/
theorem ite_bind {p : Prop} [Decidable p] {e : Effect L Unit} {f : Unit → Effect L α}
    (he : SparesStack e) (hf : ∀ u, Trades σ d a k reach (f u) Q) :
    Trades σ d a k reach (if p then e >>= f else f ()) Q :=
  ite (fun _ => bind he hf) fun _ => hf ()

/-- Words that are taken on the way. -/
theorem onStack_bind {n : Nat} {g : Stack → Except VmError (β × Stack)} {f : β → Effect L α}
    (hg : Stack.Drops n g) (hd : k + n ≤ d) (hf : ∀ b, Trades σ d a (k + n) reach (f b) Q) :
    Trades σ d a k reach (onStack g >>= f) Q := by
  intro s hk hsize hs hreach
  rw [run_bind, run_onStack]
  cases hrun : g s.frame.stack with
  | ok r =>
    obtain ⟨b, rest⟩ := r
    obtain ⟨henough, hrest⟩ := hg.of_ok hrun
    rw [hs, Stack.size_dropped] at henough
    rw [hs, Stack.dropped_dropped] at hrest
    exact hf b _ hd (by omega) hrest hreach
  | error x =>
    -- nothing is taken for want of words, and what was taken before stays so
    rw [hg.of_error hrun]
    exact ⟨⟨k, hk, hs⟩, nofun⟩

/-- An address is one word. -/
theorem popAddress_bind {f : Address → Effect L α} (hd : k + 1 ≤ d)
    (hf : ∀ b, Trades σ d a (k + 1) reach (f b) Q) :
    Trades σ d a k reach (popAddress >>= f) Q := by
  rw [popAddress, bind_assoc]
  exact onStack_bind Stack.drops_pop hd fun w => hf w.toAddress

/-- Each topic is one word. -/
theorem popTopics_bind (n : Nat) {f : List Word → Effect L α} (hd : k + n ≤ d)
    (hf : ∀ topics, Trades σ d a (k + n) reach (f topics) Q) :
    Trades σ d a k reach (popTopics n >>= f) Q := by
  induction n generalizing k f with
  | zero => exact hf []
  | succ n ih =>
    -- the first topic is one of the words that are gone when the others are taken
    rw [popTopics, bind_assoc]
    refine onStack_bind Stack.drops_pop (by omega) fun topic => ?_
    rw [bind_assoc]
    refine ih (by omega) fun topics => ?_
    rw [Nat.add_assoc, Nat.add_comm 1 n]
    exact hf (topic :: topics)

/-- What follows may rely on the memory that has been asked for. -/
theorem extendMemory_bind {offset len : Nat} {f : Unit → Effect L α}
    (hrange : Memory.InRange offset len)
    (hf : ∀ u, Trades σ d a k (Continuation.call offset len).reach (f u) Q) :
    Trades σ d a k 0 (Effect.extendMemory offset len >>= f) Q := by
  intro s hk hsize hs _
  rw [run_bind, run_extendMemory]
  cases hm : s.frame.memory.extend offset len s.frame.gas with
  | ok r => exact hf () _ hk hsize hs (Memory.reach_of_extend hrange hm)
  | error x =>
    rw [Memory.error_of_extend hm]
    exact ⟨⟨k, hk, hs⟩, nofun⟩

/-- What follows when the words have been traded already. -/
theorem seq {e : Effect L β} {f : β → Effect L α} {P : β → Local L → Prop}
    (he : Trades σ d a k reach e P)
    (hf : ∀ b t, P b t → match (f b).run t with
      | .ok c u => Q c u
      | .error x u => σ.Falters d a x u.frame.stack) :
    Trades σ d a k reach (e >>= f) Q := by
  intro s hk hsize hs hreach
  have first := he s hk hsize hs hreach
  rw [run_bind]
  cases hrun : e.run s with
  | ok b t =>
    rw [hrun] at first
    exact hf b t first
  | error x t =>
    rw [hrun] at first
    exact first

/-! ### Parts of instructions -/

/-- The property of an instruction that has traded its words and comes to its end. -/
def Traded (σ : Stack) (d a : Nat) (_ : Unit) (s : Local L) : Prop := σ.Trades d a s.frame.stack

/-- An instruction that has taken its words and gives none. -/
theorem spares {e : Effect L Unit} (he : SparesStack e) :
    Trades σ d 0 d reach e (Traded σ d 0) := by
  intro s _ hsize hs _
  have spared := he s
  cases hrun : e.run s with
  | ok b t =>
    rw [hrun] at spared
    show σ.Trades d 0 t.frame.stack
    rw [spared.1, hs]
    exact .dropped hsize
  | error x t =>
    rw [hrun] at spared
    exact ⟨⟨d, Nat.le_refl d, spared.1.trans hs⟩, fun hfull => absurd hfull spared.2⟩

section

variable [Ledger L]

/-- A copy takes three words, after those that were taken before. -/
theorem copyToMemory (source : Bytes) :
    Trades σ (k + 3) 0 k reach (copyToMemory source : Effect L Unit) (Traded σ (k + 3) 0) :=
  onStack_bind Stack.drops_pop3 (Nat.le_refl _) fun _ =>
    spares (.copyRange SparesStack.letsPay source _ _ _)

/-- A copy of return data takes three words. -/
theorem returnDataCopy :
    Trades σ 3 0 0 reach (returnDataCopy : Effect L Unit) (Traded σ 3 0) :=
  onStack_bind Stack.drops_pop3 (Nat.le_refl _) fun _ => spares (.frame_bind fun f =>
    .ite (.copyRange SparesStack.letsPay f.returnData _ _ _) (.throw fun _ => ⟨rfl, nofun⟩))

/-- An accessed address is one word. -/
theorem popAccessed_bind (c : Context) {f : Address → Effect L α} (hd : k + 1 ≤ d)
    (hf : ∀ b, Trades σ d a (k + 1) reach (f b) Q) :
    Trades σ d a k reach (popAccessed c >>= f) Q := by
  rw [popAccessed, bind_assoc]
  refine popAddress_bind hd fun b => ?_
  rw [bind_assoc]
  exact bind (.accessAccount SparesStack.letsPay _ _ _) fun _ => hf b

/-- A write of storage takes two words. -/
theorem sstore (c : Context) : Trades σ 2 0 0 reach (sstore c : Effect L Unit) (Traded σ 2 0) := by
  have beside := SparesStack.letsPay (L := L)
  refine bind (.requireWritable beside) fun _ => bind (.requireSentry beside c) fun _ => ?_
  refine onStack_bind Stack.drops_pop2 (Nat.le_refl _) fun (key, value) => spares ?_
  refine .frame_bind fun _ => .bind (.accessSlot beside _ _ _) fun _ => .ledger_bind fun _ => ?_
  refine .bind (SparesStack.charge _) fun _ => .bind (SparesStack.modifyFrame fun _ => ?_) fun _ => ?_
  · exact ⟨rfl, rfl⟩
  · exact SparesStack.modifyLedger _

/-- A destruction takes one word. -/
theorem selfDestruct (c : Context) (ancestors : List Frame) :
    Trades σ 1 0 0 reach (selfDestruct c ancestors : Effect L Unit) (Traded σ 1 0) := by
  have beside := SparesStack.letsPay (L := L)
  have refunded : SparesStack (refundDestruction c.fork ancestors : Effect L Unit) :=
    .refundDestruction (SparesStack.modifyFrame fun _ => ⟨rfl, rfl⟩) c.fork ancestors
  refine bind (.requireWritable beside) fun _ => popAddress_bind (Nat.le_refl _) fun _ => spares ?_
  refine .frame_bind fun _ => .bind (.accessAccount beside _ _ _) fun _ => .ledger_bind fun _ => ?_
  refine .ite_bind (SparesStack.charge _) fun _ => .bind refunded fun _ => ?_
  refine .bind (SparesStack.modifyFrame fun f => ?_) fun _ => ?_
  · unfold Frame.registerSelfDestruct
    split <;> exact ⟨rfl, rfl⟩
  · exact .ite_bind (SparesStack.tryLedger _ nofun) fun _ => SparesStack.modifyLedger _

end

/-- An output takes two words. -/
theorem setOutput : Trades σ 2 0 0 reach (setOutput : Effect L Unit) (Traded σ 2 0) :=
  onStack_bind Stack.drops_pop2 (Nat.le_refl _) fun (offset, size) =>
    spares (.bind (SparesStack.extendMemory (Memory.inRange_operands offset size)) fun _ =>
      .bind (.readMemory _ _) fun _ => SparesStack.modifyFrame fun _ => ⟨rfl, rfl⟩)

/-- Storing a word takes two words. -/
theorem mstore : Trades σ 2 0 0 reach (mstore : Effect L Unit) (Traded σ 2 0) :=
  onStack_bind Stack.drops_pop2 (Nat.le_refl _) fun (offset, _) => spares (.bind
    (SparesStack.extendMemory (Memory.inRange_operand offset (by decide))) fun _ =>
      SparesStack.writeMemory _ _)

/-- Storing a byte takes two words. -/
theorem mstore8 : Trades σ 2 0 0 reach (mstore8 : Effect L Unit) (Traded σ 2 0) :=
  onStack_bind Stack.drops_pop2 (Nat.le_refl _) fun (offset, _) => spares (.bind
    (SparesStack.extendMemory (Memory.inRange_operand offset (by decide))) fun _ =>
      SparesStack.writeMemory _ _)

/-- The topics of a record are taken one by one. -/
theorem log (n : Nat) : Trades σ (n + 2) 0 0 reach (log n : Effect L Unit) (Traded σ (n + 2) 0) := by
  -- in the order in which they are taken
  rw [show n + 2 = 0 + 2 + n by omega]
  refine bind (.requireNonStatic fun _ => ⟨rfl, nofun⟩) fun _ => ?_
  refine onStack_bind Stack.drops_pop2 (by omega) fun (offset, size) => ?_
  refine popTopics_bind n (Nat.le_refl _) fun topics => spares ?_
  refine .bind (SparesStack.extendMemory (Memory.inRange_operands offset size)) fun _ => ?_
  exact .bind (SparesStack.charge _) fun _ => .bind (.readMemory _ _) fun _ =>
    SparesStack.modifyFrame fun _ => ⟨rfl, rfl⟩

section

variable (hσ : σ.size ≤ σ.limit)

include hσ

/-- One that has taken its words and gives one: there is room for it, unless it has taken none. -/
theorem push (w : Word) : Trades σ d 1 d reach (Effect.push w : Effect L Unit) (Traded σ d 1) := by
  intro s _ hsize hs _
  rw [Effect.push, run_updateStack, Stack.push, hs, Stack.size_dropped]
  by_cases hroom : σ.size - d < (σ.dropped d).limit
  · rw [if_pos hroom]
    exact (Stack.Trades.dropped hsize).push w
  · rw [if_neg hroom]
    -- a stack that is full after so many words were taken has not lost any
    have full : σ.limit ≤ σ.size - d := Nat.not_lt.1 hroom
    exact ⟨⟨d, Nat.le_refl d, hs⟩, fun _ => by omega⟩

/-- One word is taken and one is given. -/
theorem unary (f : Word → Word) :
    Trades σ 1 1 0 reach (unary f : Effect L Unit) (Traded σ 1 1) :=
  onStack_bind Stack.drops_pop (Nat.le_refl _) fun _ => push hσ _

/-- Two words are taken and one is given. -/
theorem binary (f : Word → Word → Word) :
    Trades σ 2 1 0 reach (binary f : Effect L Unit) (Traded σ 2 1) :=
  onStack_bind Stack.drops_pop2 (Nat.le_refl _) fun _ => push hσ _

/-- Three words are taken and one is given. -/
theorem ternary (f : Word → Word → Word → Word) :
    Trades σ 3 1 0 reach (ternary f : Effect L Unit) (Traded σ 3 1) :=
  onStack_bind Stack.drops_pop3 (Nat.le_refl _) fun _ => push hσ _

/-- A power takes two words and gives one. -/
theorem exp (c : Context) : Trades σ 2 1 0 reach (exp c : Effect L Unit) (Traded σ 2 1) :=
  onStack_bind Stack.drops_pop2 (Nat.le_refl _) fun _ => bind (SparesStack.charge _) fun _ => push hσ _

/-- A hash takes two words and gives one. -/
theorem keccak256 : Trades σ 2 1 0 reach (keccak256 : Effect L Unit) (Traded σ 2 1) :=
  onStack_bind Stack.drops_pop2 (Nat.le_refl _) fun (offset, size) =>
    bind (SparesStack.extendMemory (Memory.inRange_operands offset size)) fun _ =>
      bind (SparesStack.charge _) fun _ => bind (.readMemory _ _) fun b => push hσ (Evm.keccak256 b)

/-- A load takes one word and gives one. -/
theorem mload : Trades σ 1 1 0 reach (mload : Effect L Unit) (Traded σ 1 1) :=
  onStack_bind Stack.drops_pop (Nat.le_refl _) fun offset =>
    bind (SparesStack.extendMemory (Memory.inRange_operand offset (by decide))) fun _ =>
      frame_bind fun _ => push hσ _

/-- A copy leaves all words where they are, and puts one on top of them. -/
theorem dup (n : Nat) :
    Trades σ n (n + 1) 0 reach (updateStack (·.dup n) : Effect L Unit) (Traded σ n (n + 1)) := by
  intro s _ _ hs _
  rw [run_updateStack, hs, Stack.dropped_zero]
  -- too few operands for the duplicate, or too little room for the result
  obtain hdup | ⟨w, enough, hdup⟩ := σ.dup_cases n
  · rw [hdup]
    exact ⟨⟨0, Nat.zero_le _, hs⟩, nofun⟩
  · rw [hdup, Stack.push]
    by_cases hroom : σ.size < σ.limit
    · rw [if_pos hroom]
      exact ⟨enough, by show σ.size + 1 = _; omega, rfl, rfl⟩
    · rw [if_neg hroom]
      exact ⟨⟨0, Nat.zero_le _, hs⟩, fun _ => ⟨by omega, Nat.lt_succ_self n⟩⟩

omit hσ in
/-- An exchange leaves all words below the lower one where they are. -/
theorem swap (n : Nat) :
    Trades σ (n + 1) (n + 1) 0 reach (updateStack (·.swap n) : Effect L Unit)
      (Traded σ (n + 1) (n + 1)) := by
  intro s _ _ hs _
  rw [run_updateStack, hs, Stack.dropped_zero]
  cases hswap : σ.swap n with
  | error e =>
    rw [Stack.error_of_swap hswap]
    exact ⟨⟨0, Nat.zero_le _, hs⟩, nofun⟩
  | ok t => exact Stack.trades_of_swap hswap

end

end Trades

end Effect

/-! ### Where control goes -/

/-- The frame after an instruction that has gone well.  One that asks for a child has taken its
    words and waits for a single one.  There is room for that, and for the output of the child. -/
def Flow.Trades (σ : Stack) (d a : Nat) (f : Frame) : Flow → Prop
  | .spawn _ k => 0 < d ∧ a = 1 ∧ σ.Trades d 0 f.stack ∧ k.reach ≤ f.memory.size
  | _ => σ.Trades d a f.stack

namespace Effect.Trades

variable {L : Type} {σ : Stack} {d a k reach : Nat}

/-- The property of an instruction that has come to its end. -/
def Ended (σ : Stack) (d a : Nat) (flow : Flow) (s : Local L) : Prop := flow.Trades σ d a s.frame

/-- A part of an instruction and where control goes after it. -/
theorem next {e : Effect L Unit} (he : Trades σ d a k reach e (Traded σ d a)) {flow : Flow}
    (h : ∀ f : Frame, σ.Trades d a f.stack → flow.Trades σ d a f) :
    Trades σ d a k reach (do e; return flow) (Ended σ d a) :=
  seq he fun _ t ht => h t.frame ht

/-- There is nothing more to do. -/
theorem done {flow : Flow} (h : ∀ f : Frame, σ.Trades d 0 f.stack → flow.Trades σ d 0 f) :
    Trades σ d 0 d reach (Pure.pure flow : Effect L Flow) (Ended σ d 0) :=
  pure fun s hsize hs _ => h s.frame (hs ▸ .dropped hsize)

/-- Once the target is taken a jump trades nothing more. -/
theorem jumpTo (target : Word) :
    Trades σ d 0 d reach (jumpTo target : Effect L Flow) (Ended σ d 0) := by
  refine frame_bind fun f => ?_
  cases hjump : f.program.jump (min target.toNat Counter.limit) with
  | ok program =>
    exact bind (SparesStack.modifyFrame fun _ => ⟨rfl, rfl⟩) fun _ => done fun _ h => h
  | error e => exact throw (by rw [Program.error_of_jump hjump]; nofun)

/-- A conditional jump takes two words. -/
theorem jumpIf : Trades σ 2 0 0 reach (jumpIf : Effect L Flow) (Ended σ 2 0) := by
  refine onStack_bind Stack.drops_pop2 (Nat.le_refl _) fun (target, condition) => ?_
  exact ite (fun _ => done fun _ h => h) fun _ => jumpTo target

/-- An output takes two words, also where it ends the frame. -/
theorem revert : Trades σ 2 0 0 reach (revert : Effect L Flow) (Ended σ 2 0) :=
  seq setOutput fun _ _ ht => ⟨⟨2, Nat.le_refl _, ht.eq_dropped⟩, nofun⟩

section

variable (hσ : σ.size ≤ σ.limit)

include hσ

/-- One word is given where a child is not asked for. -/
theorem skipSpawn (reserved : Nat) :
    Trades σ d 1 d reach (skipSpawn reserved : Effect L Flow) (Ended σ d 1) :=
  bind (SparesStack.modifyFrame fun _ => ⟨rfl, rfl⟩) fun _ => next (push hσ 0) fun _ h => h

variable [Ledger L]

/-- A child is asked for once all words are taken. -/
theorem canSpawn_bind (c : Context) {value : Word} {e : Effect L Flow} {reserved : Nat}
    (he : Trades σ d 1 d reach e (Ended σ d 1)) :
    Trades σ d 1 d reach (canSpawn c value >>= fun b => if b then e else Effect.skipSpawn reserved)
      (Ended σ d 1) :=
  bind (.canSpawn c value) fun _ => ite (fun _ => he) fun _ => skipSpawn hσ reserved

/-- A call has taken its words before it does anything else, and has paid for the memory of the
    output. -/
theorem call (c : Context) (form : CallForm) :
    Trades σ (if form.takesValue then 7 else 6) 1 0 0 (call c form : Effect L Flow)
      (Ended σ (if form.takesValue then 7 else 6) 1) := by
  have beside := SparesStack.letsPay (L := L)
  refine onStack_bind Stack.drops_pop2 (by split <;> decide) fun (requested, target) => ?_
  dsimp only
  -- with the value there is one word more to take
  split
  case' isTrue hvalue => refine onStack_bind Stack.drops_pop (by decide) fun value => ?_
  case' isFalse hvalue => refine bind (.pure 0) fun value => ?_
  all_goals
    refine onStack_bind Stack.drops_pop4 (by decide) fun (inOffset, inLen, outOffset, outLen) => ?_
    refine ite_bind (.requireWritable beside) fun _ => bind (.accessAccount beside _ _ _) fun _ => ?_
    refine bind (SparesStack.extendMemory (Memory.inRange_operands inOffset inLen)) fun _ => ?_
    refine extendMemory_bind (Memory.inRange_operands outOffset outLen) fun _ => ?_
    refine ite_bind (SparesStack.charge _) fun _ => ledger_bind fun _ => ?_
    refine ite_bind (SparesStack.charge _) fun _ => ?_
    refine bind (.reserveCallGas beside c requested value) fun gasLimit => ?_
    refine canSpawn_bind hσ c (bind (.readMemory _ _) fun _ => frame_bind fun _ => pure ?_)
    exact fun s hsize hs hreach => ⟨by decide, rfl, hs ▸ .dropped hsize, hreach⟩

/-- A creation may take one word more than its first three. -/
theorem create (c : Context) (salted : Bool) :
    Trades σ (if salted then 4 else 3) 1 0 0 (create c salted : Effect L Flow)
      (Ended σ (if salted then 4 else 3) 1) := by
  have beside := SparesStack.letsPay (L := L)
  refine bind (.requireWritable beside) fun _ => ?_
  refine onStack_bind Stack.drops_pop3 (by split <;> decide) fun (value, offset, size) => ?_
  dsimp only
  -- the salted form has one more operand and one more charge; the rest is common
  split
  case' isTrue hsalted =>
    rw [map_eq_pure_bind, bind_assoc]
    refine onStack_bind Stack.drops_pop (by decide) fun salt => ?_
  all_goals
    refine bind (.pure _) fun kind => ?_
    refine bind (SparesStack.extendMemory (Memory.inRange_operands offset size)) fun _ => ?_
    refine bind (.requireInitCodeSize beside c _) fun _ => bind (SparesStack.charge _) fun _ => ?_
  case' isTrue hsalted => refine bind (SparesStack.charge _) fun _ => ?_
  all_goals
    refine bind (.readMemory _ _) fun _ => frame_bind fun _ => ledger_bind fun _ => ?_
    refine frame_bind fun _ => bind (SparesStack.charge _) fun _ => ?_
    refine canSpawn_bind hσ c (frame_bind fun _ => pure ?_)
    exact fun s hsize hs hreach => ⟨by decide, rfl, hs ▸ .dropped hsize, hreach⟩

/-- Every instruction takes and gives as many words as it should. -/
theorem ofInstruction (c : Context) (ancestors : List Frame) (i : Instruction) :
    Trades σ i.removed i.added 0 0 (ofInstruction c ancestors i : Effect L Flow)
      (Ended σ i.removed i.added) := by
  -- stack instructions speak of the stack as it was, the others of what they take off and put on
  -- it
  cases i with
  | stop | jumpDest => exact done fun _ h => h
  | invalid => exact throw nofun
  | add | mul | sub | div | sdiv | mod | smod | signExtend | lt | gt | slt | sgt | eq | and | or
  | xor | byte | shl | shr | sar => exact next (binary hσ _) fun _ h => h
  | addMod | mulMod => exact next (ternary hσ _) fun _ h => h
  | isZero | not => exact next (unary hσ _) fun _ h => h
  | exp => exact next (exp hσ c) fun _ h => h
  | keccak256 => exact next (keccak256 hσ) fun _ h => h
  | origin | gasPrice | coinbase | timestamp | number | prevRandao | gasLimit | chainId | baseFee =>
    exact next (push hσ _) fun _ h => h
  | address | caller | callValue | callDataSize | codeSize | returnDataSize | pc | msize | gas
  | push n => exact next (frame_bind fun _ => push hσ _) fun _ h => h
  | callDataLoad =>
    exact next (onStack_bind Stack.drops_pop (Nat.le_refl _) fun _ => frame_bind fun _ =>
      push hσ _) fun _ h => h
  | callDataCopy | codeCopy => exact next (frame_bind fun _ => copyToMemory _) fun _ h => h
  | balance | extCodeSize | extCodeHash =>
    exact next (popAccessed_bind c (Nat.le_refl _) fun _ => ledger_bind fun _ => push hσ _)
      fun _ h => h
  | extCodeCopy =>
    exact next (popAccessed_bind c (by decide) fun _ => ledger_bind fun _ => copyToMemory _)
      fun _ h => h
  | returnDataCopy => exact next returnDataCopy fun _ h => h
  | blockHash =>
    exact next (onStack_bind Stack.drops_pop (Nat.le_refl _) fun _ => push hσ _) fun _ h => h
  | selfBalance =>
    exact next (ledger_bind fun _ => frame_bind fun _ => push hσ _) fun _ h => h
  | pop =>
    exact next (onStack_bind Stack.drops_pop (Nat.le_refl _) fun _ => spares (.pure ())) fun _ h => h
  | mload => exact next (mload hσ) fun _ h => h
  | mstore => exact next mstore fun _ h => h
  | mstore8 => exact next mstore8 fun _ h => h
  | sload =>
    exact next (onStack_bind Stack.drops_pop (Nat.le_refl _) fun _ => frame_bind fun _ =>
      bind (.accessSlot SparesStack.letsPay _ _ _) fun _ => ledger_bind fun _ => push hσ _) fun _ h => h
  | sstore => exact next (sstore c) fun _ h => h
  | dup n => exact next (dup hσ n) fun _ h => h
  | swap n => exact next (swap n) fun _ h => h
  | log n => exact next (log n) fun _ h => h
  | jump => exact onStack_bind Stack.drops_pop (Nat.le_refl _) fun target => jumpTo target
  | jumpi => exact jumpIf
  | create => exact create hσ c false
  | create2 => exact create hσ c true
  | call => exact call hσ c .call
  | callCode => exact call hσ c .callCode
  | delegateCall => exact call hσ c .delegateCall
  | staticCall => exact call hσ c .staticCall
  | ret => exact next setOutput fun _ h => h
  | revert => exact revert
  | selfDestruct => exact next (selfDestruct c ancestors) fun _ h => h

end

end Effect.Trades

end Evm
