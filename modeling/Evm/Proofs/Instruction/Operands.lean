import Evm.Proofs.Instruction.Outcome

namespace Evm

/-!
# Stack and memory within their bounds

The stack of a frame stays within its limit, and its memory is made of whole words.  A frame that
asks for a child has taken words from its stack and has paid for the memory that the output goes to,
so that there is room for the result.

* `Frame.Fits` — a frame within its bounds, with room for some words and some memory.
* `Effect.Keeps` — an effect that keeps a property of the frame, whether it succeeds or not.
* `Effect.IsFitting` — an effect that keeps the frame within its bounds and asks only for children
  whose results have room.
* `Local.turn_fits` — every turn is like that.
-/

/-! ### Bounds -/

/-- The memory that a parent needs to take in the result of a child. -/
def Continuation.reach : Continuation → Nat
  | .call retOffset retLen => if retLen = 0 then 0 else retOffset + retLen
  | .create => 0

/-- A frame within its bounds, with room for so many words on its stack and at least so much
    memory. -/
structure Frame.Fits (limit room reach : Nat) (f : Frame) : Prop where
  stackLimit : f.stack.limit = limit
  height : f.stack.size + room ≤ limit
  words : 32 ∣ f.memory.size
  reached : reach ≤ f.memory.size

/-- A frame within its bounds that goes on by some flow.  A child that it asks for is not nested too
    deeply, and there is room for the result. -/
def Frame.FitsFlow (c : Context) (limit : Nat) (f : Frame) : Flow → Prop
  | .spawn message k => f.Fits limit 1 k.reach ∧ message.depth ≤ c.config.maxCallDepth
  | _ => f.Fits limit 0 0

namespace Stack

variable {α : Type}

/-- An operation that takes so many words. -/
def Takes (n : Nat) (f : Stack → Except VmError (α × Stack)) : Prop :=
  ∀ {s s' : Stack} {a : α}, f s = .ok (a, s') → s'.limit = s.limit ∧ s'.size + n = s.size

/-- What drops some words takes as many. -/
theorem Drops.takes {n : Nat} {f : Stack → Except VmError (α × Stack)} (hf : Drops n f) :
    Takes n f := by
  intro s s' a h
  obtain ⟨henough, rfl⟩ := hf.of_ok h
  exact ⟨rfl, by rw [size_dropped]; omega⟩

/-- Words move within the stack. -/
theorem swap_eq_ok {s s' : Stack} {n : Nat} (h : s.swap n = .ok s') :
    s'.limit = s.limit ∧ s'.size = s.size := by
  obtain ⟨enough, size, -, limit⟩ := trades_of_swap h
  exact ⟨limit, by omega⟩

/-- A word is copied only if there is room. -/
theorem dup_eq_ok {s s' : Stack} {n : Nat} (h : s.dup n = .ok s') :
    s'.limit = s.limit ∧ s'.size ≤ s.limit := by
  obtain hfails | ⟨w, -, hpush⟩ := s.dup_cases n
  · rw [hfails] at h
    cases h
  · obtain ⟨hroom, rfl⟩ := push_eq_ok_iff.1 (hpush.symm.trans h)
    exact ⟨rfl, hroom⟩

end Stack

/-- A write keeps the size of the memory. -/
theorem Memory.size_of_write {m m' : Memory} {offset : Nat} {b : Bytes}
    (h : m.write offset b = .ok m') : m'.size = m.size := by
  unfold write at h
  split at h
  · cases h
    rfl
  · split at h
    · rename_i hroom
      cases h
      exact size_overwrite _ _ _ hroom
    · cases h

/-- Bytes that are written lie where they were written to, and all others as before. -/
theorem Memory.getElem?_of_write {m m' : Memory} {offset : Nat} {b : Bytes}
    (h : m.write offset b = .ok m') (i : Nat) :
    m'.data[i]? = if offset ≤ i ∧ i < offset + b.size then b[i - offset]? else m.data[i]? := by
  unfold write at h
  split at h
  · rename_i hempty
    cases h
    have hsize : b.size = 0 := Array.isEmpty_iff_size_eq_zero.1 hempty
    rw [if_neg (by omega)]
  · split at h
    · rename_i hroom
      cases h
      exact getElem?_overwrite m offset b hroom i
    · cases h

/-- A range of memory that has been asked for is there. -/
theorem Memory.reach_of_extend {m m' : Memory} {offset len : Nat} {gas gas' : Meter}
    (hrange : InRange offset len) (h : m.extend offset len gas = .ok (m', gas')) :
    (Continuation.call offset len).reach ≤ m'.size := by
  show (if len = 0 then 0 else offset + len) ≤ m'.size
  split
  · exact Nat.zero_le _
  · rename_i hlen
    exact le_size_of_extend hrange h hlen

/-- Bytes that are no more than a range that is there can be written to it. -/
theorem Memory.write_of_reach {m : Memory} {offset len : Nat} {b : Bytes} (hb : b.size ≤ len)
    (hreach : (Continuation.call offset len).reach ≤ m.size) : ∃ m', m.write offset b = .ok m' := by
  unfold write
  by_cases hempty : b.isEmpty
  · exact ⟨m, if_pos hempty⟩
  · have hlen : len ≠ 0 := by
      rintro rfl
      exact hempty (Array.isEmpty_iff_size_eq_zero.2 (Nat.le_zero.1 hb))
    rw [Continuation.reach, if_neg hlen] at hreach
    rw [if_neg hempty, if_pos (by omega)]
    exact ⟨_, rfl⟩

namespace Frame.Fits

variable {limit room reach : Nat} {f : Frame}

/-- Less room and less memory may be asked for. -/
theorem weaken (h : f.Fits limit room reach) {less low : Nat} (hroom : less ≤ room)
    (hreach : low ≤ reach) : f.Fits limit less low where
  stackLimit := h.stackLimit
  height := by
    have := h.height
    omega
  words := h.words
  reached := Nat.le_trans hreach h.reached

/-- Words that are taken leave room. -/
theorem takes {α : Type} {n : Nat} {g : Stack → Except VmError (α × Stack)} (hg : Stack.Takes n g)
    (h : f.Fits limit room reach) {a : α} {stack : Stack} (hrun : g f.stack = .ok (a, stack)) :
    ({ f with stack } : Frame).Fits limit (room + n) reach where
  stackLimit := (hg hrun).1.trans h.stackLimit
  height := by
    have := (hg hrun).2
    have := h.height
    show stack.size + (room + n) ≤ limit
    omega
  words := h.words
  reached := h.reached

/-- Memory grows by whole words, up to what is asked for. -/
theorem extend (h : f.Fits limit room reach) {offset len : Nat}
    (hrange : Memory.InRange offset len) {memory : Memory} {gas : Meter}
    (hm : f.memory.extend offset len f.gas = .ok (memory, gas)) :
    ({ f with memory, gas } : Frame).Fits limit room reach where
  stackLimit := h.stackLimit
  height := h.height
  words := Memory.dvd_size_of_extend h.words hm
  reached := Nat.le_trans h.reached (Memory.size_le_of_extend hrange hm)

/-- A range of memory that has been asked for is there. -/
theorem reach_of_extend (h : f.Fits limit room 0) {offset len : Nat}
    (hrange : Memory.InRange offset len) {memory : Memory} {gas : Meter}
    (hm : f.memory.extend offset len f.gas = .ok (memory, gas)) :
    ({ f with memory, gas } : Frame).Fits limit room (Continuation.call offset len).reach where
  stackLimit := h.stackLimit
  height := h.height
  words := Memory.dvd_size_of_extend h.words hm
  reached := Memory.reach_of_extend hrange hm

end Frame.Fits

/-! ### Effects that keep a property of the frame -/

namespace Effect

variable {L : Type} {α β : Type}

/-- What the frame has before it has afterwards, whether an effect succeeds or not. -/
@[reducible] def Conduct.keeping (P : Frame → Prop) : Conduct L :=
  .always (fun s t => P s.frame → P t.frame) (fun _ => id) fun _ _ _ h k => k ∘ h

/-- The effect keeps the property of the frame, whether it succeeds or not. -/
abbrev Keeps (P : Frame → Prop) (e : Effect L α) : Prop := Follows (.keeping P) e

namespace Keeps

export Follows (pure bind frame_bind ledger_bind ite ite_bind next readMemory)

variable {P : Frame → Prop}

/-- It is enough to look at places where the frame has the property. -/
theorem of_ensures {e : Effect L α}
    (h : ∀ s, P s.frame → Ensures e (fun _ t => P t.frame) (fun t => P t.frame) s) :
    Keeps P e := by
  intro s
  have ensures := h s
  unfold Ensures at ensures
  cases hrun : e.run s with
  | ok a t =>
    rw [hrun] at ensures
    exact ensures
  | error x t =>
    rw [hrun] at ensures
    exact ensures

/-- From such a place the effect ensures the property. -/
theorem ensures {e : Effect L α} (he : Keeps P e) {s : Local L} (hs : P s.frame) :
    Ensures e (fun _ t => P t.frame) (fun t => P t.frame) s :=
  .of_final (he.final s hs)

/-- A failure keeps what is there. -/
theorem throw (e : VmError) : Keeps P (MonadExcept.throw e : Effect L α) :=
  Follows.throw fun _ => id

/-- Looking whether the frame is static changes nothing. -/
theorem requireNonStatic : Keeps P (requireNonStatic : Effect L Unit) :=
  Follows.requireNonStatic fun _ => id

/-- A change of the frame that keeps it. -/
theorem modifyFrame {f : Frame → Frame} (hf : ∀ g, P g → P (f g)) :
    Keeps P (Effect.modifyFrame f : Effect L Unit) :=
  fun s h => hf s.frame h

/-- The ledger plays no part. -/
theorem modifyLedger (f : L → L) : Keeps P (Effect.modifyLedger f) := fun _ h => h

/-- Nor does what it answers. -/
theorem onLedger (f : L → α × L) : Keeps P (Effect.onLedger f) := fun _ h => h

/-- What the ledger makes of a step plays no part for the frame. -/
theorem tryLedger (step : LedgerStep L α) (cause : StateError → VmError) :
    Keeps P (Effect.tryLedger step cause) :=
  of_ensures fun _ h => .tryLedger (fun _ _ _ => h) fun _ _ _ => h

/-- What follows an effect that keeps the property. -/
theorem after {e : Effect L α} {k : α → Effect L β} {Q : β → Local L → Prop} {E : Local L → Prop}
    {s : Local L} (he : Keeps P e) (hs : P s.frame) (hE : ∀ t : Local L, P t.frame → E t)
    (hk : ∀ a t, P t.frame → Ensures (k a) Q E t) : Ensures (e >>= k) Q E s := by
  refine .bind ?_
  exact (he.ensures hs).imp hk hE

/-! ### Parts of instructions -/

variable {limit room reach : Nat}

/-- A charge leaves stack and memory alone. -/
theorem charge (amount : Nat) :
    Keeps (Frame.Fits limit room reach) (charge amount : Effect L Unit) :=
  of_ensures fun _ h => .charge (fun _ _ => ⟨h.stackLimit, h.height, h.words, h.reached⟩) h

/-- What takes no more words than it gives keeps a frame within its bounds. -/
theorem onStack {n : Nat} {f : Stack → Except VmError (α × Stack)} (hf : Stack.Takes n f) :
    Keeps (Frame.Fits limit room reach) (onStack f : Effect L α) :=
  of_ensures fun _ h => .onStack (fun _ _ hrun =>
    (h.takes hf hrun).weaken (Nat.le_add_right _ _) (Nat.le_refl _)) h

/-- An operation after which the stack is as high as it may be at most. -/
theorem updateStack {f : Stack → Except VmError Stack}
    (hf : ∀ {s s' : Stack}, f s = .ok s' → s.size ≤ s.limit →
      s'.limit = s.limit ∧ s'.size ≤ s.limit) :
    Keeps (Frame.Fits limit 0 reach) (updateStack f : Effect L Unit) := by
  refine of_ensures fun s h => .updateStack (fun stack hstack => ?_) h
  obtain ⟨hlimit, hsize⟩ := hf hstack (h.stackLimit ▸ h.height)
  exact ⟨hlimit.trans h.stackLimit, h.stackLimit ▸ hsize, h.words, h.reached⟩

/-- A push uses up no more than the room that there is. -/
theorem push (w : Word) : Keeps (Frame.Fits limit 0 reach) (push w : Effect L Unit) :=
  updateStack fun hpush _ => by
    obtain ⟨hroom, rfl⟩ := Stack.push_eq_ok_iff.1 hpush
    exact ⟨rfl, hroom⟩

/-- Taking a word makes room. -/
theorem pop : Keeps (Frame.Fits limit room reach) (pop : Effect L Word) :=
  onStack Stack.drops_pop.takes

/-- So does taking an address. -/
theorem popAddress : Keeps (Frame.Fits limit room reach) (popAddress : Effect L Address) :=
  bind pop fun _ => pure _

/-- Growth of the memory, up to an end that can be counted. -/
theorem extendMemory {offset len : Nat} (hrange : Memory.InRange offset len) :
    Keeps (Frame.Fits limit room reach) (extendMemory offset len : Effect L Unit) :=
  of_ensures fun _ h => .extendMemory (fun _ _ hm => h.extend hrange hm) h

/-- A write makes no memory smaller. -/
theorem writeMemory (offset : Nat) (b : Bytes) :
    Keeps (Frame.Fits limit room reach) (writeMemory offset b : Effect L Unit) := by
  refine of_ensures fun s h => .frame_bind ?_
  cases hwrite : s.frame.memory.write offset b with
  | ok memory =>
    have hsize := Memory.size_of_write hwrite
    refine .modifyFrame ⟨h.stackLimit, h.height, ?_, ?_⟩
    · exact hsize ▸ h.words
    · exact hsize ▸ h.reached
  | error e => exact h

/-- An access to an account leaves stack and memory alone. -/
theorem accessAccount [Ledger L] (fork : Fork) (a : Address) (surcharge : Nat) :
    Keeps (Frame.Fits limit room reach) (accessAccount fork a surcharge : Effect L Unit) :=
  ite (bind (onLedger _) fun _ => ite (charge surcharge) (pure ())) (pure ())

/-- An access to a slot leaves stack and memory alone. -/
theorem accessSlot [Ledger L] (fork : Fork) (slot : Slot) (surcharge : Nat) :
    Keeps (Frame.Fits limit room reach) (accessSlot fork slot surcharge : Effect L Unit) :=
  ite (bind (onLedger _) fun _ => ite (charge surcharge) (pure ())) (pure ())

/-! ### Instructions that ask for no child -/

/-- The word that is given replaces the one that was taken. -/
theorem unary (f : Word → Word) : Keeps (Frame.Fits limit 0 reach) (unary f : Effect L Unit) :=
  bind pop fun _ => push _

/-- The word that is given takes the place of two. -/
theorem binary (f : Word → Word → Word) :
    Keeps (Frame.Fits limit 0 reach) (binary f : Effect L Unit) :=
  bind (onStack Stack.drops_pop2.takes) fun _ => push _

/-- The word that is given takes the place of three. -/
theorem ternary (f : Word → Word → Word → Word) :
    Keeps (Frame.Fits limit 0 reach) (ternary f : Effect L Unit) :=
  bind (onStack Stack.drops_pop3.takes) fun _ => push _

/-- A power takes the place of two words. -/
theorem exp (c : Context) : Keeps (Frame.Fits limit 0 reach) (exp c : Effect L Unit) :=
  bind (onStack Stack.drops_pop2.takes) fun _ => bind (charge _) fun _ => push _

/-- A copy makes memory grow, and writes there. -/
theorem copyRange (source : Bytes) (dest src size : Word) :
    Keeps (Frame.Fits limit room reach) (copyRange source dest src size : Effect L Unit) :=
  bind (extendMemory (Memory.inRange_operands _ _)) fun _ => bind (charge _) fun _ => writeMemory _ _

/-- A copy takes its three operands. -/
theorem copyToMemory (source : Bytes) :
    Keeps (Frame.Fits limit room reach) (copyToMemory source : Effect L Unit) :=
  bind (onStack Stack.drops_pop3.takes) fun _ => copyRange source _ _ _

/-- So does a copy of return data, unless it is out of bounds. -/
theorem returnDataCopy : Keeps (Frame.Fits limit room reach) (returnDataCopy : Effect L Unit) :=
  bind (onStack Stack.drops_pop3.takes) fun _ => frame_bind fun f =>
    ite (copyRange f.returnData _ _ _) (throw _)

/-- A hash takes the place of two words. -/
theorem keccak256 : Keeps (Frame.Fits limit 0 reach) (keccak256 : Effect L Unit) :=
  bind (onStack Stack.drops_pop2.takes) fun _ =>
    bind (extendMemory (Memory.inRange_operands _ _)) fun _ => bind (charge _) fun _ =>
      bind (readMemory _ _) fun b => push (Evm.keccak256 b)

/-- Topics are taken one after another. -/
theorem popTopics (n : Nat) :
    Keeps (Frame.Fits limit room reach) (popTopics n : Effect L (List Word)) := by
  induction n with
  | zero => exact pure []
  | succ n ih => exact bind pop fun topic => bind ih fun rest => pure (topic :: rest)

/-- A record takes its operands and gives nothing. -/
theorem log (n : Nat) : Keeps (Frame.Fits limit room reach) (log n : Effect L Unit) :=
  bind requireNonStatic fun _ => bind (onStack Stack.drops_pop2.takes) fun _ =>
    bind (popTopics n) fun _ => bind (extendMemory (Memory.inRange_operands _ _)) fun _ =>
    bind (charge _) fun _ => bind (readMemory _ _) fun _ =>
      modifyFrame fun _ h => ⟨h.stackLimit, h.height, h.words, h.reached⟩

/-- An output takes two words. -/
theorem setOutput : Keeps (Frame.Fits limit room reach) (setOutput : Effect L Unit) :=
  bind (onStack Stack.drops_pop2.takes) fun _ =>
    bind (extendMemory (Memory.inRange_operands _ _)) fun _ => bind (readMemory _ _) fun _ =>
      modifyFrame fun _ h => ⟨h.stackLimit, h.height, h.words, h.reached⟩

/-- A word of memory takes the place of its offset. -/
theorem mload : Keeps (Frame.Fits limit 0 reach) (mload : Effect L Unit) :=
  bind pop fun _ => bind (extendMemory (Memory.inRange_operand _ (by decide))) fun _ =>
    frame_bind fun _ => push _

/-- A word is stored where memory has grown to. -/
theorem mstore : Keeps (Frame.Fits limit room reach) (mstore : Effect L Unit) :=
  bind (onStack Stack.drops_pop2.takes) fun _ =>
    bind (extendMemory (Memory.inRange_operand _ (by decide))) fun _ => writeMemory _ _

/-- A byte is stored where memory has grown to. -/
theorem mstore8 : Keeps (Frame.Fits limit room reach) (mstore8 : Effect L Unit) :=
  bind (onStack Stack.drops_pop2.takes) fun _ =>
    bind (extendMemory (Memory.inRange_operand _ (by decide))) fun _ => writeMemory _ _

/-- Setting gas aside leaves stack and memory alone. -/
theorem reserveCallGas (c : Context) (requested value : Word) :
    Keeps (Frame.Fits limit room reach) (reserveCallGas c requested value : Effect L Nat) := by
  refine frame_bind fun f => ?_
  cases Gas.forCall c.fork f.gas.remaining requested with
  | ok gas => exact bind (charge gas) fun _ => pure _
  | error e => exact throw e

section

variable [Ledger L]

/-- An address is taken, and the access paid for. -/
theorem popAccessed (c : Context) :
    Keeps (Frame.Fits limit room reach) (popAccessed c : Effect L Address) :=
  bind popAddress fun _ => bind (accessAccount _ _ _) fun _ => pure _

/-- A write of storage takes two words. -/
theorem sstore (c : Context) : Keeps (Frame.Fits limit room reach) (sstore c : Effect L Unit) :=
  bind requireNonStatic fun _ => bind (frame_bind fun _ => ite (throw _) (pure ())) fun _ =>
    bind (onStack Stack.drops_pop2.takes) fun _ => frame_bind fun _ => bind (accessSlot _ _ _) fun _ =>
    ledger_bind fun _ => bind (charge _) fun _ =>
    bind (modifyFrame fun _ h => ⟨h.stackLimit, h.height, h.words, h.reached⟩) fun _ =>
      modifyLedger _

/-- A destruction takes the heir. -/
theorem selfDestruct (c : Context) (ancestors : List Frame) :
    Keeps (Frame.Fits limit room reach) (selfDestruct c ancestors : Effect L Unit) := by
  refine bind requireNonStatic fun _ => bind popAddress fun beneficiary => frame_bind fun f => ?_
  refine bind (accessAccount _ _ _) fun _ => ledger_bind fun l => ite_bind (charge _) fun _ => ?_
  refine bind (frame_bind fun _ => ite (modifyFrame fun _ h => ?_) (pure ())) fun _ => ?_
  · exact ⟨h.stackLimit, h.height, h.words, h.reached⟩
  refine bind (modifyFrame fun g h => ?_) fun _ => ?_
  · unfold Frame.registerSelfDestruct
    split
    · exact h
    · exact ⟨h.stackLimit, h.height, h.words, h.reached⟩
  · exact ite_bind (tryLedger _ _) fun _ => modifyLedger _

end

end Keeps

/-! ### Instructions that may ask for a child -/

/-- An effect that starts from a frame within its bounds keeps it there, and if it asks for a child,
    that is not nested too deeply and there is room for its result. -/
def IsFitting (c : Context) (limit room reach : Nat) (e : Effect L Flow) : Prop :=
  ∀ s, s.frame.Fits limit room reach →
    Ensures e (fun flow t => t.frame.FitsFlow c limit flow) (fun t => t.frame.Fits limit 0 0) s

namespace IsFitting

variable {c : Context} {limit room reach : Nat}

/-- A flow that asks for no child. -/
theorem pure {flow : Flow}
    (h : ∀ f : Frame, f.Fits limit 0 0 → f.FitsFlow c limit flow) :
    IsFitting c limit room reach (Pure.pure flow : Effect L Flow) :=
  fun s hs => .pure (h s.frame (hs.weaken (Nat.zero_le _) (Nat.zero_le _)))

/-- A failure asks for nothing. -/
theorem throw (e : VmError) :
    IsFitting c limit room reach (MonadExcept.throw e : Effect L Flow) :=
  fun _ hs => .throw (hs.weaken (Nat.zero_le _) (Nat.zero_le _))

/-- A part that keeps the bounds comes before one that fits. -/
theorem bind {e : Effect L α} {k : α → Effect L Flow}
    (he : Keeps (Frame.Fits limit room reach) e) (hk : ∀ a, IsFitting c limit room reach (k a)) :
    IsFitting c limit room reach (e >>= k) :=
  fun _ hs => he.after hs (fun _ ht => ht.weaken (Nat.zero_le _) (Nat.zero_le _)) fun a t ht =>
    hk a t ht

/-- Reading the frame comes before what fits for every frame. -/
theorem frame_bind {k : Frame → Effect L Flow} (hk : ∀ f, IsFitting c limit room reach (k f)) :
    IsFitting c limit room reach (frame >>= k) :=
  fun s hs => hk s.frame s hs

/-- Reading the ledger comes before what fits for every ledger. -/
theorem ledger_bind {k : L → Effect L Flow} (hk : ∀ l, IsFitting c limit room reach (k l)) :
    IsFitting c limit room reach (ledger >>= k) :=
  fun s hs => hk s.ledger s hs

/-- Both branches fit. -/
theorem ite {p : Prop} [Decidable p] {e e' : Effect L Flow} (he : IsFitting c limit room reach e)
    (he' : IsFitting c limit room reach e') : IsFitting c limit room reach (if p then e else e') := by
  split
  · exact he
  · exact he'

/-- An effect that only runs in some cases, and what follows it. -/
theorem ite_bind {p : Prop} [Decidable p] {e : Effect L Unit} {k : Unit → Effect L Flow}
    (he : Keeps (Frame.Fits limit room reach) e) (hk : ∀ u, IsFitting c limit room reach (k u)) :
    IsFitting c limit room reach (if p then e >>= k else k ()) :=
  ite (bind he hk) (hk ())

/-- Room that is not needed. -/
theorem weaken {e : Effect L Flow} (he : IsFitting c limit 0 0 e) :
    IsFitting c limit room reach e :=
  fun s hs => he s (hs.weaken (Nat.zero_le _) (Nat.zero_le _))

/-- A part of an instruction and where control goes after it. -/
theorem next {e : Effect L Unit} (he : Keeps (Frame.Fits limit 0 0) e) {flow : Flow}
    (h : ∀ f : Frame, f.Fits limit 0 0 → f.FitsFlow c limit flow) :
    IsFitting c limit 0 0 (do e; return flow) :=
  bind he fun _ => pure h

/-- Words that are taken leave room for what follows. -/
theorem onStack_bind {n : Nat} {f : Stack → Except VmError (α × Stack)} {k : α → Effect L Flow}
    (hf : Stack.Takes n f) (hk : ∀ a, IsFitting c limit (room + n) reach (k a)) :
    IsFitting c limit room reach (onStack f >>= k) := by
  intro s hs
  refine .bind (.onStack (fun a stack hrun => hk a _ (hs.takes hf hrun)) ?_)
  exact hs.weaken (Nat.zero_le _) (Nat.zero_le _)

/-- Memory that is paid for is there for what follows. -/
theorem extendMemory_bind {offset len : Nat} {k : Unit → Effect L Flow}
    (hrange : Memory.InRange offset len)
    (hk : ∀ u, IsFitting c limit room (Continuation.call offset len).reach (k u)) :
    IsFitting c limit room 0 (extendMemory offset len >>= k) := by
  intro s hs
  refine .bind (.extendMemory (fun memory gas hm => hk () _ (hs.reach_of_extend hrange hm)) ?_)
  exact hs.weaken (Nat.zero_le _) (Nat.zero_le _)

/-- A jump fits wherever it goes. -/
theorem jumpTo (target : Word) :
    IsFitting c limit room reach (jumpTo target : Effect L Flow) := by
  refine frame_bind fun f => ?_
  cases f.program.jump (min target.toNat Counter.limit) with
  | ok program =>
    refine bind (.modifyFrame fun _ h => ?_) fun _ => pure fun _ h => h
    exact ⟨h.stackLimit, h.height, h.words, h.reached⟩
  | error e => exact throw e

/-- A child that is not asked for leaves a zero instead. -/
theorem skipSpawn (reserved : Nat) :
    IsFitting c limit room reach (skipSpawn reserved : Effect L Flow) := by
  refine weaken (bind (.modifyFrame fun _ h => ?_) fun _ => next (.push 0) fun _ h => h)
  exact ⟨h.stackLimit, h.height, h.words, h.reached⟩

section

variable [Ledger L]

/-- A child is only asked for if it is not nested too deeply. -/
theorem canSpawn_bind {value : Word} {e e' : Effect L Flow}
    (he : ∀ s, s.frame.Fits limit room reach → s.frame.message.childDepth ≤ c.config.maxCallDepth →
      Ensures e (fun flow t => t.frame.FitsFlow c limit flow) (fun t => t.frame.Fits limit 0 0) s)
    (he' : IsFitting c limit room reach e') :
    IsFitting c limit room reach (canSpawn c value >>= fun b => if b then e else e') := by
  intro s hs
  refine .bind (.frame_bind (.ledger_bind (.pure (.ite (fun hcan => he s hs ?_) fun _ => he' s hs))))
  exact of_decide_eq_true (Bool.and_eq_true_iff.1 hcan).1

/-- A call takes more words than it gives back, and has paid for the memory of the output. -/
theorem call (form : CallForm) : IsFitting c limit 0 0 (call c form : Effect L Flow) := by
  refine onStack_bind Stack.drops_pop2.takes fun (requested, target) => ?_
  refine ite (bind .pop fun value => ?_) (bind (.pure 0) fun value => ?_)
  -- a value or none: from here on the two kinds of form go the same way
  all_goals
    refine bind (.onStack Stack.drops_pop4.takes) fun (inOffset, inLen, outOffset, outLen) => ?_
    refine ite_bind .requireNonStatic fun _ => bind (.accessAccount _ _ _) fun _ => ?_
    refine bind (.extendMemory (Memory.inRange_operands _ _)) fun _ => ?_
    refine extendMemory_bind (Memory.inRange_operands outOffset outLen) fun _ => ?_
    refine ite_bind (.charge _) fun _ => ledger_bind fun _ => ite_bind (.charge _) fun _ => ?_
    refine bind (.reserveCallGas c requested value) fun gasLimit => ?_
    refine canSpawn_bind (fun s hs hdepth => ?_) (skipSpawn gasLimit)
    refine .readMemory_bind (.frame_bind (.pure ⟨hs.weaken (by decide) (Nat.le_refl _), ?_⟩))
    cases form <;> exact hdepth

/-- A creation takes more words than it gives back. -/
theorem create (salted : Bool) : IsFitting c limit 0 0 (create c salted : Effect L Flow) := by
  refine bind .requireNonStatic fun _ => ?_
  refine onStack_bind Stack.drops_pop3.takes fun (value, offset, size) => ?_
  refine ite (bind (.bind Keeps.pop fun _ => .pure _) fun kind => ?_) (bind (.pure _) fun kind => ?_)
  all_goals
    refine bind (.extendMemory (Memory.inRange_operands _ _)) fun _ => ?_
    refine bind (.ite (Keeps.throw _) (.pure ())) fun _ => ?_
    refine bind (.charge _) fun _ => ite_bind (.charge _) fun _ => ?_
    refine bind (.readMemory _ _) fun _ => frame_bind fun _ => ledger_bind fun _ => ?_
    refine frame_bind fun _ => bind (.charge _) fun _ => ?_
    refine canSpawn_bind (fun s hs hdepth => ?_) (skipSpawn _)
    exact .frame_bind (.pure ⟨hs.weaken (by decide) (Nat.zero_le _), hdepth⟩)

/-- Every instruction keeps its frame within its bounds. -/
theorem ofInstruction (ancestors : List Frame) (i : Instruction) :
    IsFitting c limit 0 0 (ofInstruction c ancestors i : Effect L Flow) := by
  -- each group has the operands and the result of its instructions
  cases i with
  | stop | jumpDest => exact pure fun _ h => h
  | invalid => exact throw _
  | add | mul | sub | div | sdiv | mod | smod | signExtend | lt | gt | slt | sgt | eq | and | or
  | xor | byte | shl | shr | sar => exact next (.binary _) fun _ h => h
  | addMod | mulMod => exact next (.ternary _) fun _ h => h
  | isZero | not => exact next (.unary _) fun _ h => h
  | exp => exact next (.exp c) fun _ h => h
  | keccak256 => exact next .keccak256 fun _ h => h
  | origin | gasPrice | coinbase | timestamp | number | prevRandao | gasLimit | chainId | baseFee =>
    exact next (.push _) fun _ h => h
  | address | caller | callValue | callDataSize | codeSize | returnDataSize | pc | msize | gas
  | push n => exact next (.frame_bind fun _ => Keeps.push _) fun _ h => h
  | callDataLoad => exact next (.bind Keeps.pop fun _ => .frame_bind fun _ => Keeps.push _) fun _ h => h
  | callDataCopy | codeCopy => exact next (.frame_bind fun _ => Keeps.copyToMemory _) fun _ h => h
  | balance | extCodeSize | extCodeHash =>
    exact next (.bind (Keeps.popAccessed c) fun _ => .ledger_bind fun _ => Keeps.push _) fun _ h => h
  | extCodeCopy =>
    exact next (.bind (Keeps.popAccessed c) fun _ => .ledger_bind fun _ => Keeps.copyToMemory _)
      fun _ h => h
  | returnDataCopy => exact next .returnDataCopy fun _ h => h
  | blockHash => exact next (.bind Keeps.pop fun _ => Keeps.push _) fun _ h => h
  | selfBalance =>
    exact next (.ledger_bind fun _ => .frame_bind fun _ => Keeps.push _) fun _ h => h
  | pop => exact next (.bind Keeps.pop fun _ => .pure ()) fun _ h => h
  | mload => exact next .mload fun _ h => h
  | mstore => exact next .mstore fun _ h => h
  | mstore8 => exact next .mstore8 fun _ h => h
  | sload =>
    exact next (.bind Keeps.pop fun _ => .frame_bind fun _ => .bind (Keeps.accessSlot _ _ _) fun _ =>
      .ledger_bind fun _ => Keeps.push _) fun _ h => h
  | sstore => exact next (.sstore c) fun _ h => h
  | dup n => exact next (.updateStack fun hdup _ => Stack.dup_eq_ok hdup) fun _ h => h
  | swap n =>
    refine next (.updateStack fun hswap hroom => ?_) fun _ h => h
    exact ⟨(Stack.swap_eq_ok hswap).1, (Stack.swap_eq_ok hswap).2 ▸ hroom⟩
  | log n => exact next (.log n) fun _ h => h
  | jump => exact bind .pop fun target => jumpTo target
  | jumpi =>
    exact bind (.onStack Stack.drops_pop2.takes) fun _ => ite (pure fun _ h => h) (jumpTo _)
  | create => exact create false
  | create2 => exact create true
  | call | callCode | delegateCall | staticCall => exact call _
  | ret => exact next .setOutput fun _ h => h
  | revert => exact bind .setOutput fun _ => throw _
  | selfDestruct => exact next (.selfDestruct c ancestors) fun _ h => h

end

end IsFitting

end Effect

/-! ### Turns -/

/-- A frame within its bounds after a turn.  A child that it waits for is not nested too deeply, and
    there is room for the result. -/
def Frame.FitsOutcome (c : Context) (limit : Nat) (f : Frame) : Outcome → Prop
  | .waits message k => f.Fits limit 1 k.reach ∧ message.depth ≤ c.config.maxCallDepth
  | _ => f.Fits limit 0 0

/-- A turn keeps its frame within its bounds. -/
theorem Local.turn_fits {L : Type} [Ledger L] (c : Context) (ancestors : List Frame) {s : Local L}
    {limit : Nat} (trace : Trace) (h : s.frame.Fits limit 0 0) :
    (s.turn c ancestors trace).2.1.frame.FitsOutcome c limit (s.turn c ancestors trace).1 := by
  have paid (i : Instruction) : Effect.Ensures (paidEffect c ancestors i)
      (fun flow t => t.frame.FitsFlow c limit flow) (fun t => t.frame.Fits limit 0 0) s :=
    (Effect.Keeps.charge _).after h (fun _ ht => ht) fun _ t ht =>
      Effect.IsFitting.ofInstruction ancestors i t ht
  unfold turn
  split
  · exact h
  · split
    · exact h
    -- the outcome is read off the result of the paid effect
    · rename_i i _
      have hpaid := paid i
      unfold Effect.Ensures at hpaid
      unfold runInstruction
      dsimp only
      split
      · rename_i flow t hrun
        rw [hrun] at hpaid
        cases flow with
        | next | jumped | halt => exact ⟨hpaid.stackLimit, hpaid.height, hpaid.words, hpaid.reached⟩
        | spawn message k =>
          obtain ⟨hfits, hdepth⟩ := hpaid
          exact ⟨⟨hfits.stackLimit, hfits.height, hfits.words, hfits.reached⟩, hdepth⟩
      · rename_i t hrun
        rw [hrun] at hpaid
        exact hpaid
      · rename_i e t _ hrun
        rw [hrun] at hpaid
        exact hpaid

end Evm
