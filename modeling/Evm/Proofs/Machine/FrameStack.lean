import Mathlib.Data.List.Chain
import Evm.Ledger.Snapshots
import Evm.Proofs.Instruction.Operands
import Evm.Proofs.Machine.Execution

namespace Evm

/-!
# The stack of frames stays in order

The frame on top is the only one that moves.  Every frame below it waits for the frame above it, and
it can take in whatever that comes to: there is room on its stack, and the memory that the output
goes to is paid for.  So the machine never gets stuck, and frames move only along the edges of their
life.

* `Phase.Edge`, `Phase.Moves` — the life of a frame, edge by edge and step by step.
* `Frame.IsActive`, `Frame.IsWaiting` — the frame on top and those below.
* `Frame.IsWaiting.resume` — a frame that waits goes on with any result.
* `Machine.Stacked.step` — one step keeps all of this, and moves frames along edges.
* `frames_in_order` — the stack over the course of an execution.
-/

/-! ### The life of a frame -/

/-- The life of a frame. -/
inductive Phase.Edge : Phase → Phase → Prop where
  | prepare : Edge .created .prepared
  | enter : Edge .prepared .running
  | suspend : Edge .running .suspended
  | resume : Edge .suspended .resuming
  | goOn : Edge .resuming .running
  /-- A frame that cannot be prepared ends before any code runs. -/
  | abort : Edge .created .finalizing
  /-- A precompiled contract has answered for the frame. -/
  | answer : Edge .prepared .finalizing
  | finish : Edge .running .finalizing
  | settle : Edge .finalizing .done

/-- The life of the top frame over one step, in which it may go on running.  A frame that resumes
    runs before anything else comes of it. -/
inductive Phase.Moves : Phase → Phase → Prop where
  | along {p q : Phase} : Edge p q → Moves p q
  | runs : Moves .running .running
  | resumes {q : Phase} : Edge .running q → Moves .resuming q

/-- What comes of a running frame comes of one that resumes. -/
theorem Phase.Moves.of_running {p q : Phase} (hp : p = .running ∨ p = .resuming)
    (h : q = .running ∨ Edge .running q) : Moves p q := by
  rcases hp with rfl | rfl
  · rcases h with rfl | hedge
    · exact .runs
    · exact .along hedge
  · rcases h with rfl | hedge
    · exact .along .goOn
    · exact .resumes hedge

/-! ### Frames -/

namespace Frame

/-- A frame that can move on: it waits for nothing and is within its bounds. -/
structure IsActive (limit : Nat) (f : Frame) : Prop where
  phase : f.phase ∈ [Phase.created, .prepared, .running, .resuming, .finalizing]
  continuation : f.continuation = none
  fits : f.Fits limit 0 0

/-- A frame that waits for a child, with room for the result. -/
structure IsWaiting (limit : Nat) (f : Frame) : Prop where
  phase : f.phase = .suspended
  fits : ∃ k, f.continuation = some k ∧ f.Fits limit 1 k.reach

/-- A new frame has an empty stack and no memory. -/
theorem isActive_ofMessage (message : Message) (refund limit : Nat) :
    (ofMessage message refund limit).IsActive limit where
  phase := by simp [ofMessage]
  continuation := rfl
  fits := ⟨rfl, Nat.zero_le _, Nat.dvd_zero 32, Nat.zero_le _⟩

end Frame

namespace Frame

variable {limit : Nat}

/-- The merging of a child leaves alone what the frame works with. -/
theorem mergeChild_workspace (f : Frame) (childGas : Meter) (result : ExecutionResult) :
    (f.mergeChild childGas result).memory = f.memory ∧
      (f.mergeChild childGas result).stack = f.stack ∧
      (f.mergeChild childGas result).continuation = f.continuation := by
  rw [mergeChild_eq]
  dsimp only
  split
  · exact ⟨rfl, rfl, rfl⟩
  · exact ⟨rfl, rfl, rfl⟩

/-- Taking in a child leaves stack and memory in their bounds. -/
theorem mergeChild_fits {f : Frame} {room reach : Nat} (h : f.Fits limit room reach)
    (childGas : Meter) (result : ExecutionResult) :
    (f.mergeChild childGas result).Fits limit room reach := by
  obtain ⟨hmemory, hstack, -⟩ := f.mergeChild_workspace childGas result
  constructor
  · exact hstack ▸ h.stackLimit
  · exact hstack ▸ h.height
  · exact hmemory ▸ h.words
  · exact hmemory ▸ h.reached

/-- A frame within its bounds with room for a word has room on its stack. -/
theorem Fits.room {f : Frame} {reach : Nat} (h : f.Fits limit 1 reach) :
    f.stack.size < f.stack.limit :=
  h.stackLimit ▸ h.height

/-- There is room for the result of a call. -/
theorem afterCall_eq {f : Frame} {retOffset retLen : Nat} (hroom : f.stack.size < f.stack.limit)
    (hreach : (Continuation.call retOffset retLen).reach ≤ f.memory.size)
    (result : ExecutionResult) :
    ∃ memory,
      f.memory.write retOffset (result.output.extract 0 (min retLen result.output.size)) =
        .ok memory ∧
      f.afterCall result retOffset retLen =
        { f with
          continuation := none, phase := .resuming, memory, returnData := result.output
          stack := { f.stack with items := .ofBool result.isSuccess :: f.stack.items } } := by
  have hdata : (result.output.extract 0 (min retLen result.output.size)).size ≤ retLen := by
    rw [Array.size_extract]
    omega
  obtain ⟨memory, hwrite⟩ := Memory.write_of_reach hdata hreach
  refine ⟨memory, hwrite, ?_⟩
  unfold afterCall
  dsimp only
  rw [hwrite]
  dsimp only
  rw [Stack.push, if_pos hroom]

/-- A parent goes on within its bounds after a call. -/
theorem afterCall_isActive {f : Frame} {retOffset retLen : Nat}
    (h : f.Fits limit 1 (Continuation.call retOffset retLen).reach) (result : ExecutionResult) :
    (f.afterCall result retOffset retLen).phase = .resuming ∧
      (f.afterCall result retOffset retLen).IsActive limit := by
  obtain ⟨memory, hwrite, heq⟩ := afterCall_eq h.room h.reached result
  have hsize := Memory.size_of_write hwrite
  rw [heq]
  exact ⟨rfl, by simp, rfl, h.stackLimit, h.height, hsize ▸ h.words, Nat.zero_le _⟩

/-- There is room for the result of a creation. -/
theorem afterCreate_eq {f : Frame} (hroom : f.stack.size < f.stack.limit)
    (result : ExecutionResult) :
    f.afterCreate result =
      let word : Word :=
        if result.isSuccess then result.createdAddress.elim 0 Address.toWord else 0
      { f with
        continuation := none, phase := .resuming
        returnData := if result.isSuccess then #[] else result.output
        stack := { f.stack with items := word :: f.stack.items } } := by
  unfold afterCreate
  dsimp only
  rw [Stack.push, if_pos hroom]

/-- A parent goes on within its bounds after a creation. -/
theorem afterCreate_isActive {f : Frame} {reach : Nat} (h : f.Fits limit 1 reach)
    (result : ExecutionResult) :
    (f.afterCreate result).phase = .resuming ∧ (f.afterCreate result).IsActive limit := by
  rw [afterCreate_eq h.room]
  exact ⟨rfl, by simp, rfl, h.stackLimit, h.height, h.words, Nat.zero_le _⟩

/-- A frame that waits goes on with any result, since there is room for it. -/
theorem IsWaiting.resume {f : Frame} (h : f.IsWaiting limit) (childGas : Meter)
    (result : ExecutionResult) :
    (f.resume childGas result).phase = .resuming ∧
      (f.resume childGas result).IsActive limit := by
  obtain ⟨k, hk, hfits⟩ := h.fits
  obtain ⟨-, -, hsame⟩ := f.mergeChild_workspace childGas result
  have hmerged := mergeChild_fits hfits childGas result
  rw [resume_eq]
  dsimp only
  rw [hsame, hk]
  cases k with
  | call retOffset retLen => exact afterCall_isActive hmerged result
  | create => exact afterCreate_isActive hmerged result

end Frame

/-! ### Messages -/

/-- The first message comes from a frame with the second: it has the depth of a child, and it
    forbids changes of state if the other one does. -/
structure Message.IsNestedIn (child parent : Message) : Prop where
  depth : child.depth = parent.childDepth
  isStatic : parent.isStatic = true → child.isStatic = true

/-- In a chain of messages of which none has the greatest depth, each is nested one deeper than the
    one before. -/
theorem Message.depth_of_isChain {depth : Nat} {messages : List Message}
    (hchain : messages.IsChain IsNestedIn) (hfirst : ∀ msg ∈ messages.getLast?, msg.depth = depth)
    (hbounded : ∀ msg ∈ messages, msg.depth < Counter.limit) {i : Nat} {msg : Message}
    (h : messages.reverse[i]? = some msg) : msg.depth = depth + i := by
  -- by induction on the frames from the top down: each lies one deeper than the next
  induction messages generalizing i msg with
  | nil => cases h
  | cons child rest ih =>
    rcases rest with _ | ⟨parent, rest⟩
    · -- the first message of all
      obtain ⟨rfl, rfl⟩ : i = 0 ∧ child = msg := by
        cases i with
        | zero => exact ⟨rfl, Option.some.inj h⟩
        | succ i => cases h
      exact hfirst child rfl
    · obtain ⟨hnested, hrest⟩ := List.isChain_cons_cons.1 hchain
      have below {j : Nat} {msg : Message} (hj : (parent :: rest).reverse[j]? = some msg) :
          msg.depth = depth + j :=
        ih hrest hfirst (fun msg hmsg => hbounded msg (List.mem_cons_of_mem _ hmsg)) hj
      have hparent : parent.depth < Counter.limit :=
        hbounded parent (List.mem_cons_of_mem _ List.mem_cons_self)
      rw [List.reverse_cons, List.getElem?_append] at h
      split at h
      · exact below h
      -- the frame on top, one deeper than the one below it
      · rename_i hi
        have hlast : (parent :: rest).reverse[rest.length]? = some parent := by
          rw [List.reverse_cons, ← List.length_reverse, List.getElem?_concat_length]
        have hlength : (parent :: rest).reverse.length = rest.length + 1 := by simp
        obtain ⟨hi, rfl⟩ : i = rest.length + 1 ∧ child = msg := by
          rw [List.getElem?_singleton] at h
          split at h
          · exact ⟨by omega, Option.some.inj h⟩
          · cases h
        rw [hnested.depth, childDepth_of_lt hparent, below hlast, hi]
        rfl

/-! ### Steps -/

namespace Machine

variable {L : Type}

/-- The frames, lowest first. -/
def frames (m : Machine L) : List Frame := (m.top :: m.below).reverse

/-- All frames are where they belong: the top one can move on, the others wait, and their messages
    are nested, from one at the given depth on. -/
structure Stacked (c : Context) (depth : Nat) (m : Machine L) : Prop where
  top : m.top.IsActive c.config.stackLimit
  below : ∀ f ∈ m.below, f.IsWaiting c.config.stackLimit
  nested : m.messages.IsChain Message.IsNestedIn
  first : ∀ msg ∈ m.messages.getLast?, msg.depth = depth
  bounded : ∀ msg ∈ m.messages, msg.depth ≤ c.config.maxCallDepth

variable [Ledger L]

/-- What a step leads to, by the lives of the frames.  Frames that are not mentioned stay as they
    are. -/
inductive Advances (c : Context) (m : Machine L) : Progress L → Prop where
  /-- The top frame moves. -/
  | moves {m' : Machine L} : m'.below = m.below → m'.top.message = m.top.message →
      Phase.Moves m.top.phase m'.top.phase → Advances c m (.running m')
  /-- The top frame suspends itself, and a new one is put on top of it. -/
  | spawns {m' : Machine L} {waiting : Frame} : m'.below = waiting :: m.below →
      waiting.message = m.top.message → waiting.phase = .suspended →
      Phase.Moves m.top.phase waiting.phase → m'.top.phase = .created →
      Advances c m (.running m')
  /-- The top frame is done, and the one below it resumes. -/
  | pops {m' : Machine L} {parent : Frame} : m.below = parent :: m'.below →
      m'.top.message = parent.message →
      Phase.Edge m.top.phase (m.toLocal.finalize c m.isRoot).2.frame.phase →
      m'.top.phase = .resuming → Phase.Edge parent.phase m'.top.phase →
      Advances c m (.running m')
  /-- The top frame is done, and it was the last one. -/
  | ends {x : Execution L} : m.below = [] →
      Phase.Edge m.top.phase (m.toLocal.finalize c m.isRoot).2.frame.phase →
      Advances c m (.done x)

namespace Stacked

variable {c : Context} {depth : Nat} {m m' : Machine L}

omit [Ledger L] in
/-- The top frame is replaced by itself in another phase. -/
theorem congr (h : m.Stacked c depth) (hbelow : m'.below = m.below)
    (hmessage : m'.top.message = m.top.message)
    (htop : m'.top.IsActive c.config.stackLimit) : m'.Stacked c depth := by
  have hmessages : m'.messages = m.messages := by
    unfold messages
    rw [hbelow, hmessage]
  exact ⟨htop, hbelow ▸ h.below, hmessages ▸ h.nested, hmessages ▸ h.first,
    hmessages ▸ h.bounded⟩

/-- Preparing keeps the stack of frames in order. -/
theorem prepare (h : m.Stacked c depth) (hphase : m.top.phase = .created) :
    (m.prepare c).Stacked c depth ∧ Advances c m (.running (m.prepare c)) := by
  obtain ⟨program, snapshot, heq⟩ := m.toLocal.attempt_prepare_eq c
  have hfits := h.top.fits
  have hnone := h.top.continuation
  have hmessage : (m.prepare c).top.message = m.top.message :=
    (List.cons.inj (messages_prepare c m)).1
  -- the preparation leaves the workspace alone, and moves the phase on or to the end
  have hmoved : Phase.Edge .created (m.prepare c).top.phase ∧
      (m.prepare c).top.IsActive c.config.stackLimit := by
    unfold Machine.prepare
    dsimp only
    rw [heq]
    split
    · exact ⟨.prepare, by simp, hnone, hfits.stackLimit, hfits.height, hfits.words, hfits.reached⟩
    · exact ⟨.abort, by simp [Frame.finish], hnone, hfits.stackLimit, hfits.height, hfits.words,
        hfits.reached⟩
  refine ⟨h.congr rfl hmessage hmoved.2, .moves rfl hmessage (.along ?_)⟩
  exact hphase ▸ hmoved.1

/-- So does entering. -/
theorem enter (h : m.Stacked c depth) (hphase : m.top.phase = .prepared) :
    (m.enter c).Stacked c depth ∧ Advances c m (.running (m.enter c)) := by
  have hfits := h.top.fits
  have hnone := h.top.continuation
  have hmessage : (m.enter c).top.message = m.top.message :=
    (List.cons.inj (messages_enter c m)).1
  have hmoved : Phase.Edge .prepared (m.enter c).top.phase ∧
      (m.enter c).top.IsActive c.config.stackLimit := by
    unfold Machine.enter
    split
    · exact ⟨.enter, by simp [withTop], hnone, hfits.stackLimit, hfits.height, hfits.words,
        hfits.reached⟩
    · rename_i p _
      obtain ⟨gas, output, -, heq⟩ := m.top.answered_eq p
      rw [Local.attempt_runPrecompile]
      dsimp only [toLocal]
      rw [heq]
      exact ⟨.answer, by simp [withLocal, Frame.finish], hnone, hfits.stackLimit, hfits.height,
        hfits.words, hfits.reached⟩
  refine ⟨h.congr (enter_below c m) hmessage hmoved.2, .moves (enter_below c m) hmessage (.along ?_)⟩
  exact hphase ▸ hmoved.1

/-- The top frame after its turn. -/
theorem turn (h : m.Stacked c depth) {o : Outcome} {s : Local L} {t : Trace}
    (hturn : m.turn c = (o, s, t)) :
    s.frame.continuation = none ∧ s.frame.FitsOutcome c c.config.stackLimit o := by
  have hfits := h.top.fits
  have hrunning : m.running.frame.Fits c.config.stackLimit 0 0 :=
    ⟨hfits.stackLimit, hfits.height, hfits.words, hfits.reached⟩
  have hlanded := Local.turn_fits c m.below m.trace hrunning
  change (m.turn c).2.1.frame.FitsOutcome c c.config.stackLimit (m.turn c).1 at hlanded
  rw [hturn] at hlanded
  refine ⟨?_, hlanded⟩
  exact (congrArg Frame.Activation.continuation (turn_onward hturn).1.activation).trans
    h.top.continuation

/-- So does a turn after which the frame goes on. -/
theorem continues (h : m.Stacked c depth) (hrun : m.IsRunning) {s : Local L} {t : Trace}
    (hturn : m.turn c = (.continues, s, t)) :
    (m.landed s t).Stacked c depth ∧ Advances c m (.running (m.landed s t)) := by
  obtain ⟨hnone, hfits⟩ := h.turn hturn
  have hphase := turn_phase hturn
  have hmessage : (m.landed s t).top.message = m.top.message := turn_message hturn
  refine ⟨h.congr rfl hmessage ⟨?_, hnone, hfits⟩, .moves rfl hmessage ?_⟩
  · show s.frame.phase ∈ _
    simp [hphase]
  · exact .of_running hrun (.inl hphase)

/-- So does a turn that ends the frame. -/
theorem ends (h : m.Stacked c depth) (hrun : m.IsRunning) {o : Outcome} {error : Option VmError}
    {s : Local L} {t : Trace} (hturn : m.turn c = (o, s, t)) (hends : o.Ends error) :
    ((m.landed s t).withTop (s.frame.finish error)).Stacked c depth ∧
      Advances c m (.running ((m.landed s t).withTop (s.frame.finish error))) := by
  obtain ⟨hnone, hlanded⟩ := h.turn hturn
  have hfits : s.frame.Fits c.config.stackLimit 0 0 := by
    cases hends with
    | halted => exact hlanded
    | failed e => exact hlanded
  have hmessage : (s.frame.finish error).message = m.top.message := turn_message hturn
  refine ⟨h.congr rfl hmessage ⟨?_, hnone, ?_⟩, .moves rfl hmessage ?_⟩
  · simp [withTop, Frame.finish]
  · exact ⟨hfits.stackLimit, hfits.height, hfits.words, hfits.reached⟩
  · exact .of_running hrun (.inr .finish)

/-- So does a turn that asks for a child, which lies one level deeper. -/
theorem spawns (h : m.Stacked c depth) (hrun : m.IsRunning) {child : Message} {k : Continuation}
    {s : Local L} {t : Trace} (hturn : m.turn c = (.waits child k, s, t)) :
    ((m.landed s t).spawn c child k).Stacked c depth ∧
      -- what the turn keeps of the frame, and what it says of the child
      Advances c m (.running ((m.landed s t).spawn c child k)) := by
  obtain ⟨-, hfits, hdepth⟩ := h.turn hturn
  have hchild : child.IsChildOf m.top.message := (turn_onward hturn).2
  have hmessage := turn_message hturn
  have hmessages : ((m.landed s t).spawn c child k).messages = child :: m.messages := by
    show child :: s.frame.message :: m.below.map Frame.message = child :: m.top.message :: _
    rw [hmessage]
  refine ⟨⟨Frame.isActive_ofMessage _ _ _, ?_, ?_, ?_, ?_⟩, ?_⟩
  · -- the frame that waits, and those that waited before
    refine List.forall_mem_cons.2 ⟨⟨rfl, k, rfl, ?_⟩, h.below⟩
    exact ⟨hfits.stackLimit, hfits.height, hfits.words, hfits.reached⟩
  · rw [hmessages]
    exact List.isChain_cons_cons.2 ⟨⟨hchild.depth, hchild.isStatic⟩, h.nested⟩
  · rw [hmessages]
    exact h.first
  · rw [hmessages]
    exact List.forall_mem_cons.2 ⟨hdepth, h.bounded⟩
  · exact .spawns rfl hmessage rfl (.of_running hrun (.inr .suspend)) rfl

/-- The end of a frame is its last edge. -/
theorem settles (c : Context) (m : Machine L) (hphase : m.top.phase = .finalizing) :
    Phase.Edge m.top.phase (m.toLocal.finalize c m.isRoot).2.frame.phase := by
  rw [hphase]
  exact .settle

/-- So does popping a frame, whose parent goes on. -/
theorem pops (h : m.Stacked c depth) (hphase : m.top.phase = .finalizing) {parent : Frame}
    {below : List Frame} (hbelow : m.below = parent :: below) :
    (m.handedTo c parent below).Stacked c depth ∧
      Advances c m (.running (m.handedTo c parent below)) := by
  -- the parent is the one that waits on top of the others
  have hwaits := List.forall_mem_cons.1 (hbelow ▸ h.below)
  obtain ⟨hresumes, hactive⟩ := hwaits.1.resume (m.toLocal.finalize c m.isRoot).2.frame.gas
    (m.toLocal.finalize c m.isRoot).1
  have hmessage : (m.handedTo c parent below).top.message = parent.message :=
    (parent.resumed_resume _ _).message
  have hmessages : m.messages = m.top.message :: (m.handedTo c parent below).messages := by
    show m.top.message :: m.below.map Frame.message = m.top.message :: _ :: _
    rw [hbelow, hmessage]
    rfl
  refine ⟨⟨hactive, hwaits.2, ?_, ?_, ?_⟩, ?_⟩
  · exact (List.isChain_cons_cons.1 (hmessages ▸ h.nested)).2
  · have hfirst := h.first
    rw [hmessages] at hfirst
    exact hfirst
  · exact (List.forall_mem_cons.1 (hmessages ▸ h.bounded)).2
  · refine .pops hbelow hmessage (settles c m hphase) hresumes ?_
    rw [hwaits.1.phase]
    exact hresumes ▸ .resume

/-- One step keeps all frames where they belong, and moves them along the edges of their life. -/
theorem step (h : m.Stacked c depth) (hstep : Stepped c m m') :
    m'.Stacked c depth ∧ Advances c m (.running m') := by
  cases hstep with
  | prepares hphase => exact h.prepare hphase
  | enters hphase => exact h.enter hphase
  | continues hrun hturn => exact h.continues hrun hturn
  | ends hrun hturn hends => exact h.ends hrun hturn hends
  | spawns hrun hturn => exact h.spawns hrun hturn
  | pops hphase hbelow => exact h.pops hphase hbelow

/-- There always is a step. -/
theorem advances (h : m.Stacked c depth) : Advances c m (m.step c) := by
  cases hstep : m.step c with
  | running m' => exact (h.step (step_cases hstep)).2
  | done x =>
    obtain ⟨hphase, hbelow, -⟩ := step_done hstep
    exact .ends hbelow (settles c m hphase)
  | stuck =>
    -- only a frame that waits or is done cannot move on
    have hphase := h.top.phase
    unfold Machine.step at hstep
    split at hstep
    case h_6 hsuspended => simp [hsuspended] at hphase
    case h_7 hdone => simp [hdone] at hphase
    case h_5 =>
      unfold finalizeTop at hstep
      dsimp only at hstep
      split at hstep <;> cases hstep
    all_goals cases hstep

end Stacked

/-! ### Executions -/

/-- The stack of frames is in order. -/
structure InOrder (c : Context) (depth : Nat) (m : Machine L) : Prop where
  nonempty : m.frames ≠ []
  /-- The top frame can move on, and waits for nothing. -/
  top : m.top.phase ∈ [Phase.created, .prepared, .running, .resuming, .finalizing] ∧
    m.top.continuation = none
  /-- Each frame below the top one waits for the result of a child. -/
  below : ∀ f ∈ m.below, f.phase = .suspended ∧ ∃ k, f.continuation = some k
  /-- Each frame is nested one deeper than the one below it, unless depths may go up to the greatest
      one that can be counted. -/
  depth : ∀ i f, m.frames[i]? = some f →
    (c.config.maxCallDepth < Counter.limit → f.depth = depth + i) ∧
      f.depth ≤ c.config.maxCallDepth
  /-- What lies on top of a frame that forbids changes of state forbids them as well. -/
  isStatic : m.frames.Pairwise fun lower upper => lower.isStatic = true → upper.isStatic = true
  stack : ∀ f ∈ m.frames, f.stack.size ≤ c.config.stackLimit
  memory : ∀ f ∈ m.frames, 32 ∣ f.memory.size

section Executions

variable {c : Context} {l : L} {message : Message} {observer : Observer} {depth : Nat}
  {m : Machine L}

omit [Ledger L] in
/-- The messages are those of the frames, from the bottom up. -/
theorem messages_eq (m : Machine L) : m.frames.map Frame.message = m.messages.reverse := by
  rw [frames, List.map_reverse]
  rfl

omit [Ledger L] in
/-- Frames that are stacked are in order. -/
theorem Stacked.inOrder (h : m.Stacked c depth) : m.InOrder c depth where
  nonempty := by simp [frames]
  top := ⟨h.top.phase, h.top.continuation⟩
  below f hf := by
    obtain ⟨hphase, k, hk, -⟩ := h.below f hf
    exact ⟨hphase, k, hk⟩
  depth i f hf := by
    have hmsg : m.messages.reverse[i]? = some f.message := by
      rw [← messages_eq, List.getElem?_map, hf]
      rfl
    refine ⟨fun hlimit => Message.depth_of_isChain h.nested h.first ?_ hmsg, h.bounded _ ?_⟩
    · exact fun msg hmem => Nat.lt_of_le_of_lt (h.bounded msg hmem) hlimit
    · exact List.mem_reverse.1 (List.mem_of_getElem? hmsg)
  isStatic := by
    -- what is handed on from each message to the next is handed on to all
    let Inherits (child parent : Message) : Prop := parent.isStatic = true → child.isStatic = true
    let _ : Trans Inherits Inherits Inherits := ⟨fun h k static => h (k static)⟩
    have hchain : m.messages.IsChain Inherits := h.nested.imp fun _ _ hnested => hnested.isStatic
    have hpairs : ((m.top :: m.below).map Frame.message).Pairwise Inherits := hchain.pairwise
    exact List.pairwise_reverse.2 (List.pairwise_map.1 hpairs)
  stack f hf := by
    rcases List.mem_cons.1 (List.mem_reverse.1 hf) with rfl | hf
    · exact h.top.fits.height
    · obtain ⟨-, k, -, hfits⟩ := h.below f hf
      have := hfits.height
      omega
  memory f hf := by
    rcases List.mem_cons.1 (List.mem_reverse.1 hf) with rfl | hf
    · exact h.top.fits.words
    · obtain ⟨-, k, -, hfits⟩ := h.below f hf
      exact hfits.words

end Executions

end Machine

/-- Resolving a message leaves its depth. -/
theorem Message.depth_resolve {L : Type} [Ledger L] (m : Message) (l : L) :
    (m.resolve l).depth = m.depth := by
  rcases m.resolve_cases l with h | ⟨a, h⟩
  · rw [h]
  · rw [h]
    rfl

namespace Machine

variable {L : Type} [Ledger L] {c : Context} {l : L} {message : Message} {observer : Observer}
  {m : Machine L}

omit [Ledger L] in
/-- One frame is in order by itself. -/
theorem stacked_start (c : Context) (l : L) (t : Trace) {message : Message}
    (hdepth : message.depth ≤ c.config.maxCallDepth) :
    (start c l t message).Stacked c message.depth where
  top := Frame.isActive_ofMessage _ _ _
  below := fun _ hf => absurd hf List.not_mem_nil
  nested := .singleton _
  first := fun _ hmsg => congrArg Message.depth (Option.some.inj hmsg).symm
  bounded := List.forall_mem_singleton.2 hdepth

/-- An execution starts in order. -/
theorem stacked_launch (hdepth : message.depth ≤ c.config.maxCallDepth) :
    (launch c l message observer).Stacked c message.depth := by
  have hsame := message.depth_resolve l
  have hstart := stacked_start c
    ((prewarmed c (message.resolve l)).foldl (fun l a => (Ledger.accessAccount l a).2) l)
    { toObserver := observer }
    (hsame.symm ▸ hdepth)
  rw [hsame] at hstart
  exact hstart

/-- So it is in order wherever it comes to. -/
theorem Visited.stacked (h : Visited c l message observer m) : m.Stacked c message.depth :=
  h.invariant (stacked_launch h.depth) fun _ _ hm hstep => (hm.step hstep).1

end Machine

/-- Throughout an execution the stack of frames is in order, and each step moves frames along the
    edges of their life. -/
theorem frames_in_order {L : Type} [Ledger L] {c : Context} {l : L} {message : Message}
    {observer : Observer} {m : Machine L} (h : Machine.Visited c l message observer m) :
    m.InOrder c message.depth ∧ m.Advances c (m.step c) :=
  ⟨h.stacked.inOrder, h.stacked.advances⟩

/-- A contract calls another one without leave to change state, which has a word in its memory when
    it ends.  Both frames are in order, and the first one resumes. -/
theorem frames_in_order_across_call :
    let c : Context := { precompiles := .none }
    let l := SnapshotLedger.ofWorld (World.setCode (World.setCode {} 8
      #[0x60, 1, 0x60, 0, 0x52, 0x60, 32, 0x60, 0, 0xf3])
        7 #[0x60, 32, 0x60, 0, 0x60, 0, 0x60, 0, 0x60, 8, 0x61, 0xff, 0xff, 0xfa])
    let message := Message.call 1 7 0 #[] 200000
    let m := (Machine.launch c l message .off).after c 17
    Machine.Visited c l message .off m ∧
      m.frames.map (fun f => (f.depth, f.phase, f.isStatic, f.memory.size)) =
        [(0, .suspended, false, 32), (1, .finalizing, true, 32)] ∧
      m.InOrder c 0 ∧ m.Advances c (m.step c) := by
  intro c l message m
  have visited : Machine.Visited c l message .off m :=
    Machine.Visited.iff_after.2 ⟨Nat.zero_le _, 17, rfl⟩
  exact ⟨visited, by decide +kernel, frames_in_order visited⟩

end Evm
