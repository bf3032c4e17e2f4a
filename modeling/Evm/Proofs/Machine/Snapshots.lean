import Evm.Proofs.Machine.Success

namespace Evm

/-!
# Snapshots are settled last in, first out

The names of snapshots are bare numbers, and frames on top of each other often hold the same one.
Each frame settles its own all the same: when it comes to its end, the open snapshots are those that
were open when it took its own, and that one on top.

* `Local.settlement` — what the ledger answers when a frame has its snapshot settled.
* `Machine.Settles` — the end of a frame as far as its snapshot is concerned.
* `SnapshotsNest` — every frame settles its own snapshot, and no execution leaves one behind.
* `snapshotsNest_of_history` — this holds on every lawful ledger.
-/

variable {L : Type} [Ledger L]

/-- What the ledger answers when the snapshot of a frame is settled.  A frame that was refused
    before it took a snapshot asks for nothing. -/
def Local.settlement (s : Local L) (error : Option VmError) : Option (Except StateError L) :=
  s.frame.snapshot.map fun token =>
    if error.isNone then Ledger.commit s.ledger token else Ledger.rollback s.ledger token

/-- The end of a frame goes by that answer, on a ledger that a refusal leaves as it was. -/
theorem Local.settle_eq [StandardLedger L] (s : Local L) (error : Option VmError) :
    s.settle error =
      match s.settlement error with
      | none => (error, s)
      | some (.ok ledger) => (error, { s with ledger })
      | some (.error e) => (error.or (some (.state e)), s) := by
  -- both kinds of settlement are the ledger's plain ones
  unfold settle settlement
  cases s.frame.snapshot with
  | none => rfl
  | some token =>
    dsimp only [Option.map_some]
    cases error.isNone with
    | true =>
      rw [if_pos rfl, if_pos rfl, Ledger.tryCommit_eq]
      cases Ledger.commit s.ledger token <;> rfl
    | false =>
      rw [if_neg Bool.false_ne_true, if_neg Bool.false_ne_true, Ledger.tryRollback_eq]
      cases Ledger.rollback s.ledger token <;> rfl

namespace Machine

variable {c : Context} {m last : Machine L} {l : L} {message : Message} {observer : Observer}

/-- The top frame at its end, just before its snapshot is settled, and why it has failed, if it
    has. -/
def unsettled (c : Context) (m : Machine L) : Option VmError × Local L :=
  let (error, s) := m.toLocal.deposited c
  (error, s.swept m.isRoot error)

/-- What the ledger answers when the snapshot of the top frame is settled. -/
def settlement (c : Context) (m : Machine L) : Option (Except StateError L) :=
  (m.unsettled c).2.settlement (m.unsettled c).1

/-- The end of the top frame goes by that answer. -/
theorem finalize_eq_settle (c : Context) (m : Machine L) :
    (m.toLocal.finalize c m.isRoot).2.ledger =
      ((m.unsettled c).2.settle (m.unsettled c).1).2.ledger :=
  m.toLocal.finalize_ledger c m.isRoot

/-- How the frame that was put on the stack in `m` and ends in `last` settles its snapshot, told by
    the open snapshots of a ledger. -/
inductive Settles {α : Type} (opens : L → α) (c : Context) (m last : Machine L) : Prop where
  /-- The frame was refused before it took a snapshot, and there is none to settle. -/
  | refused : last.top.snapshot = none → last.ledger = m.ledger → last.settlement c = none →
      Settles opens c m last
  /-- The frame has taken a snapshot of the ledger `b`.  That is the last one that is open; it is
      kept or undone, whichever is due, and then those are open that were before. -/
  | settled (b l : L) : b = m.top.message.entered c m.ledger →
      last.top.snapshot = some (Ledger.snapshot b).1 →
      opens (last.unsettled c).2.ledger = opens (Ledger.snapshot b).2 →
      last.settlement c = some (.ok l) → opens l = opens b →
      Ledger.state l =
        Ledger.state (if (last.unsettled c).1.isNone then (last.unsettled c).2.ledger else b) →
      Settles opens c m last

end Machine

open Machine in
/-- Ledgers whose open snapshots the machine settles in the order in which they nest. -/
structure SnapshotsNest (L : Type) [Ledger L] {α : Type} (opens : L → α) : Prop where
  /-- Every frame that an execution ends has been put on the stack by it, and settles the snapshot
      that it has taken since, without being refused. -/
  settles {c : Context} {l : L} {message : Message} {observer : Observer} {last : Machine L} :
    Visited c l message observer last → last.top.phase = .finalizing →
      ∃ m, Visited c l message observer m ∧ m.IsFresh c ∧ Course c m last ∧ Settles opens c m last
  /-- The ledger refuses no snapshot. -/
  accepted {c : Context} {l : L} {message : Message} {observer : Observer} {last : Machine L} :
    Visited c l message observer last → last.top.phase = .finalizing →
      ∀ e, last.settlement c ≠ some (.error e)
  /-- To the ledger an execution is one session, with all snapshots opened and settled in it. -/
  session (c : Context) (l : L) (message : Message) (observer : Observer) :
    Ledger.History l (execute c l message observer).ledger
  /-- The same snapshots are open as before. -/
  execute (c : Context) (l : L) (message : Message) (observer : Observer) :
    opens (execute c l message observer).ledger = opens l

namespace Machine

variable {c : Context} {m m' last : Machine L} {l : L} {message : Message} {observer : Observer}

/-! ### Where a frame comes from -/

/-- Of frames that lie on top of each other, the uppermost was put there at some time. -/
theorem Nested.innermost (h : Nested c m m') (hfresh : m.IsFresh c) :
    ∃ m₁, m₁.IsFresh c ∧ Steps c m.below.length m m₁ ∧ Course c m₁ m' := by
  induction h with
  | here hcourse => exact ⟨_, hfresh, .refl _, hcourse⟩
  | under hcourse hspawn hspawned hhigher _ ih =>
    obtain ⟨m₁, hfresh₁, hsteps, hlast⟩ := ih hspawned
    have hlow := hcourse.length
    exact ⟨m₁, hfresh₁, hcourse.steps.trans ((hsteps.weaken (by omega)).head hspawn (by omega)),
      hlast⟩

/-- Every frame has been put on the stack, and since then only it and its children have run. -/
theorem Visited.exists_course (h : Visited c l message observer last) :
    ∃ m, Visited c l message observer m ∧ m.IsFresh c ∧ Course c m last := by
  have hnested : Nested c (launch c l message observer) last := h.steps.nested
  obtain ⟨m, hfresh, hsteps, hcourse⟩ := hnested.innermost isFresh_launch
  exact ⟨m, ⟨h.depth, hsteps⟩, hfresh, hcourse⟩

/-! ### The end of a frame -/

variable [LawfulLedger L]

/-- A frame over its course, with the ledgers that it began with and has come to. -/
theorem Course.alive (h : Course c m last) (hfresh : m.IsFresh c) :
    (EngineCoupling.self L).Alive c last.top last.top m.ledger m.ledger last.ledger last.ledger := by
  obtain ⟨-, l, k, hbelow, halive⟩ := LedgerInvariant.trivial.steps_related h.steps
    (LedgerInvariant.trivial.related_of_isFresh hfresh True.intro)
  obtain ⟨rfl, rfl⟩ := hbelow.eq_of_length h.length
  exact halive

omit [LawfulLedger L] in
/-- The end of a frame knows its snapshot until it is settled. -/
theorem unsettled_snapshot (c : Context) (m : Machine L) :
    (m.unsettled c).2.frame.snapshot = m.top.snapshot :=
  Local.swept_snapshot c m.isRoot m.toLocal _

/-- A frame at the end of its course has its snapshot settled. -/
theorem Course.settled (h : Course c m last) (hfresh : m.IsFresh c)
    (hphase : last.top.phase = .finalizing) :
    Local.Settled last.top (m.top.message.entered c m.ledger) m.ledger last.ledger
      (last.unsettled c).1 (last.unsettled c).2 (last.toLocal.finalize c last.isRoot) := by
  rw [← h.message]
  exact Local.finalize_settled (h.alive hfresh) hphase last.isRoot

omit [LawfulLedger L] in
/-- A frame that is popped destroys nothing at its end. -/
theorem Popped.unsettled_eq (h : Popped c m last m') :
    last.unsettled c = last.toLocal.deposited c := by
  rw [unsettled, h.isRoot_eq]
  rfl

/-- A frame that is popped settles its snapshot on the ledger of its entry. -/
theorem Popped.settled (h : Popped c m last m') :
    Local.Settled last.top (m.top.message.entered c m.ledger) m.ledger last.ledger
      (last.toLocal.deposited c).1 (last.toLocal.deposited c).2
      (last.toLocal.finalize c last.isRoot) := by
  rw [← h.unsettled_eq]
  exact h.course.settled h.fresh h.handedTo.1

/-- It settles its own snapshot. -/
theorem Course.settles {α : Type} {opens : L → α}
    (hopens : ∀ {l l' : L}, Ledger.History l l' → opens l' = opens l) (h : Course c m last)
    (hfresh : m.IsFresh c) (hphase : last.top.phase = .finalizing) : Settles opens c m last := by
  have hsnapshot := last.unsettled_snapshot c
  -- a refused preparation leaves no snapshot to settle
  cases h.settled hfresh hphase with
  | refused hnone _ hsame _ _ _ _ =>
    refine .refused hnone hsame ?_
    rw [settlement, Local.settlement, hsnapshot, hnone]
    rfl
  | kept hsome hhistory herror hcommit hstate _ =>
    refine .settled _ _ rfl hsome (hopens hhistory) ?_ (hopens (hhistory.kept hcommit)) ?_
    · rw [settlement, Local.settlement, hsnapshot, hsome, herror]
      exact congrArg some hcommit
    · rw [herror]
      exact hstate
  | undone err hsome hhistory herror hrollback hstate _ _ =>
    refine .settled _ _ rfl hsome (hopens hhistory) ?_ (hopens (hhistory.undone hrollback)) ?_
    · rw [settlement, Local.settlement, hsnapshot, hsome, herror]
      exact congrArg some hrollback
    · rw [herror]
      exact hstate

omit [LawfulLedger L] in
/-- No settlement is refused. -/
theorem Settles.accepted {α : Type} {opens : L → α} (h : Settles opens c m last) (e : StateError) :
    last.settlement c ≠ some (.error e) := by
  intro hrefused
  cases h with
  | refused _ _ hnothing => exact absurd (hnothing.symm.trans hrefused) nofun
  | settled b l _ _ _ hsettled => exact absurd (hsettled.symm.trans hrefused) nofun

/-! ### Whole executions -/

/-- The life of a frame is a session, its end included. -/
theorem Course.history (h : Course c m last) (hfresh : m.IsFresh c)
    (hphase : last.top.phase = .finalizing) :
    Ledger.History m.ledger (last.toLocal.finalize c last.isRoot).2.ledger :=
  (EngineCoupling.finalize_alike (h.alive hfresh) hphase last.isRoot).since.left

/-- A whole execution is a history. -/
theorem history_execute (c : Context) (l : L) (message : Message) (observer : Observer) :
    Ledger.History l (execute c l message observer).ledger := by
  by_cases hdepth : message.depth ≤ c.config.maxCallDepth
  · obtain ⟨last, x, hvisited, -, hdone, heq⟩ := execute_eq l observer hdepth
    obtain ⟨hphase, hbelow, -, hledger⟩ := step_done hdone
    have hrun := (hvisited.course hbelow).history isFresh_launch hphase
    rw [← hledger] at hrun
    rw [heq]
    exact (Ledger.accessed_foldl l (prewarmed c (message.resolve l))).history.trans hrun
  · rw [execute_of_depth (Nat.lt_of_not_le hdepth)]
    exact .refl l

end Machine

/-! ### Everywhere -/

/-- What every history leaves open makes the snapshots nest. -/
theorem snapshotsNest_of_history [LawfulLedger L] {α : Type} {opens : L → α}
    (hopens : ∀ {l l' : L}, Ledger.History l l' → opens l' = opens l) : SnapshotsNest L opens where
  settles hvisited hphase := by
    obtain ⟨m, hm, hfresh, hcourse⟩ := hvisited.exists_course
    exact ⟨m, hm, hfresh, hcourse, hcourse.settles hopens hfresh hphase⟩
  accepted hvisited hphase := by
    obtain ⟨m, -, hfresh, hcourse⟩ := hvisited.exists_course
    exact (hcourse.settles hopens hfresh hphase).accepted
  session := Machine.history_execute
  execute c l message observer := hopens (Machine.history_execute c l message observer)

/-- On both ledgers, whatever world lies below and whatever snapshots are open, each frame settles
    its own snapshot. -/
theorem snapshots_nest :
    (∀ (S : Type) [WorldSource S],
        SnapshotsNest (JournaledLedger S) JournaledLedger.openSnapshots) ∧
      SnapshotsNest SnapshotLedger SnapshotLedger.copies :=
  ⟨fun _ _ => snapshotsNest_of_history fun h => (JournaledLedger.extends_of_history h).1,
    snapshotsNest_of_history SnapshotLedger.keeps_of_history⟩

/-- A contract calls another one, which asks for a rollback, while a client has a snapshot open: all
    three snapshots have the same name, and at the end the one of the client is left. -/
theorem snapshots_nest_under_one_name :
    let c : Context := { config := { fork := .istanbul }, precompiles := .none }
    let l : JournaledLedger World := (Ledger.snapshot (JournaledLedger.ofSource
      (World.setCode (World.setCode {} 8 #[0x60, 0, 0x60, 0, 0xfd])
        7 #[0x60, 0, 0x60, 0, 0x60, 0, 0x60, 0, 0x60, 0, 0x60, 8, 0x61, 0xff, 0xff, 0xf1]))).2
    let message := Message.call 1 7 0 #[] 200000
    let last := (Machine.launch c l message .off).after c 15
    Machine.Visited c l message .off last ∧ last.top.phase = .finalizing ∧
      last.ledger.openSnapshots = [0, 0, 0] ∧
      (∀ e, last.settlement c ≠ some (.error e)) ∧
      (execute c l message .off).ledger.openSnapshots = l.openSnapshots := by
  intro c l message last
  have visited : Machine.Visited c l message .off last :=
    Machine.Visited.iff_after.2 ⟨Nat.zero_le _, 15, rfl⟩
  have ended : last.top.phase = .finalizing := by decide +kernel
  refine ⟨visited, ended, by decide +kernel, ?_, ?_⟩
  · exact (snapshots_nest.1 World).accepted visited ended
  · exact (snapshots_nest.1 World).execute c l message .off

end Evm
