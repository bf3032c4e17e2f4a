import Mathlib.Data.List.TakeWhile
import Evm.Proofs.Machine.Existence

namespace Evm

/-!
# Names of snapshots

A client settles a snapshot by the name that it was given.  The copying ledger names a snapshot by
its place among the copies, so no two open snapshots share a name.  The journaled ledger names it by
the length of the journal, which two snapshots share if nothing was noted between them; then a name
that has been settled still stands for the snapshot around it, and settling it again closes that one
as well.

* `Ledger.settle` — keeps a snapshot or undoes it.
* `JournaledLedger.Ordered` — no open snapshot is longer than a later one, or than the journal.
* `JournaledLedger.Used.ordered` — so it is whatever a client does.
* `SettlesByName` — what settling the latest snapshot does, and settling it once more.
* `snapshots_settle_by_name` — both ledgers settle like that.
-/

/-- Keeps a snapshot or undoes it. -/
def Ledger.settle {L : Type} [Ledger L] (undo : Bool) (l : L) (token : Nat) :
    Except StateError L :=
  if undo then Ledger.rollback l token else Ledger.commit l token

namespace JournaledLedger

variable {S : Type} [WorldSource S] {source : S} {l l' : JournaledLedger S} {token : Nat}

/-! ### Looking names up -/

omit [WorldSource S] in
/-- The latest snapshot is found at once. -/
@[simp] theorem openBelow_cons_self (token : Nat) (rest : List Nat) :
    openBelow (token :: rest) token = .ok rest := by
  simp [openBelow]

omit [WorldSource S] in
/-- A name that is found stands for the latest snapshot that has it. -/
theorem eq_append_of_openBelow {snapshots below : List Nat}
    (h : openBelow snapshots token = .ok below) :
    ∃ above, snapshots = above ++ token :: below := by
  unfold openBelow at h
  split at h
  · rename_i found rest hdrop
    -- the search has stopped at the token
    have hfound : found = token := by
      have hstop := List.head?_dropWhile_not (· != token) snapshots
      rw [hdrop] at hstop
      simpa using hstop
    cases h
    refine ⟨snapshots.takeWhile (· != token), ?_⟩
    rw [← hfound, ← hdrop, hfound, List.takeWhile_append_dropWhile]
  · cases h

omit [WorldSource S] in
/-- A token is refused exactly when no open snapshot has it. -/
theorem openBelow_eq_error_iff {snapshots : List Nat} :
    openBelow snapshots token = .error (.unknownSnapshot token) ↔ token ∉ snapshots := by
  constructor
  · intro h hmem
    unfold openBelow at h
    split at h
    · cases h
    · rename_i hdrop
      have hall := List.dropWhile_eq_nil_iff.1 hdrop token hmem
      simp at hall
  · intro hmem
    have hdrop : snapshots.dropWhile (· != token) = [] := by
      rw [List.dropWhile_eq_nil_iff]
      intro other hother
      rw [bne_iff_ne]
      rintro rfl
      exact hmem hother
    unfold openBelow
    rw [hdrop]

/-- Which snapshots are open afterwards is a matter of the names alone, and so is whether the ledger
    refuses. -/
theorem map_settle (undo : Bool) (l : JournaledLedger S) (token : Nat) :
    (Ledger.settle undo l token).map openSnapshots = openBelow l.openSnapshots token := by
  cases undo with
  | false =>
    rw [Ledger.settle, if_neg Bool.false_ne_true, ledger_commit, commit]
    cases openBelow l.openSnapshots token <;> rfl
  | true =>
    rw [Ledger.settle, if_pos rfl, ledger_rollback, rollback]
    cases openBelow l.openSnapshots token <;> rfl

/-- A token that is found settles, and what stood below it stays open. -/
theorem settle_of_openBelow {below : List Nat} (undo : Bool)
    (h : openBelow l.openSnapshots token = .ok below) :
    ∃ l', Ledger.settle undo l token = .ok l' ∧ l'.openSnapshots = below := by
  have hmap := map_settle undo l token
  rw [h] at hmap
  cases hsettle : Ledger.settle undo l token with
  | error e =>
    rw [hsettle] at hmap
    cases hmap
  | ok l' =>
    rw [hsettle] at hmap
    exact ⟨l', rfl, Except.ok.inj hmap⟩

/-- The ledger refuses exactly the tokens that are not open. -/
theorem settle_eq_error_iff (undo : Bool) :
    Ledger.settle undo l token = .error (.unknownSnapshot token) ↔ token ∉ l.openSnapshots := by
  have hmap := map_settle undo l token
  rw [← openBelow_eq_error_iff, ← hmap]
  cases Ledger.settle undo l token with
  | ok l' => exact ⟨nofun, nofun⟩
  | error e => simp [Except.map]

/-- Only undoing a snapshot takes entries of the journal away. -/
theorem journal_settle {undo : Bool} (h : Ledger.settle undo l token = .ok l') :
    l'.journal = if undo then l.journal.take token else l.journal := by
  have hmap := map_settle undo l token
  rw [h] at hmap
  cases undo with
  | false =>
    simp only [Ledger.settle, Bool.false_eq_true, if_false, ledger_commit, commit, ← hmap] at h
    exact (congrArg journal (Except.ok.inj h)).symm
  | true =>
    simp only [Ledger.settle, if_true, ledger_rollback, rollback, ← hmap] at h
    exact (congrArg journal (Except.ok.inj h)).symm

/-! ### The order of the open snapshots -/

/-- No open snapshot is longer than a later one, and none is longer than the journal. -/
def Ordered (l : JournaledLedger S) : Prop :=
  (l.journal.size :: l.openSnapshots).Pairwise (· ≥ ·)

namespace Ordered

omit [WorldSource S] in
/-- More may be noted in the journal. -/
theorem of_extends (h : l.Ordered) (hextends : Extends l l') : l'.Ordered := by
  obtain ⟨hopen, es, hjournal, -⟩ := hextends
  obtain ⟨hbound, hrest⟩ := List.pairwise_cons.1 h
  have longer : l.journal.size ≤ l'.journal.size := by simp [hjournal]
  rw [Ordered, hopen, List.pairwise_cons]
  exact ⟨fun t ht => Nat.le_trans (hbound t ht) longer, hrest⟩

omit [WorldSource S] in
/-- A new snapshot has the latest token, so the order is kept. -/
theorem snapshot (h : l.Ordered) : l.snapshot.2.Ordered := by
  obtain ⟨hbound, -⟩ := List.pairwise_cons.1 h
  refine List.pairwise_cons.2 ⟨fun t ht => ?_, h⟩
  rcases List.mem_cons.1 ht with rfl | hrest
  · exact Nat.le_refl _
  · exact hbound t hrest

/-- What is left in the journal when a snapshot is undone is as long as that was. -/
theorem settle (h : l.Ordered) (undo : Bool) (hsettle : Ledger.settle undo l token = .ok l') :
    l'.Ordered := by
  have hmap := map_settle undo l token
  rw [hsettle] at hmap
  obtain ⟨above, habove⟩ := eq_append_of_openBelow hmap.symm
  obtain ⟨hbound, hopen⟩ := List.pairwise_cons.1 h
  rw [habove, List.pairwise_append] at hopen
  obtain ⟨hbelow, hrest⟩ := List.pairwise_cons.1 hopen.2.1
  -- the snapshot was open, so there is that much of the journal to keep
  have inside : token ≤ l.journal.size := by
    refine hbound token ?_
    rw [habove]
    exact List.mem_append_right _ List.mem_cons_self
  have journal : token ≤ l'.journal.size := by
    rw [journal_settle hsettle]
    split
    · simpa using inside
    · exact inside
  exact List.pairwise_cons.2 ⟨fun t ht => Nat.le_trans (hbelow t ht) journal, hrest⟩

/-- A call of the ledger keeps the order, by whatever number it settles a snapshot. -/
theorem call (h : l.Ordered) (call : LedgerCall) : (call.apply l).Ordered := by
  cases call with
  | op o => exact h.of_extends (extends_of_history (.op l o))
  | snapshot => exact h.snapshot
  | commit token => exact Ledger.orUnchanged_induction h fun l' hl' => h.settle false hl'
  | rollback token => exact Ledger.orUnchanged_induction h fun l' hl' => h.settle true hl'

omit [WorldSource S] in
/-- A name that is open once more below the latest snapshot is that of the one next to it. -/
theorem mem_below_iff (h : l.Ordered) {below : List Nat} (hopen : l.openSnapshots = token :: below) :
    token ∈ below ↔ below.head? = some token := by
  obtain ⟨-, hrest⟩ := List.pairwise_cons.1 h
  rw [hopen] at hrest
  -- the order leaves no room for another token between two equal ones
  cases below with
  | nil => simp
  | cons next below =>
    obtain ⟨hlatest, hnext⟩ := List.pairwise_cons.1 hrest
    have smaller : next ≤ token := hlatest next List.mem_cons_self
    constructor
    · intro hmem
      rcases List.mem_cons.1 hmem with rfl | hlater
      · rfl
      · -- the next one is between the two that share the name
        have larger : token ≤ next := (List.pairwise_cons.1 hnext).1 token hlater
        rw [Nat.le_antisymm smaller larger]
        rfl
    · intro hhead
      rw [Option.some.inj hhead]
      exact List.mem_cons_self

end Ordered

/-- Whatever a client does, the open snapshots are in order. -/
theorem Used.ordered (h : Used source l) : l.Ordered := by
  induction h with
  | fresh => exact List.pairwise_singleton ..
  | called call _ ih => exact ih.call call
  | begun => exact List.pairwise_singleton ..
  | executed c message observer _ ih =>
    exact ih.of_extends (extends_of_history (Machine.history_execute c _ message observer))

end JournaledLedger

/-! ### Settling once, and once more -/

/-- How a ledger settles the latest of its open snapshots.  What is known of the open snapshots is
    listed latest first, each with its name. -/
structure SettlesByName {L O : Type} [Ledger L] (opens : L → List O) (name : O → Nat) (l : L) :
    Prop where
  /-- The latest snapshot can be kept and can be undone.  It is closed by that, and no other is. -/
  closes (undo : Bool) {latest : O} {rest : List O} : opens l = latest :: rest →
    ∃ l', Ledger.settle undo l (name latest) = .ok l' ∧ opens l' = rest
  /-- Its name is refused from then on exactly if the snapshot around it has another one. -/
  refused_iff (undo again : Bool) {latest : O} {rest : List O} {l' : L} :
    opens l = latest :: rest → Ledger.settle undo l (name latest) = .ok l' →
      (Ledger.settle again l' (name latest) = .error (.unknownSnapshot (name latest)) ↔
        rest.head?.map name ≠ some (name latest))
  /-- If not, the name stands for the snapshot around it, and that is closed as well. -/
  closes_outer (undo again : Bool) {latest outer : O} {rest : List O} {l' : L} :
    opens l = latest :: outer :: rest → name outer = name latest →
      Ledger.settle undo l (name latest) = .ok l' →
      ∃ l'', Ledger.settle again l' (name latest) = .ok l'' ∧ opens l'' = rest

open JournaledLedger in
/-- Tokens in order name one snapshot each. -/
theorem JournaledLedger.Ordered.settlesByName {S : Type} [WorldSource S] {l : JournaledLedger S}
    (h : l.Ordered) : SettlesByName openSnapshots id l := by
  have closed {undo : Bool} {token : Nat} {rest : List Nat} {l' : JournaledLedger S}
      (hopen : l.openSnapshots = token :: rest) (hsettle : Ledger.settle undo l token = .ok l') :
      l'.openSnapshots = rest := by
    have hmap := map_settle undo l token
    rw [hsettle, hopen, openBelow_cons_self] at hmap
    exact Except.ok.inj hmap
  refine ⟨fun undo token rest hopen => ?_, fun undo again token rest l' hopen hsettle => ?_,
    fun undo again token outer rest l' hopen hname hsettle => ?_⟩
  · refine settle_of_openBelow undo ?_
    rw [hopen]
    -- the latest token is found at once, and what stood below it stays
    exact openBelow_cons_self token rest
  · rw [id_def, settle_eq_error_iff, closed hopen hsettle, h.mem_below_iff hopen, Option.map_id]
    exact Iff.rfl
  · refine settle_of_openBelow again ?_
    rw [closed hopen hsettle, ← hname]
    exact openBelow_cons_self outer rest

namespace SnapshotLedger

/-- The open snapshots with their places, latest first. -/
def opens (l : SnapshotLedger) : List ((World × AccessList) × Nat) :=
  l.copies.toList.zipIdx.reverse

/-- The latest snapshot is the last copy, and the others are those before it. -/
theorem opens_eq_cons {l : SnapshotLedger} {latest : (World × AccessList) × Nat}
    {rest : List ((World × AccessList) × Nat)} (h : l.opens = latest :: rest) :
    l.copies.size = latest.2 + 1 ∧ rest = (l.copies.take latest.2).toList.zipIdx.reverse := by
  unfold opens at h
  rcases List.eq_nil_or_concat l.copies.toList with hnone | ⟨before, last, hcopies⟩
  · rw [hnone] at h
    cases h
  · rw [hcopies, List.concat_eq_append, List.zipIdx_append, List.reverse_append] at h
    obtain ⟨rfl, rfl⟩ := List.cons.inj h
    have hsize : l.copies.size = before.length + 1 := by
      rw [← Array.length_toList, hcopies, List.length_concat]
    refine ⟨by simpa using hsize, ?_⟩
    simp [hcopies]

/-- A copy is settled by its place, and only those before it are left. -/
theorem settle_of_lt {l : SnapshotLedger} (undo : Bool) {token : Nat}
    (h : token < l.copies.size) :
    ∃ l', Ledger.settle undo l token = .ok l' ∧ l'.copies = l.copies.take token := by
  cases undo with
  | false =>
    refine ⟨{ l with copies := l.copies.take token }, ?_, rfl⟩
    rw [Ledger.settle, if_neg Bool.false_ne_true, ledger_commit]
    exact if_pos h
  | true =>
    refine ⟨{ l with
      world := l.copies[token].1
      access := l.copies[token].2
      copies := l.copies.take token }, ?_, rfl⟩
    simp [Ledger.settle, rollback, h]

/-- A token that was never given out is refused. -/
theorem settle_of_le {l : SnapshotLedger} (undo : Bool) {token : Nat}
    (h : l.copies.size ≤ token) :
    Ledger.settle undo l token = .error (.unknownSnapshot token) := by
  cases undo with
  | false =>
    rw [Ledger.settle, if_neg Bool.false_ne_true, ledger_commit]
    exact if_neg (Nat.not_lt.2 h)
  | true => simp [Ledger.settle, rollback, h]

/-- No two copies have the same place. -/
theorem nodup_opens (l : SnapshotLedger) : (l.opens.map Prod.snd).Nodup := by
  rw [opens, List.map_reverse, List.nodup_reverse, List.zipIdx_map_snd]
  exact List.nodup_range'

/-- The copying ledger settles by name, whatever it holds. -/
theorem settlesByName (l : SnapshotLedger) : SettlesByName opens Prod.snd l := by
  have settled {undo : Bool} {latest : (World × AccessList) × Nat}
      {rest : List ((World × AccessList) × Nat)} {l' : SnapshotLedger}
      (hopen : l.opens = latest :: rest) (hsettle : Ledger.settle undo l latest.2 = .ok l') :
      l'.copies = l.copies.take latest.2 := by
    obtain ⟨hsize, -⟩ := opens_eq_cons hopen
    have inside : latest.2 < l.copies.size := by omega
    obtain ⟨l₁, hl₁, hcopies⟩ := settle_of_lt undo inside
    exact Except.ok.inj (hl₁.symm.trans hsettle) ▸ hcopies
  refine ⟨fun undo latest rest hopen => ?_, fun undo again latest rest l' hopen hsettle => ?_,
    fun undo again latest outer rest l' hopen hname _ => ?_⟩
  -- the place of the latest copy is its token
  · obtain ⟨hsize, hrest⟩ := opens_eq_cons hopen
    have inside : latest.2 < l.copies.size := by omega
    obtain ⟨l', hl', hcopies⟩ := settle_of_lt undo inside
    refine ⟨l', hl', ?_⟩
    rw [opens, hcopies, hrest]
  · -- the place is past the last copy now, and those that are left have smaller ones
    obtain ⟨hsize, -⟩ := opens_eq_cons hopen
    have short : l'.copies.size ≤ latest.2 := by
      rw [settled hopen hsettle]
      simp
    refine iff_of_true (settle_of_le again short) fun hhead => ?_
    have distinct := l.nodup_opens
    rw [hopen, List.map_cons, List.nodup_cons] at distinct
    refine distinct.1 (List.mem_of_mem_head? ?_)
    rw [List.head?_map]
    exact hhead
  · have distinct := l.nodup_opens
    rw [hopen, List.map_cons, List.map_cons, hname] at distinct
    exact absurd List.mem_cons_self (List.nodup_cons.1 distinct).1

end SnapshotLedger

/-- **Snapshots are settled by name.**  The latest snapshot can be settled, and then its name is
    refused, except where the journaled ledger has given the same name to the snapshot around it.
    That happens exactly if nothing was noted between them.  The copying ledger never does so. -/
theorem snapshots_settle_by_name {S : Type} [WorldSource S] (source : S) :
    (∀ l : JournaledLedger S, l.Used source →
        SettlesByName JournaledLedger.openSnapshots id l ∧
          ((Ledger.snapshot l).1 ∈ l.openSnapshots ↔
            l.openSnapshots.head? = some l.journal.size)) ∧
      ∀ l : SnapshotLedger, SettlesByName SnapshotLedger.opens Prod.snd l ∧
        (l.opens.map Prod.snd).Nodup := by
  refine ⟨fun l hused => ⟨hused.ordered.settlesByName, ?_⟩,
    fun l => ⟨l.settlesByName, l.nodup_opens⟩⟩
  exact hused.ordered.snapshot.mem_below_iff rfl

/-- A balance is written between two snapshots, so each has a name of its own: the inner one is
    undone, and the ledger refuses to keep it afterwards. -/
theorem snapshots_settle_by_name_apart :
    let l := Ledger.afterCalls (JournaledLedger.ofSource ({} : World))
      [.snapshot, .op (.setBalance 7 1), .snapshot]
    l.Used {} ∧ l.openSnapshots = [1, 0] ∧
      ∃ l', Ledger.settle true l 1 = .ok l' ∧ l'.openSnapshots = [0] ∧
        Ledger.settle false l' 1 = .error (.unknownSnapshot 1) := by
  intro l
  have used : l.Used {} := JournaledLedger.Used.fresh.afterCalls _
  have opened : l.openSnapshots = [1, 0] := by decide +kernel
  obtain ⟨hsettles, -⟩ := (snapshots_settle_by_name ({} : World)).1 l used
  obtain ⟨l', hundone, hleft⟩ := hsettles.closes true opened
  exact ⟨used, opened, l', hundone, hleft,
    (hsettles.refused_iff true false opened hundone).2 (by decide)⟩

/-- Two snapshots in a row have one name.  Once the inner one is kept, the name is not refused but
    closes the outer one. -/
theorem snapshots_settle_by_name_not_once :
    let l := Ledger.afterCalls (JournaledLedger.ofSource ({} : World)) [.snapshot, .snapshot]
    l.Used {} ∧ l.openSnapshots = [0, 0] ∧
      ∃ l' l'', Ledger.commit l 0 = .ok l' ∧ l'.openSnapshots = [0] ∧
        Ledger.commit l' 0 = .ok l'' ∧ l''.openSnapshots = [] :=
  ⟨JournaledLedger.Used.fresh.afterCalls _, by decide +kernel, _, _, rfl, by decide +kernel, rfl,
    by decide +kernel⟩

end Evm
