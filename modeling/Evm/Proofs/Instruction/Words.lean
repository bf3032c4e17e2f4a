import Evm.Stack

namespace Evm.Stack

/-!
# What stack operations do with words

An operation that takes words from the stack takes the topmost ones, if there are so many, and
leaves the others alone.  One that copies or exchanges words leaves alone what lies below the lowest
of them.

* `Stack.dropped` — the stack without its topmost words.
* `Stack.pop_eq`, `Stack.pop2_eq`, `Stack.pop3_eq`, `Stack.pop4_eq` — what comes of taking words.
* `Stack.Drops` — an operation of that kind.
* `Stack.Trades` — the stack after so many words are taken and so many given.
* `Stack.dup_cases`, `Stack.trades_of_swap`, `Stack.error_of_swap` — copies and exchanges.
* `Stack.Faults` — operations that fail for want of words or of room.
-/

variable {α : Type} {s s' σ : Stack} {n : Nat} {a b c : Word}

/-! ### The words below -/

/-- The stack without its topmost words. -/
def dropped (s : Stack) (n : Nat) : Stack := { s with items := s.items.drop n }

/-- Dropping nothing changes nothing. -/
theorem dropped_zero (s : Stack) : s.dropped 0 = s := rfl

/-- Words are dropped one after another. -/
theorem dropped_dropped (s : Stack) (k n : Nat) : (s.dropped k).dropped n = s.dropped (k + n) := by
  simp only [dropped, List.drop_drop]

/-- As many words are missing as are dropped. -/
theorem size_dropped (s : Stack) (k : Nat) : (s.dropped k).size = s.size - k := List.length_drop ..

/-- The words below those that are dropped. -/
theorem getD_dropped (s : Stack) (k i : Nat) :
    (s.dropped k).items.getD i 0 = s.items.getD (k + i) 0 := by
  simp only [dropped, List.getD_eq_getElem?_getD, List.getElem?_drop]

/-- The first of the words that remain. -/
theorem drop_items (h : n + 1 ≤ s.size) :
    s.items.drop n = s.items.getD n 0 :: s.items.drop (n + 1) := by
  have hless : n < s.items.length := h
  rw [List.drop_eq_getElem_cons hless, List.getD_eq_getElem?_getD, List.getElem?_eq_getElem hless,
    Option.getD_some]

/-! ### Words that are taken -/

/-- A stack that is not empty gives its first word. -/
theorem pop_eq (s : Stack) :
    s.pop = if 1 ≤ s.size then .ok (s.items.getD 0 0, s.dropped 1) else .error .stackUnderflow := by
  obtain ⟨_ | ⟨_, rest⟩, limit⟩ := s
  · rfl
  · rfl

/-- Two words come together or not at all. -/
theorem pop2_eq (s : Stack) :
    s.pop2 =
      if 2 ≤ s.size then .ok ((s.items.getD 0 0, s.items.getD 1 0), s.dropped 2)
      else .error .stackUnderflow := by
  obtain ⟨_ | ⟨_, _ | ⟨_, rest⟩⟩, limit⟩ := s
  · rfl
  · rfl
  · rfl

/-- Three words come together or not at all. -/
theorem pop3_eq (s : Stack) :
    s.pop3 =
      if 3 ≤ s.size then
        .ok ((s.items.getD 0 0, s.items.getD 1 0, s.items.getD 2 0), s.dropped 3)
      else .error .stackUnderflow := by
  obtain ⟨_ | ⟨_, _ | ⟨_, _ | ⟨_, rest⟩⟩⟩, limit⟩ := s
  · rfl
  · rfl
  · rfl
  · rfl

/-- Four words come together or not at all. -/
theorem pop4_eq (s : Stack) :
    s.pop4 =
      if 4 ≤ s.size then
        .ok ((s.items.getD 0 0, s.items.getD 1 0, s.items.getD 2 0, s.items.getD 3 0), s.dropped 4)
      else .error .stackUnderflow := by
  obtain ⟨_ | ⟨_, _ | ⟨_, _ | ⟨_, _ | ⟨_, rest⟩⟩⟩⟩, limit⟩ := s
  · rfl
  · rfl
  · rfl
  · rfl
  · rfl

/-- An operation that takes so many words from the top and gives something made of them, or fails
    for want of words. -/
def Drops (n : Nat) (f : Stack → Except VmError (α × Stack)) : Prop :=
  ∃ given : Stack → α, ∀ s, f s =
    if n ≤ s.size then .ok (given s, s.dropped n) else .error .stackUnderflow

/-- One word is dropped. -/
theorem drops_pop : Drops 1 pop := ⟨_, pop_eq⟩

/-- Two words are dropped. -/
theorem drops_pop2 : Drops 2 pop2 := ⟨_, pop2_eq⟩

/-- Three words are dropped. -/
theorem drops_pop3 : Drops 3 pop3 := ⟨_, pop3_eq⟩

/-- Four words are dropped. -/
theorem drops_pop4 : Drops 4 pop4 := ⟨_, pop4_eq⟩

namespace Drops

variable {f : Stack → Except VmError (α × Stack)}

/-- What a stack gives is no longer there. -/
theorem of_ok (hf : Drops n f) {x : α} (h : f s = .ok (x, s')) :
    n ≤ s.size ∧ s' = s.dropped n := by
  obtain ⟨given, hgiven⟩ := hf
  rw [hgiven] at h
  split at h
  · rename_i henough
    cases h
    exact ⟨henough, rfl⟩
  · cases h

/-- A stack with enough words gives them. -/
theorem of_error (hf : Drops n f) {e : VmError} (h : f s = .error e) : e = .stackUnderflow := by
  obtain ⟨given, hgiven⟩ := hf
  rw [hgiven] at h
  split at h
  · cases h
  · cases h
    rfl

end Drops

/-- The stack that has given a word. -/
theorem eq_of_pop (h : s.pop = .ok (a, s')) : s = { s' with items := a :: s'.items } := by
  obtain ⟨henough, rfl⟩ := drops_pop.of_ok h
  rw [pop_eq, if_pos henough] at h
  cases h
  rw [dropped, ← drop_items henough]
  rfl

/-- The stack that has given two words. -/
theorem eq_of_pop2 (h : s.pop2 = .ok ((a, b), s')) : s = { s' with items := a :: b :: s'.items } := by
  obtain ⟨henough, rfl⟩ := drops_pop2.of_ok h
  rw [pop2_eq, if_pos henough] at h
  cases h
  rw [dropped, ← drop_items henough, ← drop_items (by omega)]
  rfl

/-- The stack that has given three words. -/
theorem eq_of_pop3 (h : s.pop3 = .ok ((a, b, c), s')) :
    s = { s' with items := a :: b :: c :: s'.items } := by
  obtain ⟨henough, rfl⟩ := drops_pop3.of_ok h
  rw [pop3_eq, if_pos henough] at h
  cases h
  rw [dropped, ← drop_items henough, ← drop_items (by omega), ← drop_items (by omega)]
  rfl

/-- One more word can be taken. -/
theorem pop_dropped (h : n + 1 ≤ s.size) :
    (s.dropped n).pop = .ok (s.items.getD n 0, s.dropped (n + 1)) := by
  rw [pop_eq, size_dropped, if_pos (by omega), dropped_dropped, getD_dropped]
  rfl

/-- Two more words can be taken. -/
theorem pop2_dropped (h : n + 2 ≤ s.size) :
    (s.dropped n).pop2 = .ok ((s.items.getD n 0, s.items.getD (n + 1) 0), s.dropped (n + 2)) := by
  rw [pop2_eq, size_dropped, if_pos (by omega), dropped_dropped, getD_dropped, getD_dropped]
  rfl

/-- Three more words can be taken. -/
theorem pop3_dropped (h : n + 3 ≤ s.size) :
    (s.dropped n).pop3 = .ok ((s.items.getD n 0, s.items.getD (n + 1) 0, s.items.getD (n + 2) 0),
      s.dropped (n + 3)) := by
  rw [pop3_eq, size_dropped, if_pos (by omega), dropped_dropped, getD_dropped, getD_dropped,
    getD_dropped]
  rfl

/-- Four more words can be taken. -/
theorem pop4_dropped (h : n + 4 ≤ s.size) :
    (s.dropped n).pop4 = .ok ((s.items.getD n 0, s.items.getD (n + 1) 0, s.items.getD (n + 2) 0,
      s.items.getD (n + 3) 0), s.dropped (n + 4)) := by
  rw [pop4_eq, size_dropped, if_pos (by omega), dropped_dropped, getD_dropped, getD_dropped,
    getD_dropped, getD_dropped]
  rfl

/-! ### Words taken and given -/

/-- The stack after an instruction that takes `d` words and gives `a`. -/
structure Trades (σ : Stack) (d a : Nat) (s : Stack) : Prop where
  enough : d ≤ σ.size
  size : s.size = σ.size - d + a
  /-- The words below stay where they are. -/
  below : s.items.drop a = σ.items.drop d
  limit : s.limit = σ.limit

namespace Trades

variable {d a : Nat}

/-- Dropping words is taking without giving. -/
theorem dropped (h : d ≤ σ.size) : σ.Trades d 0 (σ.dropped d) := ⟨h, σ.size_dropped d, rfl, rfl⟩

/-- What has been taken from without giving is the rest of the stack. -/
theorem eq_dropped (h : σ.Trades d 0 s) : s = σ.dropped d := by
  obtain ⟨-, -, below, limit⟩ := h
  cases s
  cases below
  cases limit
  rfl

/-- Giving one more word. -/
theorem push (h : σ.Trades d a s) (w : Word) :
    σ.Trades d (a + 1) { s with items := w :: s.items } where
  enough := h.enough
  size := congrArg (· + 1) h.size
  below := h.below
  limit := h.limit

end Trades

/-- A word is copied if it is there. -/
theorem dup_cases (s : Stack) (n : Nat) :
    s.dup n = .error .stackUnderflow ∨ ∃ w, n ≤ s.size ∧ s.dup n = s.push w := by
  unfold dup
  split
  · exact .inl rfl
  · unfold peek
    cases hw : s.items[n - 1]? with
    | none => exact .inl rfl
    | some w =>
      have deep : n - 1 < s.items.length := (List.getElem?_eq_some_iff.1 hw).1
      exact .inr ⟨w, by unfold size; omega, rfl⟩

/-- An exchange changes no word below the lower one. -/
theorem trades_of_swap (h : s.swap n = .ok s') : s.Trades (n + 1) (n + 1) s' := by
  unfold swap at h
  split at h
  · rename_i n top rest hitems
    split at h
    · rename_i w hw
      cases h
      have deep : n < rest.length := (List.getElem?_eq_some_iff.1 hw).1
      have size : s.size = rest.length + 1 := congrArg List.length hitems
      refine ⟨by omega, ?_, ?_, rfl⟩
      · show (w :: rest.set n top).length = _
        rw [List.length_cons, List.length_set]
        omega
      · rw [hitems, List.drop_succ_cons, List.drop_succ_cons,
          List.drop_set_of_lt (Nat.lt_succ_self n)]
    · cases h
  · cases h

/-- A swap needs words, and no room. -/
theorem error_of_swap {e : VmError} (h : s.swap n = .error e) : e = .stackUnderflow := by
  unfold swap at h
  split at h
  · split at h
    · cases h
    · cases h
      rfl
  · cases h
    rfl

/-! ### Failures -/

/-- If the operation fails, then for want of words or of room. -/
def Faults {β : Type} (f : Stack → Except VmError β) : Prop :=
  ∀ ⦃s : Stack⦄ ⦃e : VmError⦄, f s = .error e → e = .stackUnderflow ∨ e = .stackOverflow

/-- A word only fails to go on a full stack. -/
theorem faults_push (w : Word) : Faults (·.push w) := by
  intro s e h
  change s.push w = _ at h
  unfold push at h
  split at h
  · cases h
  · cases h
    exact .inr rfl

/-- What drops words fails for want of them. -/
theorem Drops.faults {f : Stack → Except VmError (α × Stack)} (hf : Drops n f) : Faults f :=
  fun _ _ h => .inl (hf.of_error h)

/-- A copy fails for want of a word or of room. -/
theorem faults_dup (n : Nat) : Faults (·.dup n) := by
  intro s e h
  change s.dup n = _ at h
  obtain hfails | ⟨w, -, hpush⟩ := s.dup_cases n
  · rw [hfails] at h
    cases h
    exact .inl rfl
  · exact faults_push w (hpush.symm.trans h)

/-- A swap fails for want of words. -/
theorem faults_swap (n : Nat) : Faults (·.swap n) := fun _ _ h => .inl (error_of_swap h)

/-- An operation that gives nothing, as one that gives something. -/
theorem Faults.update {f : Stack → Except VmError Stack} (hf : Faults f) :
    Faults fun s => (return ((), ← f s) : Except VmError (Unit × Stack)) := by
  intro s e h
  dsimp only at h
  cases hstack : f s with
  | ok stack =>
    rw [hstack] at h
    cases h
  | error err =>
    rw [hstack] at h
    cases h
    exact hf hstack

end Evm.Stack
