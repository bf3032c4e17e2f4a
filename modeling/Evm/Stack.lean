import Evm.Error

namespace Evm

/-!
# The operand stack

A stack of words, top first, with a limit on its height.  An operation that fails leaves the
stack as it was.

* `Stack.push`, `Stack.pop`, `Stack.peek` — one item.
* `Stack.popN` — several items, all or none; `Stack.pop2`, `Stack.pop3` and `Stack.pop4` are the
  counts that instructions use.
* `Stack.dup`, `Stack.swap` — counted from one at the top.
* `Stack.push_eq_ok_iff`, `Stack.popN_eq_ok_iff` — when these succeed, and with what.
-/

/-- A stack of words. -/
structure Stack where
  /-- The items, top first. -/
  items : List Word := []
  /-- The greatest height. -/
  limit : Nat := 1024
  deriving DecidableEq

namespace Stack

/-- The number of items. -/
def size (s : Stack) : Nat := s.items.length

/-- Puts a word on top. -/
def push (s : Stack) (w : Word) : Except VmError Stack :=
  if s.size < s.limit then .ok { s with items := w :: s.items } else .error .stackOverflow

/-- Takes the top word. -/
def pop : Stack → Except VmError (Word × Stack)
  | ⟨a :: rest, limit⟩ => .ok (a, ⟨rest, limit⟩)
  | _ => .error .stackUnderflow

/-- Takes two words, top first. -/
def pop2 : Stack → Except VmError ((Word × Word) × Stack)
  | ⟨a :: b :: rest, limit⟩ => .ok ((a, b), ⟨rest, limit⟩)
  | _ => .error .stackUnderflow

/-- Takes three words, top first. -/
def pop3 : Stack → Except VmError ((Word × Word × Word) × Stack)
  | ⟨a :: b :: c :: rest, limit⟩ => .ok ((a, b, c), ⟨rest, limit⟩)
  | _ => .error .stackUnderflow

/-- Takes four words, top first. -/
def pop4 : Stack → Except VmError ((Word × Word × Word × Word) × Stack)
  | ⟨a :: b :: c :: d :: rest, limit⟩ => .ok ((a, b, c, d), ⟨rest, limit⟩)
  | _ => .error .stackUnderflow

/-- Takes `n` words, top first. -/
def popN (s : Stack) (n : Nat) : Except VmError (List Word × Stack) :=
  if n ≤ s.size then .ok (s.items.take n, { s with items := s.items.drop n })
  else .error .stackUnderflow

/-- The word with `depth` words above it. -/
def peek (s : Stack) (depth : Nat) : Except VmError Word :=
  match s.items[depth]? with
  | some w => .ok w
  | none => .error .stackUnderflow

/-- Puts a copy of the `n`-th word on top. -/
def dup (s : Stack) (n : Nat) : Except VmError Stack :=
  if n = 0 then .error .stackUnderflow
  else do
    let w ← s.peek (n - 1)
    s.push w

/-- Exchanges the top word with the one `n` below it. -/
def swap (s : Stack) (n : Nat) : Except VmError Stack :=
  match n, s.items with
  | n + 1, top :: rest =>
    match rest[n]? with
    | some w => .ok { s with items := w :: rest.set n top }
    | none => .error .stackUnderflow
  | _, _ => .error .stackUnderflow

/-! ### Laws -/

/-- A stack takes a word exactly if it is not full. -/
theorem push_eq_ok_iff {s s' : Stack} {w : Word} :
    s.push w = .ok s' ↔ s.size < s.limit ∧ { s with items := w :: s.items } = s' := by
  unfold push
  by_cases h : s.size < s.limit
  · simp [h]
  · simp [h]

/-- What was pushed last is popped first. -/
theorem pop_of_push {s s' : Stack} {w : Word} (h : s.push w = .ok s') : s'.pop = .ok (w, s) := by
  obtain ⟨-, rfl⟩ := push_eq_ok_iff.1 h
  rfl

/-- Words can be taken exactly if they lie on top, in this order. -/
theorem popN_eq_ok_iff {s s' : Stack} {n : Nat} {ws : List Word} :
    s.popN n = .ok (ws, s') ↔ ws.length = n ∧ s = { s' with items := ws ++ s'.items } := by
  unfold popN
  constructor
  · intro h
    split at h
    · rename_i hn
      cases h
      exact ⟨List.length_take_of_le hn, by simp⟩
    · cases h
  · rintro ⟨rfl, h⟩
    rw [h, if_pos (by simp [size])]
    simp

end Stack

end Evm
