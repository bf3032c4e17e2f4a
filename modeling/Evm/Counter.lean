namespace Evm.Counter

/-!
# Counters

Gas amounts, refunds and nonces are 64-bit counters, and so are offsets, sizes and depths.  They are
natural numbers here.  Most operations that could leave the range stop at its end; the few that do
not start again from zero.

* `Counter.limit` — the largest value, `2 ^ 64 - 1`.
* `Counter.checked` — a number, if it is a counter.
* `Counter.wrap` — what 64 bits keep of a number.
* `Counter.add`, `Counter.mul` — sum and product that stop at `limit`; exact below it and monotone
  throughout.
-/

/-- The largest 64-bit value. -/
abbrev limit : Nat := 18446744073709551615

/-- The number, if it is within the range. -/
def checked (n : Nat) : Option Nat := if n ≤ limit then some n else none

/-- The number as far as 64 bits hold it.  Past the end of the range it starts again from zero. -/
def wrap (n : Nat) : Nat := n % (limit + 1)

/-- Sum that stops at `limit`. -/
def add (a b : Nat) : Nat := min (a + b) limit

/-- Product that stops at `limit`. -/
def mul (a b : Nat) : Nat := min (a * b) limit

/-- A wrapped number fits the counter. -/
theorem wrap_le_limit (n : Nat) : wrap n ≤ limit := Nat.le_of_lt_succ (Nat.mod_lt n (Nat.succ_pos _))

/-- A number within the range is kept. -/
theorem wrap_of_le {n : Nat} (h : n ≤ limit) : wrap n = n := Nat.mod_eq_of_lt (Nat.lt_succ_of_le h)

/-- Wrapping never makes a number larger. -/
theorem wrap_le (n : Nat) : wrap n ≤ n := Nat.mod_le n _

/-- What 64 bits keep is always within the range. -/
theorem checked_wrap (n : Nat) : checked (wrap n) = some (wrap n) := if_pos (wrap_le_limit n)

/-- A sum fits the counter. -/
theorem add_le_limit (a b : Nat) : add a b ≤ limit := Nat.min_le_right _ _

/-- A product fits the counter. -/
theorem mul_le_limit (a b : Nat) : mul a b ≤ limit := Nat.min_le_right _ _

/-- A sum within the range is exact. -/
theorem add_of_le {a b : Nat} (h : a + b ≤ limit) : add a b = a + b := Nat.min_eq_left h

/-- A product within the range is exact. -/
theorem mul_of_le {a b : Nat} (h : a * b ≤ limit) : mul a b = a * b := Nat.min_eq_left h

/-- Saturation keeps sums monotone. -/
theorem add_mono {a b c d : Nat} (h : a ≤ c) (k : b ≤ d) : add a b ≤ add c d := by
  unfold add
  omega

/-- Saturation keeps products monotone. -/
theorem mul_mono {a b c d : Nat} (h : a ≤ c) (k : b ≤ d) : mul a b ≤ mul c d := by
  have := Nat.mul_le_mul h k
  unfold mul
  omega

end Evm.Counter
