import Evm.Counter
import Evm.Fork

namespace Evm

/-!
# Configuration

* `Config` — the fork and four limits.
* `Config.validate` — refuses limits under which nothing could run; passes all others unchanged
  (`Config.validate_eq_ok_iff`).
* `Config.ofVariables` — a configuration from the values of two environment variables.
-/

/-- The fork and the limits of an execution. -/
structure Config where
  fork : Fork := .shanghai
  maxCallDepth : Nat := 1024
  maxCodeSize : Nat := 24576
  maxInitCodeSize : Nat := 49152
  stackLimit : Nat := 1024
  deriving DecidableEq, Repr

/-- Why a configuration is refused. -/
inductive ConfigError where
  /-- The document is malformed. -/
  | malformed
  /-- A limit is unusable. -/
  | unusable (reason : String)
  deriving DecidableEq, Repr

/-- The text of a refused configuration. -/
def ConfigError.message : ConfigError → String
  | .malformed => "config parse error"
  | .unusable reason => "invalid config: " ++ reason

namespace Config

/-- Passes a configuration whose limits are all positive. -/
def validate (c : Config) : Except ConfigError Config :=
  if c.maxCallDepth = 0 then .error (.unusable "max_call_depth must be positive")
  else if c.stackLimit = 0 then .error (.unusable "stack_limit must be positive")
  else if c.maxCodeSize = 0 ∨ c.maxInitCodeSize = 0 then
    .error (.unusable "code size limits must be positive")
  else .ok c

/-- A configuration passes exactly if all its limits are positive. -/
theorem validate_eq_ok_iff {c c' : Config} :
    c.validate = .ok c' ↔ c = c' ∧ 0 < c.maxCallDepth ∧ 0 < c.stackLimit ∧ 0 < c.maxCodeSize
      ∧ 0 < c.maxInitCodeSize := by
  unfold validate
  grind

/-! ### Environment variables -/

/-- A number in ASCII digits after an optional plus sign, within the range of counters. -/
def parseCounter (s : String) : Option Nat :=
  let digits := match s.toList with
    | '+' :: rest => rest
    | cs => cs
  if digits.isEmpty ∨ !digits.all Char.isDigit then none
  else
    let n := digits.foldl (fun n c => n * 10 + (c.toNat - '0'.toNat)) 0
    if n ≤ Counter.limit then some n else none

/-- The configuration from a fork name and a call depth, each of which may be missing.  What
    cannot be read, and a depth of zero, counts as missing. -/
def ofVariables (fork depth : Option String) : Config where
  fork := (fork.bind Fork.parse).getD default
  maxCallDepth := ((depth.bind parseCounter).filter (0 < ·)).getD 1024

end Config

end Evm
