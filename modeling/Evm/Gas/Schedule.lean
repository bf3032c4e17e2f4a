import Evm.Counter
import Evm.Error
import Evm.Fork
import Evm.Word.Arithmetic

namespace Evm.Gas

/-!
# The gas schedule

The price of everything except storage writes, fork by fork.

* Constants — `veryLow`, `callStipend` and so on, one for each fixed amount.
* `balance`, `sload`, `call` and their kin — base prices that forks changed.
* `expBytes`, `copy`, `log` and their kin — parts that grow with an operand.
* `forCall`, `forCreate` — how much a child frame may be given.
-/

/-! ### Fixed amounts -/

/-- Pushing a value that is at hand. -/
abbrev base : Nat := 2
/-- Simple arithmetic, and moving words. -/
abbrev veryLow : Nat := 3
/-- Multiplication and division. -/
abbrev low : Nat := 5
/-- Arithmetic modulo a word, and jumps. -/
abbrev mid : Nat := 8
/-- Conditional jumps. -/
abbrev high : Nat := 10
/-- Marking a place to jump to. -/
abbrev jumpDest : Nat := 1
/-- Looking up the hash of a block. -/
abbrev blockHash : Nat := 20

/-- Any access to a warm account or slot. -/
abbrev warmAccess : Nat := 100
/-- The first access to an account. -/
abbrev coldAccount : Nat := 2600
/-- The first access to a slot. -/
abbrev coldSlot : Nat := 2100

/-- Moving value with a call. -/
abbrev callValue : Nat := 9000
/-- Bringing an account into being. -/
abbrev newAccount : Nat := 25000
/-- What a child gets on top when value moves. -/
abbrev callStipend : Nat := 2300
/-- Creating a contract. -/
abbrev create : Nat := 32000
/-- Each byte of deployed code. -/
abbrev codeDepositByte : Nat := 200
/-- Each word of init code. -/
abbrev initCodeWord : Nat := 2

/-- Making a record. -/
abbrev logBase : Nat := 375
/-- Each topic of a record. -/
abbrev logTopic : Nat := 375
/-- Each byte of a record. -/
abbrev logByte : Nat := 8
/-- Each word that is copied. -/
abbrev copyWord : Nat := 3
/-- Hashing. -/
abbrev keccakBase : Nat := 30
/-- Each word that is hashed. -/
abbrev keccakWord : Nat := 6
/-- Taking a power. -/
abbrev expBase : Nat := 10

/-- A storage write fails if no more gas than this is left. -/
abbrev sstoreSentry : Nat := 2300
/-- Granted once for each account that destroys itself. -/
abbrev selfDestructRefund : Nat := 24000

/-- What a cold account costs beyond a warm one. -/
abbrev coldAccountSurcharge : Nat := coldAccount - warmAccess
/-- What a cold slot costs beyond a warm one. -/
abbrev coldSlotSurcharge : Nat := coldSlot - warmAccess

/-! ### Base prices that forks changed -/

/-- Reading a balance. -/
def balance (f : Fork) : Nat :=
  if .berlin ≤ f then warmAccess
  else if .istanbul ≤ f then 700
  else if .tangerineWhistle ≤ f then 400
  else 20

/-- Reading the code of an account, or its size. -/
def extCode (f : Fork) : Nat :=
  if .berlin ≤ f then warmAccess
  else if .tangerineWhistle ≤ f then 700
  else 20

/-- Reading the code hash of an account. -/
def extCodeHash (f : Fork) : Nat :=
  if .berlin ≤ f then warmAccess
  else if .istanbul ≤ f then 700
  else 400

/-- Reading a slot. -/
def sload (f : Fork) : Nat :=
  if .berlin ≤ f then warmAccess
  else if .istanbul ≤ f then 800
  else if .tangerineWhistle ≤ f then 200
  else 50

/-- Calling, before value and memory. -/
def call (f : Fork) : Nat :=
  if .berlin ≤ f then warmAccess
  else if .tangerineWhistle ≤ f then 700
  else 40

/-- Destroying the running contract. -/
def selfDestruct (f : Fork) : Nat := if .tangerineWhistle ≤ f then 5000 else 0

/-! ### Parts that grow with an operand -/

/-- Each byte of the exponent. -/
def expBytes (f : Fork) (exponent : Word) : Nat :=
  (if .spuriousDragon ≤ f then 50 else 10) * exponent.byteLength

/-- Each word that is hashed. -/
def keccakWords (size : Nat) : Nat := Counter.mul keccakWord (wordCount size)

/-- Each topic and each byte of a log. -/
def log (size topics : Nat) : Nat :=
  Counter.add (logTopic * topics) (Counter.mul logByte size)

/-- Each word that is copied. -/
def copy (size : Nat) : Nat := Counter.mul copyWord (wordCount size)

/-- Each word of init code, from Shanghai on. -/
def initCode (f : Fork) (size : Nat) : Nat :=
  if .shanghai ≤ f then Counter.mul initCodeWord (wordCount size) else 0

/-- Each byte of code that a creation deploys. -/
def codeDeposit (size : Nat) : Nat := Counter.mul codeDepositByte size

/-! ### Gas for child frames -/

/-- All but a 64th part, rounded down, of what is there. -/
def allButOne64th (available : Nat) : Nat := available - available / 64

/-- What a call may hand on.  From Tangerine Whistle on a request is cut to all but a 64th of
    what is left; before, a request that exceeds what is left fails. -/
def forCall (f : Fork) (available : Nat) (requested : Word) : Except VmError Nat :=
  if .tangerineWhistle ≤ f then .ok (min requested.toNat (allButOne64th available))
  else if requested.toNat ≤ available then .ok requested.toNat
  else .error .outOfGas

/-- What a creation hands on: everything, from Tangerine Whistle on all but a 64th. -/
def forCreate (f : Fork) (available : Nat) : Nat :=
  if .tangerineWhistle ≤ f then allButOne64th available else available

end Evm.Gas
