import Evm.ContractAddress
import Evm.Instruction.Effect

namespace Evm.Effect

/-!
# Asking for child frames

Calls and creations do not run the child.  They price the request, set gas aside for the child
and hand a message on.

* `CallForm` — what the four call instructions have in common and where they differ.
* `call`, `create` — the requests.
* `canSpawn`, `skipSpawn` — a child that is too deep or cannot be paid is skipped: the gas set
  aside comes back and the result is zero.
-/

variable {L : Type} [Ledger L]

/-- The child is not too deep, and the frame holds the value. -/
def canSpawn (c : Context) (value : Word) : Effect L Bool := do
  let f ← frame
  return f.message.childDepth ≤ c.config.maxCallDepth
    && (value = 0 || value ≤ Ledger.balance (← ledger) f.address)

/-- Goes on without the child. -/
def skipSpawn (reserved : Nat) : Effect L Flow := do
  modifyFrame fun f => { f with gas := f.gas.giveBack reserved, returnData := #[] }
  push 0
  return .next

/-! ### Calls -/

/-- The four call instructions. -/
inductive CallForm where
  | call
  | callCode
  | delegateCall
  | staticCall
  deriving DecidableEq, Repr

/-- The instruction takes a value from the stack. -/
def CallForm.takesValue : CallForm → Bool
  | .call | .callCode => true
  | _ => false

/-- The message for the child of a call. -/
def CallForm.message (form : CallForm) (parent : Message) (target : Address) (value : Word)
    (input : Bytes) (gasLimit : Nat) : Message :=
  let base : Message :=
    { kind := .call
      sender := parent.recipient
      recipient := target
      codeAddress := target
      input := input
      value := value
      gasLimit := gasLimit
      isStatic := parent.isStatic
      depth := parent.childDepth }
  match form with
  | .call => base
  | .callCode => { base with kind := .callCode, recipient := parent.recipient }
  | .delegateCall =>
    { base with
      kind := .delegateCall
      sender := parent.sender
      recipient := parent.recipient
      value := parent.value }
  | .staticCall => { base with kind := .staticCall, value := 0, isStatic := true }

/-- Whether the target of a call has to be paid for as a new account. -/
def targetIsNew (fork : Fork) (l : L) (target : Address) (value : Word) : Bool :=
  if .spuriousDragon ≤ fork then value ≠ 0 && Ledger.isDead l target
  else !Ledger.accountExists l target

/-- Sets gas aside for the child of a call; with value, the stipend comes on top for free. -/
def reserveCallGas (c : Context) (requested value : Word) : Effect L Nat := do
  match Gas.forCall c.fork (← frame).gas.remaining requested with
  | .ok gas =>
    charge gas
    return if value = 0 then gas else gas + Gas.callStipend
  | .error e => throw e

/-- Asks for a call. -/
def call (c : Context) (form : CallForm) : Effect L Flow := do
  let (requested, target) ← pop2
  let target := target.toAddress
  let value ← if form.takesValue then pop else pure 0
  let (inOffset, inLen, outOffset, outLen) ← pop4
  -- the value of the other forms does not leave the account
  if form = .call ∧ value ≠ 0 then requireNonStatic
  accessAccount c.fork target Gas.coldAccountSurcharge
  let inOffset := inOffset.clampOffset
  let inLen := inLen.clampOffset
  let outOffset := outOffset.clampOffset
  let outLen := outLen.clampOffset
  extendMemory inOffset inLen
  extendMemory outOffset outLen
  if value ≠ 0 then charge Gas.callValue
  if form = .call ∧ targetIsNew c.fork (← ledger) target value then charge Gas.newAccount
  let gasLimit ← reserveCallGas c requested value
  if ← canSpawn c value then
    let input ← readMemory inOffset inLen
    let message := form.message (← frame).message target value input gasLimit
    return .spawn message (.call outOffset outLen)
  else skipSpawn gasLimit

/-! ### Creations -/

/-- From Shanghai on, init code has a greatest length. -/
def requireInitCodeSize (c : Context) (size : Nat) : Effect L Unit := do
  if .shanghai ≤ c.fork ∧ c.config.maxInitCodeSize < size then
    throw (.initCodeSizeExceeded size c.config.maxInitCodeSize)

/-- Where a creation goes. -/
def creationTarget (kind : CallKind) (l : L) (creator : Address) (initCode : Bytes) : Address :=
  match kind with
  | .create2 salt => Address.ofCreate2 creator salt initCode
  | _ => Address.ofCreate creator (Ledger.nonce l creator)

/-- Asks for a creation; a salted one takes the salt from the stack. -/
def create (c : Context) (salted : Bool) : Effect L Flow := do
  requireNonStatic
  let (value, offset, size) ← pop3
  let kind ← if salted then CallKind.create2 <$> pop else pure CallKind.create
  let offset := offset.clampOffset
  let size := size.clampOffset
  extendMemory offset size
  requireInitCodeSize c size
  charge (Gas.initCode c.fork size)
  if salted then charge (Gas.keccakWords size)
  let initCode ← readMemory offset size
  let creator := (← frame).address
  -- the nonce is raised only when the child is prepared
  let target := creationTarget kind (← ledger) creator initCode
  let gasLimit := Gas.forCreate c.fork (← frame).gas.remaining
  charge gasLimit
  if ← canSpawn c value then
    let message : Message :=
      { kind
        sender := creator
        recipient := target
        codeAddress := target
        input := initCode
        value
        gasLimit
        depth := (← frame).message.childDepth }
    return .spawn message .create
  else skipSpawn gasLimit

end Evm.Effect
