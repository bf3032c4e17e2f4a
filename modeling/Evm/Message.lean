import Evm.Counter
import Evm.Word.Basic

namespace Evm

/-!
# Messages and logs

* `Message` — a request to call a contract or to create one; every frame answers one.
* `Message.call`, `Message.create`, `Message.create2` — the messages of a transaction.
* `Message.childDepth` — the depth of the frames that a frame asks for.
* `Log` — what a contract leaves behind for observers.
-/

/-- How a frame is entered. -/
inductive CallKind where
  /-- A plain call. -/
  | call
  /-- The code of another account, run on the caller's own storage. -/
  | callCode
  /-- The same, and sender and value stay those of the caller. -/
  | delegateCall
  /-- A call that may not change state. -/
  | staticCall
  /-- A creation whose address follows from the nonce of the sender. -/
  | create
  /-- A creation whose address follows from a salt. -/
  | create2 (salt : Word)
  deriving DecidableEq, Repr

namespace CallKind

/-- The frame creates a contract. -/
def isCreate : CallKind → Bool
  | create | create2 _ => true
  | _ => false

/-- Entering the frame moves the value of the message. -/
def transfersValue : CallKind → Bool
  | delegateCall | staticCall => false
  | _ => true

/-- The salt of a salted creation. -/
def salt? : CallKind → Option Word
  | create2 salt => some salt
  | _ => none

end CallKind

/-- A request to call or to create. -/
structure Message where
  kind : CallKind
  /-- The caller that the code sees. -/
  sender : Address
  /-- The account whose storage and balance the frame acts on. -/
  recipient : Address
  /-- The account whose code runs. -/
  codeAddress : Address
  /-- Call data, or init code of a creation. -/
  input : Bytes
  /-- The value that the code sees. -/
  value : Word
  gasLimit : Nat
  /-- State changes are forbidden. -/
  isStatic : Bool := false
  /-- Nesting depth; the first message of a transaction has depth zero. -/
  depth : Nat := 0
  deriving DecidableEq

namespace Message

/-- A call. -/
def call (sender recipient : Address) (value : Word) (input : Bytes) (gasLimit : Nat) :
    Message where
  kind := .call
  sender := sender
  recipient := recipient
  codeAddress := recipient
  input := input
  value := value
  gasLimit := gasLimit

/-- A creation.  Its address is computed when it is executed. -/
def create (sender : Address) (value : Word) (initCode : Bytes) (gasLimit : Nat) : Message where
  kind := .create
  sender := sender
  recipient := 0
  codeAddress := 0
  input := initCode
  value := value
  gasLimit := gasLimit

/-- A salted creation. -/
def create2 (sender : Address) (value : Word) (initCode : Bytes) (salt : Word) (gasLimit : Nat) :
    Message :=
  { create sender value initCode gasLimit with kind := .create2 salt }

/-- The message creates a contract. -/
def isCreate (m : Message) : Bool := m.kind.isCreate

/-- The depth of a child.  Depths are counted in 64 bits: after the greatest one comes zero. -/
def childDepth (m : Message) : Nat := Counter.wrap (m.depth + 1)

/-- Below a depth that is not the greatest one a child is one level deeper. -/
theorem childDepth_of_lt {m : Message} (h : m.depth < Counter.limit) :
    m.childDepth = m.depth + 1 := Counter.wrap_of_le h

end Message

/-- A record for observers. -/
structure Log where
  /-- The account that left it. -/
  address : Address
  /-- Up to four words to search for. -/
  topics : List Word
  data : Bytes
  deriving DecidableEq

end Evm
