import Evm.Config
import Evm.Environment
import Evm.Json.Codec
import Evm.Message
import Evm.State.World

namespace Evm

/-!
# Documents of the machine

The records that are exchanged as documents.

* `Codec.config` — every field has a default; `Config.ofJson` also checks the limits.
* `Codec.block`, `Codec.transaction`, `Codec.environment` — what surrounds an execution.
* `Codec.log`, `Codec.account`, `Codec.stateChange` — what an execution leaves behind.
-/

namespace Codec

/-! ### Configuration -/

/-- The fields of a configuration, in order. -/
def configFields : List String :=
  ["fork", "max_call_depth", "max_code_size", "max_init_code_size", "stack_limit"]

/-- A configuration; what is missing has its default. -/
def config : Codec Config where
  encode c := .record
    [("fork", fork.encode c.fork),
      ("max_call_depth", counter.encode c.maxCallDepth),
      ("max_code_size", counter.encode c.maxCodeSize),
      ("max_init_code_size", counter.encode c.maxInitCodeSize),
      ("stack_limit", counter.encode c.stackLimit)]
  decode j := do
    let fs ← j.fields configFields
    let d : Config := {}
    return {
      fork := ← fork.fieldOr fs "fork" d.fork
      maxCallDepth := ← counter.fieldOr fs "max_call_depth" d.maxCallDepth
      maxCodeSize := ← counter.fieldOr fs "max_code_size" d.maxCodeSize
      maxInitCodeSize := ← counter.fieldOr fs "max_init_code_size" d.maxInitCodeSize
      stackLimit := ← counter.fieldOr fs "stack_limit" d.stackLimit }

/-! ### Surroundings -/

/-- The fields of a block, in order. -/
def blockFields : List String :=
  ["number", "timestamp", "coinbase", "difficulty", "gas_limit", "base_fee", "chain_id",
    "recent_hashes"]

/-- A block; without a list of hashes none are known. -/
def block : Codec Block where
  encode b := .record
    [("number", counter.encode b.number),
      ("timestamp", counter.encode b.timestamp),
      ("coinbase", address.encode b.coinbase),
      ("difficulty", quantity.encode b.difficulty),
      ("gas_limit", counter.encode b.gasLimit),
      ("base_fee", quantity.encode b.baseFee),
      ("chain_id", counter.encode b.chainId),
      ("recent_hashes", (list word).encode b.recentHashes.toList)]
  decode j := do
    let fs ← j.fields blockFields
    return {
      number := ← counter.field fs "number"
      timestamp := ← counter.field fs "timestamp"
      coinbase := ← address.field fs "coinbase"
      difficulty := ← quantity.field fs "difficulty"
      gasLimit := ← counter.field fs "gas_limit"
      baseFee := ← quantity.field fs "base_fee"
      chainId := ← counter.field fs "chain_id"
      recentHashes := (← (list word).fieldOr fs "recent_hashes" []).toArray }

/-- What all frames of a transaction share. -/
def transaction : Codec Transaction where
  encode t := .record
    [("origin", address.encode t.origin),
      ("gas_price", quantity.encode t.gasPrice)]
  decode j := do
    let fs ← j.fields ["origin", "gas_price"]
    return {
      origin := ← address.field fs "origin"
      gasPrice := ← quantity.field fs "gas_price" }

/-- Block and transaction. -/
def environment : Codec Environment where
  encode e := .record
    [("block", block.encode e.block),
      ("tx", transaction.encode e.tx)]
  decode j := do
    let fs ← j.fields ["block", "tx"]
    return {
      block := ← block.field fs "block"
      tx := ← transaction.field fs "tx" }

/-! ### Effects -/

/-- A record for observers. -/
def log : Codec Log where
  encode l := .record
    [("address", address.encode l.address),
      ("topics", (list word).encode l.topics),
      ("data", bytes.encode l.data)]
  decode j := do
    let fs ← j.fields ["address", "topics", "data"]
    return {
      address := ← address.field fs "address"
      topics := ← (list word).field fs "topics"
      data := ← bytes.field fs "data" }

/-- The record of an account. -/
def account : Codec Account where
  encode a := .record
    [("balance", quantity.encode a.balance),
      ("nonce", counter.encode a.nonce),
      ("code_hash", word.encode a.codeHash),
      ("storage_root", word.encode a.storageRoot)]
  decode j := do
    let fs ← j.fields ["balance", "nonce", "code_hash", "storage_root"]
    return {
      balance := ← quantity.field fs "balance"
      nonce := ← counter.field fs "nonce"
      codeHash := ← word.field fs "code_hash"
      storageRoot := ← word.field fs "storage_root" }

/-- A change: an object with one member, whose key tells the kind. -/
def stateChange : Codec StateChange where
  encode
    | .balanceSet a balance => .record
        [("BalanceSet", .record
          [("address", address.encode a), ("balance", quantity.encode balance)])]
    | .nonceSet a nonce => .record
        [("NonceSet", .record [("address", address.encode a), ("nonce", counter.encode nonce)])]
    | .codeSet a code => .record
        [("CodeSet", .record [("address", address.encode a), ("code", bytes.encode code)])]
    | .storageWrite a key value => .record
        [("StorageWrite", .record
          [("address", address.encode a), ("key", word.encode key), ("value", word.encode value)])]
    | .storageDelete a key => .record
        [("StorageDelete", .record [("address", address.encode a), ("key", word.encode key)])]
    | .accountDestroyed a => .record
        [("AccountDestroyed", .record [("address", address.encode a)])]
  decode
    | .object [(some "BalanceSet", content)] => do
      let fs ← content.fields ["address", "balance"]
      return .balanceSet (← address.field fs "address") (← quantity.field fs "balance")
    | .object [(some "NonceSet", content)] => do
      let fs ← content.fields ["address", "nonce"]
      return .nonceSet (← address.field fs "address") (← counter.field fs "nonce")
    | .object [(some "CodeSet", content)] => do
      let fs ← content.fields ["address", "code"]
      return .codeSet (← address.field fs "address") (← bytes.field fs "code")
    | .object [(some "StorageWrite", content)] => do
      let fs ← content.fields ["address", "key", "value"]
      return .storageWrite (← address.field fs "address") (← word.field fs "key")
        (← word.field fs "value")
    | .object [(some "StorageDelete", content)] => do
      let fs ← content.fields ["address", "key"]
      return .storageDelete (← address.field fs "address") (← word.field fs "key")
    | .object [(some "AccountDestroyed", content)] => do
      let fs ← content.fields ["address"]
      return .accountDestroyed (← address.field fs "address")
    | _ => none

end Codec

/-- The configuration in a text, if its limits can be used. -/
def Config.ofJson (text : String) : Except ConfigError Config :=
  match (Json.parse text).bind Codec.config.decode with
  | some c => c.validate
  | none => .error .malformed

end Evm
