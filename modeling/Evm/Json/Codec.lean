import Evm.Counter
import Evm.Fork
import Evm.Json.Reader

namespace Evm

/-!
# Codecs

How values are written as documents and read back.

* `Codec` — a writer and a reader.
* `Codec.counter`, `Codec.bytes`, `Codec.word`, `Codec.quantity`, `Codec.fork` — single values.
* `Json.fields`, `Codec.field`, `Codec.fieldOr` — the fields of a record, which may be written as
  an object or as an array in the order of the fields.
* `Codec.normalize` — reads a text and writes what was read.
-/

/-- A writer and a reader for one type. -/
structure Codec (α : Type) where
  encode : α → Json
  decode : Json → Option α

namespace Codec

variable {α β : Type}

/-! ### Numbers and bytes -/

/-- A counter: a number without sign, fraction and exponent. -/
def counter : Codec Nat where
  encode := .natural
  decode
    | .natural n => if n ≤ Counter.limit then some n else none
    | _ => none

/-- A byte, as a number. -/
def byte : Codec UInt8 where
  encode b := .natural b.toNat
  decode
    | .natural n => if n < 256 then some (UInt8.ofNat n) else none
    | _ => none

/-- An array. -/
def list (c : Codec α) : Codec (List α) where
  encode items := .array (items.map c.encode)
  decode
    | .array items => items.mapM c.decode
    | _ => none

/-- Values that are written in the form of others, of which not all need be readable. -/
def refine (c : Codec α) (view : β → α) (make : α → Option β) : Codec β where
  encode b := c.encode (view b)
  decode j := (c.decode j).bind make

/-- Bytes, as an array of numbers. -/
def bytes : Codec Bytes := (list byte).refine Array.toList (some ·.toArray)

/-- The 20 bytes of an address. -/
def address : Codec Address := bytes.refine Address.toBytes Address.ofBytes?

/-- The 32 bytes of a word. -/
def word : Codec Word := bytes.refine Word.toBytes Word.ofBytes?

/-! ### Quantities -/

/-- The number that a text of hexadecimal digits stands for, after an optional `0x`.  The text has
    between 1 and 64 characters.  Blanks in it are passed over.  Digits are taken in pairs, except
    that the first one stands alone if the text has odd length; a digit that finds no partner at
    the end does not count. -/
def readQuantity (s : String) : Option Word :=
  let body := match s.toList with
    | '0' :: 'x' :: rest => rest
    | cs => cs
  if body.isEmpty ∨ 64 < body.length then none
  else do
    let digits ← (body.filter (!Json.isBlank ·)).mapM Hex.digit?
    let counted := if body.length % 2 = digits.length % 2 then digits else digits.dropLast
    return BitVec.ofNat 256 (Hex.ofDigits counted)

/-- A word that counts something, as a text of hexadecimal digits. -/
def quantity : Codec Word where
  encode w := .ofString w.shortHex
  decode
    | .string (some s) => readQuantity s
    | _ => none

/-! ### Forks -/

/-- A fork: its name or its short name, which may also be the key of an object without content. -/
def fork : Codec Fork where
  encode f := .ofString f.name
  decode
    | .string (some s) | .object [(some s, .null)] => (Fork.ofShortName? s).or (Fork.ofName? s)
    | _ => none

end Codec

/-! ### Records -/

/-- The fields of a record that are written in a document.  In an array they stand in order, and
    the last ones may be missing.  In an object each may stand once, and members with other keys do
    not count. -/
def Json.fields (names : List String) : Json → Option (List (String × Json))
  | .array items => if items.length ≤ names.length then some (names.zip items) else none
  | .object members => do
    let members ← members.mapM fun (key, j) => key.map (·, j)
    let known := members.filter fun m => names.contains m.1
    if (known.map Prod.fst).Nodup then some known else none
  | _ => none

namespace Codec

variable {α : Type}

/-- A field that must be there. -/
def field (c : Codec α) (fields : List (String × Json)) (name : String) : Option α :=
  (fields.lookup name).bind c.decode

/-- A field that has a default. -/
def fieldOr (c : Codec α) (fields : List (String × Json)) (name : String) (default : α) :
    Option α :=
  match fields.lookup name with
  | none => some default
  | some j => c.decode j

/-- What a text is read as, written in the shortest form. -/
def normalize (c : Codec α) (text : String) : Option String := do
  let a ← c.decode (← Json.parse text)
  return (c.encode a).render

end Codec

end Evm
