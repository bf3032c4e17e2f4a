namespace Evm

/-!
# Documents

* `Json` — a document as it is written: members of objects keep their order and may repeat.
* `Json.render` — the shortest text of a document.
-/

/-- A document.  A string is missing if an escape in it names half of a surrogate pair: such a
    string may be skipped but not read. -/
inductive Json where
  | null
  | bool (b : Bool)
  /-- A number without sign, fraction and exponent. -/
  | natural (n : Nat)
  /-- Any other number, as it is written. -/
  | number (literal : List Char)
  | string (s : Option String)
  | array (items : List Json)
  | object (members : List (Option String × Json))

namespace Json

/-- The document that consists of a string. -/
def ofString (s : String) : Json := .string (some s)

/-- An object with the given members. -/
def record (members : List (String × Json)) : Json :=
  .object (members.map fun (k, v) => (some k, v))

/-! ### Text -/

/-- How a character is written in a string. -/
def escape (c : Char) : List Char :=
  match c with
  | '"' => ['\\', '"']
  | '\\' => ['\\', '\\']
  | '\n' => ['\\', 'n']
  | '\r' => ['\\', 'r']
  | '\t' => ['\\', 't']
  | c =>
    if c.toNat < 0x20 then
      ['\\', 'u', '0', '0', Nat.digitChar (c.toNat / 16), Nat.digitChar (c.toNat % 16)]
    else [c]

/-- A string between quotes. -/
def quoted (s : String) : String :=
  String.ofList (['"'] ++ s.toList.flatMap escape ++ ['"'])

mutual

/-- The shortest text of a document. -/
def render : Json → String
  | .null => "null"
  | .bool b => if b then "true" else "false"
  | .natural n => toString n
  | .number literal => String.ofList literal
  | .string s => quoted (s.getD "")
  | .array items => "[" ++ renderItems items ++ "]"
  | .object members => "\x7b" ++ renderMembers members ++ "\x7d"

/-- Items with commas between them. -/
def renderItems : List Json → String
  | [] => ""
  | [j] => render j
  | j :: rest => render j ++ "," ++ renderItems rest

/-- Members with commas between them. -/
def renderMembers : List (Option String × Json) → String
  | [] => ""
  | [(k, j)] => quoted (k.getD "") ++ ":" ++ render j
  | (k, j) :: rest => quoted (k.getD "") ++ ":" ++ render j ++ "," ++ renderMembers rest

end

end Json

end Evm
