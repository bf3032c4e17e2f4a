namespace Evm

/-!
# Protocol forks

Every rule that changed over time compares the active fork with the one that changed it.

* `Fork` — the twelve forks, ordered by activation through `Fork.index`.
* `Fork.ofName?` — exact lower-case names; `Fork.parse` also accepts separators, capitals and
  three short names.
* `Fork.refundQuotient`, `Fork.netMetering`, `Fork.accessLists` — rules that several modules ask
  about.
-/

/-- A hard fork, in order of activation. -/
inductive Fork where
  | frontier
  | homestead
  | tangerineWhistle
  | spuriousDragon
  | byzantium
  | constantinople
  | petersburg
  | istanbul
  | berlin
  | london
  | paris
  | shanghai
  deriving DecidableEq, Repr

namespace Fork

/-- Every fork in order of activation. -/
def all : List Fork :=
  [frontier, homestead, tangerineWhistle, spuriousDragon, byzantium, constantinople, petersburg,
    istanbul, berlin, london, paris, shanghai]

/-- Position in `all`. -/
def index : Fork → Nat
  | frontier => 0
  | homestead => 1
  | tangerineWhistle => 2
  | spuriousDragon => 3
  | byzantium => 4
  | constantinople => 5
  | petersburg => 6
  | istanbul => 7
  | berlin => 8
  | london => 9
  | paris => 10
  | shanghai => 11

instance : Inhabited Fork := ⟨shanghai⟩

instance : LE Fork := ⟨fun a b => a.index ≤ b.index⟩

instance : LT Fork := ⟨fun a b => a.index < b.index⟩

instance (a b : Fork) : Decidable (a ≤ b) := inferInstanceAs (Decidable (a.index ≤ b.index))

instance (a b : Fork) : Decidable (a < b) := inferInstanceAs (Decidable (a.index < b.index))

instance : Ord Fork := ⟨fun a b => compare a.index b.index⟩

/-- Forks follow one another as their indices do. -/
theorem le_iff_index (a b : Fork) : a ≤ b ↔ a.index ≤ b.index := Iff.rfl

/-- An earlier fork has a lower index. -/
theorem lt_iff_index (a b : Fork) : a < b ↔ a.index < b.index := Iff.rfl

/-! ### Names -/

/-- The lower-case name. -/
def name : Fork → String
  | frontier => "frontier"
  | homestead => "homestead"
  | tangerineWhistle => "tangerinewhistle"
  | spuriousDragon => "spuriousdragon"
  | byzantium => "byzantium"
  | constantinople => "constantinople"
  | petersburg => "petersburg"
  | istanbul => "istanbul"
  | berlin => "berlin"
  | london => "london"
  | paris => "paris"
  | shanghai => "shanghai"

/-- The fork with exactly this lower-case name. -/
def ofName? (s : String) : Option Fork := all.find? (·.name == s)

/-- The two short names that configuration documents may use. -/
def ofShortName? : String → Option Fork
  | "tangerine" => some tangerineWhistle
  | "spurious" => some spuriousDragon
  | _ => none

/-- A name without its separators (`_`, `-` and blank), in lower case.  Only ASCII letters are
    lowered: every other character keeps the name from matching. -/
def normalizeName (s : String) : String :=
  String.ofList ((s.toList.filter fun c => !(c == '_' || c == '-' || c == ' ')).map Char.toLower)

/-- Reads a fork name as people write it: separators and case do not count, and `merge` stands
    for `paris` beside the two short names. -/
def parse (s : String) : Option Fork :=
  let n := normalizeName s
  if n == "merge" then some paris else (ofShortName? n).or (ofName? n)

/-- The text of a failed `parse`. -/
def unknownMessage (s : String) : String := "unknown fork: " ++ s

/-- A fork is known by its name. -/
theorem ofName?_name (f : Fork) : ofName? f.name = some f := by
  cases f <;> decide

/-! ### Rules -/

/-- The refund is at most this fraction of the gas used: a half, from London a fifth. -/
def refundQuotient (f : Fork) : Nat := if london ≤ f then 5 else 2

/-- SSTORE is priced by its net effect: in Constantinople and again from Istanbul on. -/
def netMetering (f : Fork) : Bool := f = constantinople || istanbul ≤ f

/-- First accesses to accounts and slots cost more than later ones from Berlin on. -/
def accessLists (f : Fork) : Bool := berlin ≤ f

/-- The bound on refunds is a fraction of the gas. -/
theorem refundQuotient_pos (f : Fork) : 0 < f.refundQuotient := by
  cases f <;> decide

end Fork

end Evm
