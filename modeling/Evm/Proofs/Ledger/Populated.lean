import Evm.Proofs.Ledger.StartValues

namespace Evm

/-!
# A world that holds something everywhere

Some bounds are only reached in worlds that are larger than any that one would write down entry by
entry.  Here all accounts and slots are filled by a rule.

* `Populated` — a world given by the code of its accounts and the value of its slots.
-/

/-- A world in which every account is there, and every slot holds the same value. -/
structure Populated where
  code : Address → Bytes
  value : Word := 0

namespace Populated

/-- The accounts have no balance and no nonce. -/
instance : WorldSource Populated where
  account w a := some { codeHash := codeHash (w.code a) }
  code w a := w.code a
  storage w _ := w.value
  hasStorage w _ := w.value ≠ 0

instance : LawfulSource Populated where
  storage_of_hasStorage h _ := of_not_not (of_decide_eq_false h)

end Populated

end Evm
