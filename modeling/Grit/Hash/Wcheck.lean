import Grit.Hash.Mhash

/-!
# The conflict table of the DBTM

`Dbtm::wcheck` is used through three operations only. `Wcheck` is that
interface, with `none` for a call that does not return; `Mhash.wcheck` is the
table the code uses, and `Wcheck.contract` is the table its comments describe:
`delLessThan` deletes the entries of the same key with a smaller lsn, and
`exist` tells by key whether an entry is left.
-/

namespace Grit

/-- The operations of a conflict table with states `W`. -/
structure Wcheck (W : Type*) where
  insert : W → String → Int → Option W
  exist : W → String → Bool
  delLessThan : W → String → Int → Option W

/-- The conflict table of the code. -/
def Mhash.wcheck (hash : String → UInt64) : Wcheck Mhash where
  insert := Mhash.insert hash
  exist := Mhash.exist hash
  delLessThan := Mhash.delLessThan hash

namespace Wcheck

/-- The conflict table as its comments describe it, exact by key and lsn. -/
def contract : Wcheck (List Info) where
  insert w k l := some (w ++ [⟨k, l⟩])
  exist w k := w.any fun i => i.key = k
  delLessThan w k l := some (w.filter fun i => !(i.key = k && i.lsn < l))

theorem contract_exist (w : List Info) (k : String) :
    contract.exist w k = true ↔ ∃ i ∈ w, i.key = k := by
  simp [contract]

theorem contract_insert (w : List Info) (k : String) (l : Int) :
    contract.insert w k l = some (w ++ [⟨k, l⟩]) := rfl

theorem contract_delLessThan (w : List Info) (k : String) (l : Int) :
    contract.delLessThan w k l =
      some (w.filter fun i => !(i.key = k && i.lsn < l)) := rfl

theorem mem_purge (w : List Info) (k : String) (l : Int) (i : Info) :
    i ∈ w.filter (fun i => !(i.key = k && i.lsn < l)) ↔
      i ∈ w ∧ (i.key = k → l ≤ i.lsn) := by
  simp [List.mem_filter, imp_iff_not_or]

end Wcheck

end Grit
