import Mathlib.Data.Fin.VecNotation
import Mathlib.Logic.Function.Basic

/-!
# The chained hash table of `hash.h`

A bucket is the list of the nodes of its chain, head first; the null chain is
`[]`. The number of buckets is `primeNum numPoint`, so it is part of the type
of `head` and a bucket index is always in range. What is not always in range
is the index into `primeNum` after the seventeenth prime, and the index into
the old bucket array in the loop of `rehash`, whose bound is read again after
every insert; both give `none`, as does following a null node.

`std::hash` is the parameter `hash`.
-/

namespace Grit

structure Info where
  key : String
  lsn : Int
deriving DecidableEq, Repr

def primeNum : Fin 17 → Nat :=
  ![23, 29, 31, 37, 41, 43, 47, 53, 59, 61, 67, 71, 73, 79, 83, 89, 97]

theorem primeNum_pos (i : Fin 17) : 0 < primeNum i := by
  revert i
  decide

structure Mhash where
  numPoint : Fin 17
  head : Fin (primeNum numPoint) → List Info
  sum : Int

namespace Mhash

/-- The constructor `Mhash()`. -/
def init : Mhash :=
  { numPoint := 0, head := fun _ => [], sum := 0 }

def getPos (hash : String → UInt64) (m : Mhash) (key : String) :
    Fin (primeNum m.numPoint) :=
  ⟨(hash key).toNat % primeNum m.numPoint, Nat.mod_lt _ (primeNum_pos _)⟩

/-- The loop of `rehash` over the old bucket array `t` of `n` buckets, from
index `i` on. The first argument bounds the iterations left; no prime exceeds
`97`. -/
def rehashLoop (ins : Mhash → Info → List Info → Option Mhash) {n : Nat}
    (t : Fin n → List Info) : Nat → Nat → Mhash → Option Mhash
  | 0, _, m => some m
  | k + 1, i, m =>
      if i < primeNum (m.numPoint - 1) then
        if h : i < n then
          match t ⟨i, h⟩ with
          | [] => rehashLoop ins t k (i + 1) m
          | info :: next => (ins m info next).bind (rehashLoop ins t k (i + 1))
        else none
      else some m

/-- `rehash`, with the function `ins` that it inserts whole chains by. -/
def rehash (ins : Mhash → Info → List Info → Option Mhash) (m : Mhash) :
    Option Mhash :=
  if h : m.numPoint.val + 1 < 17 then
    rehashLoop ins m.head 97 0
      { numPoint := ⟨m.numPoint.val + 1, h⟩, head := fun _ => [], sum := m.sum }
  else none

/-- `insert(Info *)` on a node with the rest of its chain behind it. Every
nested call comes from a `rehash` that has advanced `numPoint`, so the fuel
`17` of `insert` is never used up. -/
def insertInfo (hash : String → UInt64) :
    Nat → Mhash → Info → List Info → Option Mhash
  | 0, _, _, _ => none
  | fuel + 1, m, info, next =>
      let pos := m.getPos hash info.key
      let m' : Mhash := { m with
        head := Function.update m.head pos (m.head pos ++ info :: next)
        sum := m.sum + 1 }
      if m'.sum = primeNum m'.numPoint - 1 then
        rehash (insertInfo hash fuel) m'
      else some m'

def insert (hash : String → UInt64) (m : Mhash) (k : String) (l : Int) :
    Option Mhash :=
  insertInfo hash 17 m ⟨k, l⟩ []

/-- `exist`: a look at the head of the bucket, not at the keys in it. -/
def exist (hash : String → UInt64) (m : Mhash) (key : String) : Bool :=
  !(m.head (m.getPos hash key)).isEmpty

/-- The loop of `delLessThan`: it deletes nodes from the front while their lsn
is smaller, and reads the lsn of the null node when the chain runs out. -/
def delLessThanLoop (lsn : Int) : List Info → Int → Option (List Info × Int)
  | [], _ => none
  | info :: next, sum =>
      if info.lsn < lsn then delLessThanLoop lsn next (sum - 1)
      else some (info :: next, sum)

def delLessThan (hash : String → UInt64) (m : Mhash) (k : String) (lsn : Int) :
    Option Mhash :=
  let pos := m.getPos hash k
  (delLessThanLoop lsn (m.head pos) m.sum).map fun r =>
    { m with head := Function.update m.head pos r.1, sum := r.2 }

/-- What is left of a chain is not empty: an emptied chain ends in the null
node. -/
theorem delLessThanLoop_ne_nil (lsn : Int) (c : List Info) (sum : Int)
    (r : List Info × Int) (h : delLessThanLoop lsn c sum = some r) :
    r.1 ≠ [] := by
  induction c generalizing sum with
  | nil => simp [delLessThanLoop] at h
  | cons info next ih =>
      rw [delLessThanLoop] at h
      by_cases hlt : info.lsn < lsn
      · rw [if_pos hlt] at h
        exact ih _ h
      · rw [if_neg hlt] at h
        cases h
        simp

/-- A purge that returns leaves its bucket non-empty, so the lookup that
follows it answers that the key exists. -/
theorem exist_of_delLessThan (hash : String → UInt64) (m m' : Mhash)
    (k : String) (lsn : Int) (h : m.delLessThan hash k lsn = some m') :
    m'.exist hash k = true := by
  rw [delLessThan, Option.map_eq_some_iff] at h
  obtain ⟨r, hr, rfl⟩ := h
  have hne := delLessThanLoop_ne_nil lsn _ _ r hr
  have hpos : getPos hash
      { m with head := Function.update m.head (m.getPos hash k) r.1, sum := r.2 } k =
      m.getPos hash k := rfl
  simp [exist, hpos, hne]

/-- On an empty bucket the purge follows the null node. -/
theorem delLessThan_eq_none (hash : String → UInt64) (m : Mhash) (k : String)
    (lsn : Int) (h : m.head (m.getPos hash k) = []) :
    m.delLessThan hash k lsn = none := by
  simp [delLessThan, h, delLessThanLoop]

end Mhash

end Grit
