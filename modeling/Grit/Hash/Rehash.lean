import Mathlib.Data.List.OfFn
import Mathlib.Order.Fin.Basic
import Grit.Hash.Mhash

/-!
# What an insert does when the table grows

`rehash` gives whole chains to `insert`, which counts each chain as one node and may call
`rehash` again. A second call while the first one runs leaves the first one with a bound that
is larger than its old bucket array, so that an insert returns only if the chains moved by one
`rehash` do not fill the new table up to its own limit. In that case the loop is a fold over
the old buckets.
-/

namespace Grit

theorem primeNum_strictMono : StrictMono primeNum := by
  intro i j
  revert i j
  decide

theorem primeNum_le (i : Fin 17) : primeNum i ≤ 97 := by
  revert i
  decide

namespace Mhash

/-- `insert(Info *)` up to its test for growth. -/
def append (hash : String → UInt64) (info : Info) (next : List Info) (m : Mhash) : Mhash :=
  { m with
    head := Function.update m.head (m.getPos hash info.key)
      (m.head (m.getPos hash info.key) ++ info :: next)
    sum := m.sum + 1 }

/-- A chain goes to the bucket of its first node. -/
def move (hash : String → UInt64) (m : Mhash) : List Info → Mhash
  | [] => m
  | info :: next => m.append hash info next

def moveAll (hash : String → UInt64) (m : Mhash) (chains : List (List Info)) : Mhash :=
  chains.foldl (move hash) m

/-- The number of chains with a node. -/
def occupied (chains : List (List Info)) : Nat := chains.countP fun c => !c.isEmpty

def buckets (m : Mhash) : List (List Info) := List.ofFn m.head

/-- The new table of `rehash`, before a chain is moved. -/
def grown (m : Mhash) (h : m.numPoint.val + 1 < 17) : Mhash :=
  { numPoint := ⟨m.numPoint.val + 1, h⟩, head := fun _ => [], sum := m.sum }

/-- The full table has a next prime, and its chains do not fill the table of that size. -/
def CanGrow (m : Mhash) : Prop :=
  ∃ h : m.numPoint.val + 1 < 17,
    occupied m.buckets < primeNum ⟨m.numPoint.val + 1, h⟩ - primeNum m.numPoint

instance (m : Mhash) : Decidable m.CanGrow :=
  inferInstanceAs (Decidable (∃ h : m.numPoint.val + 1 < 17,
    occupied m.buckets < primeNum ⟨m.numPoint.val + 1, h⟩ - primeNum m.numPoint))

/-! ### The prime only grows -/

section Growth

variable {ins : Mhash → Info → List Info → Option Mhash}

theorem rehashLoop_numPoint
    (hins : ∀ m info next m', ins m info next = some m' → m.numPoint ≤ m'.numPoint) {n : Nat}
    {t : Fin n → List Info} {k i : Nat} {m m' : Mhash} (h : rehashLoop ins t k i m = some m') :
    m.numPoint ≤ m'.numPoint := by
  induction k generalizing i m with
  | zero =>
      obtain rfl := Option.some.inj h
      exact le_refl _
  | succ k ih =>
      unfold rehashLoop at h
      split at h
      · split at h
        · split at h
          · exact ih h
          · obtain ⟨m₁, hm₁, h⟩ := Option.bind_eq_some_iff.1 h
            exact le_trans (hins _ _ _ _ hm₁) (ih h)
        · simp at h
      · obtain rfl := Option.some.inj h
        exact le_refl _

theorem rehash_numPoint
    (hins : ∀ m info next m', ins m info next = some m' → m.numPoint ≤ m'.numPoint)
    {m m' : Mhash} (h : rehash ins m = some m') : m.numPoint < m'.numPoint := by
  unfold rehash at h
  split at h
  · refine lt_of_lt_of_le ?_ (rehashLoop_numPoint hins h)
    exact Fin.lt_def.2 (Nat.lt_succ_self _)
  · simp at h

theorem insertInfo_numPoint (hash : String → UInt64) {fuel : Nat} {m m' : Mhash} {info : Info}
    {next : List Info} (h : insertInfo hash fuel m info next = some m') :
    m.numPoint ≤ m'.numPoint := by
  induction fuel generalizing m m' info next with
  | zero => simp [insertInfo] at h
  | succ fuel ih =>
      unfold insertInfo at h
      dsimp only at h
      split at h
      · have hgrow := rehash_numPoint (fun _ _ _ _ hm => ih hm) h
        exact le_of_lt hgrow
      · obtain rfl := Option.some.inj h
        exact le_refl _

/-- Once the table has grown again, the loop runs past the end of its old bucket array. -/
theorem rehashLoop_eq_none
    (hins : ∀ m info next m', ins m info next = some m' → m.numPoint ≤ m'.numPoint) {n : Nat}
    {t : Fin n → List Info} {k i : Nat} {m : Mhash} (hi : i ≤ n) (hk : 97 ≤ i + k)
    (hn : n < primeNum (m.numPoint - 1)) (hpos : m.numPoint ≠ 0) :
    rehashLoop ins t k i m = none := by
  have hle := primeNum_le (m.numPoint - 1)
  induction k generalizing i m with
  | zero => omega
  | succ k ih =>
      unfold rehashLoop
      rw [if_pos (by omega)]
      split
      · split
        · exact ih (by omega) (by omega) hn hpos hle
        · rename_i info next _
          cases hm : ins m info next with
          | none => rfl
          | some m' =>
              have hgrow := hins _ _ _ _ hm
              have hpos' : m'.numPoint ≠ 0 := by
                intro hzero
                rw [hzero, Fin.le_zero_iff] at hgrow
                exact hpos hgrow
              have hpred : m.numPoint - 1 ≤ m'.numPoint - 1 := by
                rw [Fin.le_def, Fin.val_sub_one_of_ne_zero hpos, Fin.val_sub_one_of_ne_zero hpos']
                exact Nat.sub_le_sub_right hgrow 1
              have hprime := primeNum_strictMono.monotone hpred
              exact ih (by omega) (by omega) (by omega) hpos' (primeNum_le _)
      · rfl

end Growth

/-! ### One rehash -/

theorem insertInfo_succ (hash : String → UInt64) (fuel : Nat) (m : Mhash) (info : Info)
    (next : List Info) :
    insertInfo hash (fuel + 1) m info next =
      if m.sum + 1 = primeNum m.numPoint - 1 then
        rehash (insertInfo hash fuel) (m.append hash info next)
      else some (m.append hash info next) := rfl

theorem occupied_cons_nil (l : List (List Info)) : occupied ([] :: l) = occupied l := rfl

theorem occupied_cons_cons (info : Info) (next : List Info) (l : List (List Info)) :
    occupied ((info :: next) :: l) = occupied l + 1 := by
  simp [occupied]

/-- The loop moves the old buckets from index `i` on, unless they fill the new table. -/
theorem rehashLoop_eq (hash : String → UInt64) (fuel : Nat) {n : Nat} {t : Fin n → List Info}
    {k i : Nat} {m : Mhash} (hi : i ≤ n) (hk : 97 ≤ i + k) (hn : n = primeNum (m.numPoint - 1))
    (hpos : m.numPoint ≠ 0) (hsum : m.sum < primeNum m.numPoint - 1) :
    rehashLoop (insertInfo hash (fuel + 1)) t k i m =
      if m.sum + occupied ((List.ofFn t).drop i) < primeNum m.numPoint - 1 then
        some (m.moveAll hash ((List.ofFn t).drop i))
      else none := by
  have hle := primeNum_le (m.numPoint - 1)
  have hlast : ∀ m : Mhash, m.sum < primeNum m.numPoint - 1 → some m =
      if m.sum + occupied ((List.ofFn t).drop n) < primeNum m.numPoint - 1 then
        some (m.moveAll hash ((List.ofFn t).drop n))
      else none := by
    intro m hsum
    have hnil : (List.ofFn t).drop n = [] := List.drop_eq_nil_of_le (by simp)
    rw [hnil]
    simp [occupied, moveAll, hsum]
  induction k generalizing i m with
  | zero =>
      obtain rfl : i = n := by omega
      exact hlast m hsum
  | succ k ih =>
      unfold rehashLoop
      by_cases hin : i < n
      · rw [if_pos (by omega), dif_pos hin]
        have hdrop : (List.ofFn t).drop i = t ⟨i, hin⟩ :: (List.ofFn t).drop (i + 1) := by
          rw [List.drop_eq_getElem_cons (by simpa using hin)]
          simp
        rw [hdrop]
        cases ht : t ⟨i, hin⟩ with
        | nil =>
            dsimp only
            rw [ih (by omega) (by omega) hn hpos hsum hle, occupied_cons_nil]
            rfl
        | cons info next =>
            dsimp only
            rw [insertInfo_succ, occupied_cons_cons]
            by_cases hfull : m.sum + 1 = primeNum m.numPoint - 1
            · -- the table grows again, and the bound of the loop with it
              rw [if_pos hfull, if_neg (by omega), Option.bind_eq_none_iff]
              intro m' hm'
              have hgrow := rehash_numPoint
                (fun _ _ _ _ => insertInfo_numPoint hash) hm'
              have hpos' : m'.numPoint ≠ 0 := Fin.ne_zero_of_lt hgrow
              refine rehashLoop_eq_none (fun _ _ _ _ => insertInfo_numPoint hash) (by omega)
                (by omega) ?_ hpos'
              rw [hn]
              refine primeNum_strictMono ?_
              rw [Fin.lt_def, Fin.val_sub_one_of_ne_zero hpos, Fin.val_sub_one_of_ne_zero hpos']
              have hval : m.numPoint.val < m'.numPoint.val := hgrow
              have hnz := Fin.val_ne_zero_iff.2 hpos
              omega
            · rw [if_neg hfull, Option.bind_some]
              have hrest := ih (i := i + 1) (m := m.append hash info next) (by omega) (by omega)
                hn hpos (show m.sum + 1 < (primeNum m.numPoint : Int) - 1 by omega) hle
              rw [hrest]
              have hsame : (m.append hash info next).sum = m.sum + 1 := rfl
              rw [hsame]
              have hcount : m.sum + 1 + (occupied ((List.ofFn t).drop (i + 1)) : Int) =
                  m.sum + ((occupied ((List.ofFn t).drop (i + 1)) + 1 : Nat) : Int) := by
                push_cast
                omega
              rw [hcount]
              rfl
      · obtain rfl : i = n := by omega
        rw [if_neg (by omega)]
        exact hlast m hsum

theorem grown_numPoint_sub_one (m : Mhash) (h : m.numPoint.val + 1 < 17) :
    (m.grown h).numPoint - 1 = m.numPoint := by
  have hne : (m.grown h).numPoint ≠ 0 := by
    intro hzero
    have := congrArg Fin.val hzero
    simp [grown] at this
  rw [Fin.ext_iff, Fin.val_sub_one_of_ne_zero hne]
  rfl

/-- A full table moves its buckets to the table of the next prime, or does not return. -/
theorem rehash_eq (hash : String → UInt64) (fuel : Nat) {m : Mhash}
    (hsum : m.sum = primeNum m.numPoint - 1) :
    rehash (insertInfo hash (fuel + 1)) m =
      if h : m.CanGrow then some ((m.grown h.1).moveAll hash m.buckets) else none := by
  unfold rehash
  by_cases hnext : m.numPoint.val + 1 < 17
  · have hlt : primeNum m.numPoint < primeNum ⟨m.numPoint.val + 1, hnext⟩ :=
      primeNum_strictMono (Fin.lt_def.2 (Nat.lt_succ_self _))
    have hne : (m.grown hnext).numPoint ≠ 0 := by
      intro hzero
      have := congrArg Fin.val hzero
      simp [grown] at this
    have hloop := rehashLoop_eq hash fuel (t := m.head) (k := 97) (i := 0) (m := m.grown hnext)
      (Nat.zero_le _) (by omega) (by rw [grown_numPoint_sub_one]) hne
      (show m.sum < (primeNum ⟨m.numPoint.val + 1, hnext⟩ : Int) - 1 by omega)
    rw [dif_pos hnext]
    refine hloop.trans ?_
    rw [List.drop_zero]
    by_cases hgrow : m.CanGrow
    · have hocc := hgrow.2
      rw [dif_pos hgrow, if_pos]
      · rfl
      · change m.sum + (occupied m.buckets : Int) <
          (primeNum ⟨m.numPoint.val + 1, hnext⟩ : Int) - 1
        omega
    · rw [dif_neg hgrow, if_neg]
      intro hocc
      change m.sum + (occupied m.buckets : Int) <
        (primeNum ⟨m.numPoint.val + 1, hnext⟩ : Int) - 1 at hocc
      exact hgrow ⟨hnext, by omega⟩
  · have hgrow : ¬m.CanGrow := fun h => hnext h.1
    rw [dif_neg hnext, dif_neg hgrow]

/-- `insert`: the node is appended, and a table that is full then grows. -/
theorem insert_eq (hash : String → UInt64) (m : Mhash) (k : String) (l : Int) :
    m.insert hash k l =
      if m.sum + 1 = primeNum m.numPoint - 1 then
        if h : (m.append hash ⟨k, l⟩ []).CanGrow then
          some (((m.append hash ⟨k, l⟩ []).grown h.1).moveAll hash
            (m.append hash ⟨k, l⟩ []).buckets)
        else none
      else some (m.append hash ⟨k, l⟩ []) := by
  rw [insert, insertInfo_succ]
  by_cases hfull : m.sum + 1 = primeNum m.numPoint - 1
  · rw [if_pos hfull, if_pos hfull]
    exact rehash_eq hash 15 hfull
  · rw [if_neg hfull, if_neg hfull]

end Mhash

end Grit
