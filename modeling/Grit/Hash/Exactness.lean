import Mathlib.Data.List.TakeWhile
import Grit.Hash.Runs

/-!
# What the hash table gets right

The properties that the callers of the table rely on, each with the exact condition under which
it holds: that an entry is found in the bucket of its key and counted once, that growing stays
within its arrays, that `delLessThan` removes what its comment says, and that `exist` tells by
key whether an entry is stored.
-/

namespace Grit

namespace Mhash

open Buckets

variable {hash : String → UInt64}

/-! ### Entries are found -/

/-- Every entry that was inserted and not deleted is in the bucket of its key, as often as it was
inserted, and nowhere else; `sum_` is their number. -/
structure Findable (hash : String → UInt64) (s : Recorded) : Prop where
  inBucket : ∀ i, (s.table.head (s.table.getPos hash i.key)).count i = s.live.count i
  nowhereElse : s.table.Placed hash
  counted : s.table.sum = s.live.length

/-- The calls return, and the entries are found. -/
def KeepsFindable (hash : String → UInt64) (l : List Op) : Prop :=
  ∃ s, run hash l = some s ∧ Findable hash s

theorem Recorded.Step.numPoint_le {s s' : Recorded} {op : Op} (h : Recorded.Step hash s op s') :
    s.table.numPoint ≤ s'.table.numPoint := by
  cases h with
  | insert k lsn hroom => exact le_refl _
  | grow k lsn hfull hgrow =>
      rw [moveAll_numPoint]
      exact Fin.le_def.2 (Nat.le_succ _)
  | delete k lsn hleft => exact le_refl _

/-- The table grows for the first time with its 22nd entry. -/
theorem numPoint_eq_zero_iff {l : List Op} {s : Recorded} (h : run hash l = some s) :
    s.table.numPoint = 0 ↔
      ∀ l₁ s₁, l₁ <+: l → run hash l₁ = some s₁ → s₁.live.length < 22 := by
  have hsmall : ∀ {l₁ : List Op} {s₁ : Recorded}, run hash l₁ = some s₁ →
      s₁.table.numPoint = 0 → s₁.live.length < 22 := by
    intro l₁ s₁ hs₁ hzero
    have hsound := sound_run hs₁
    have hsum := (hsound.exact hzero).1
    have hroom := hsound.room
    have hprime : primeNum s₁.table.numPoint = 23 := by
      rw [hzero]
      rfl
    omega
  induction l using List.reverseRecOn generalizing s with
  | nil =>
      obtain rfl := Option.some.inj h
      refine iff_of_true rfl ?_
      intro l₁ s₁ hl₁ hs₁
      obtain rfl := List.prefix_nil.1 hl₁
      exact hsmall hs₁ (Option.some.inj hs₁ ▸ rfl)
  | append_singleton l op ih =>
      have hrun := h
      rw [run_concat] at h
      obtain ⟨s₀, hs₀, hstep⟩ := Option.bind_eq_some_iff.1 h
      have hstep := Recorded.step_step hstep
      constructor
      · intro hzero l₁ s₁ hl₁ hs₁
        have hzero₀ : s₀.table.numPoint = 0 := Fin.le_zero_iff.1 (hzero ▸ hstep.numPoint_le)
        rcases List.prefix_concat_iff.1 hl₁ with rfl | hl₁
        · obtain rfl := Option.some.inj (hs₁.symm.trans hrun)
          exact hsmall hs₁ hzero
        · exact (ih hs₀).1 hzero₀ l₁ s₁ hl₁ hs₁
      · intro hfew
        have hzero₀ : s₀.table.numPoint = 0 := by
          refine (ih hs₀).2 fun l₁ s₁ hl₁ hs₁ => hfew l₁ s₁ ?_ hs₁
          exact hl₁.trans (List.prefix_append _ _)
        have hlast := hfew _ s (List.prefix_refl _) hrun
        cases hstep with
        | insert k lsn hroom => exact hzero₀
        | delete k lsn hleft => exact hzero₀
        | grow k lsn hfull hgrow =>
            have hsum := ((sound_run hs₀).exact hzero₀).1
            have hprime : primeNum s₀.table.numPoint = 23 := by
              rw [hzero₀]
              rfl
            rw [List.length_append, List.length_singleton] at hlast
            omega

theorem count_of_placed {m : Mhash} (h : m.Placed hash) (i : Info) :
    m.contents.count i = (m.head (m.getPos hash i.key)).count i := by
  rw [Multiset.count, contents, countP_pool (i := m.getPos hash i.key)]
  · apply List.countP_congr
    intro j _
    rw [decide_eq_true_iff, beq_iff_eq]
    exact eq_comm
  · intro pos hpos j hj hij
    subst hij
    exact hpos (h pos i hj).symm

/-- A table that has grown counts too much. -/
theorem Findable.numPoint_eq_zero {l : List Op} {s : Recorded} (h : Findable hash s)
    (hrun : run hash l = some s) : s.table.numPoint = 0 := by
  by_contra hne
  have hexcess := (sound_run hrun).excess hne
  rw [h.counted] at hexcess
  exact absurd hexcess (lt_irrefl _)

/-- A sequence keeps its entries findable exactly if it returns and never stores 22 entries. -/
theorem keepsFindable_iff (hash : String → UInt64) (l : List Op) :
    KeepsFindable hash l ↔ ∃ s, run hash l = some s ∧
      ∀ l₁ s₁, l₁ <+: l → run hash l₁ = some s₁ → s₁.live.length < 22 := by
  refine exists_congr fun s => and_congr_right fun hrun => ?_
  have hsound := sound_run hrun
  rw [← numPoint_eq_zero_iff hrun]
  constructor
  · exact fun hfind => hfind.numPoint_eq_zero hrun
  · intro hzero
    obtain ⟨hsum, hplaced⟩ := hsound.exact hzero
    refine ⟨?_, hplaced, hsum⟩
    intro i
    rw [← count_of_placed hplaced, hsound.stored, Multiset.coe_count]

theorem live_of_inserts {l : List Info} {s : Recorded}
    (h : run hash (l.map fun i => .insert i.key i.lsn) = some s) : s.live = l := by
  induction l using List.reverseRecOn generalizing s with
  | nil =>
      obtain rfl := Option.some.inj h
      rfl
  | append_singleton l i ih =>
      rw [List.map_append, List.map_singleton, run_concat] at h
      obtain ⟨s₀, hs₀, hstep⟩ := Option.bind_eq_some_iff.1 h
      obtain ⟨m, -, rfl⟩ := Option.map_eq_some_iff.1 hstep
      exact congrArg (· ++ [i]) (ih hs₀)

/-- With the 22nd entry the table grows, and `sum_` is too large from then on: if all entries are
in one bucket, it is `23`. -/
theorem not_keepsFindable_grown :
    ¬KeepsFindable (fun _ => 0) (List.replicate 22 (.insert "k" 1)) := by
  rintro ⟨s, hs, hfind⟩
  have hlive : s.live = List.replicate 22 ⟨"k", 1⟩ := live_of_inserts (by simpa using hs)
  have hfew := (numPoint_eq_zero_iff hs).1 (hfind.numPoint_eq_zero hs) _ s (List.prefix_refl _) hs
  rw [hlive, List.length_replicate] at hfew
  exact absurd hfew (lt_irrefl 22)

/-! ### Growing stays in range -/

/-- Every `insert` of the sequence keeps within the primes and within the old bucket array. -/
def InBounds (hash : String → UInt64) (l : List Op) : Prop :=
  ∀ l₁ k lsn l₂ s, l = l₁ ++ .insert k lsn :: l₂ → run hash l₁ = some s →
    s.table.insert hash k lsn ≠ none

/-- Growing stays in range exactly if a full table always has a next prime and fewer chains than
the distance to it. -/
theorem inBounds_iff (hash : String → UInt64) (l : List Op) :
    InBounds hash l ↔
      ∀ l₁ k lsn l₂ s, l = l₁ ++ .insert k lsn :: l₂ → run hash l₁ = some s →
        s.table.sum + 1 = primeNum s.table.numPoint - 1 →
          (s.table.append hash ⟨k, lsn⟩ []).CanGrow := by
  refine forall₅_congr fun l₁ k lsn l₂ s => forall₂_congr fun _ _ => ?_
  rw [insert_eq]
  by_cases hfull : s.table.sum + 1 = primeNum s.table.numPoint - 1
  · rw [if_pos hfull]
    by_cases hgrow : (s.table.append hash ⟨k, lsn⟩ []).CanGrow
    · simp [hfull, hgrow]
    · simp [hfull, hgrow]
  · simp [hfull]

/-- A hash function that spreads six keys over six buckets. -/
def sixWays (k : String) : UInt64 :=
  if k = "f" then 5 else if k = "a" then 0 else if k = "b" then 1 else if k = "c" then 2
  else if k = "d" then 3 else 4

/-- With the 22nd entry six chains are moved, and the sixth makes the table grow again. -/
theorem not_inBounds_sixWays :
    ¬InBounds sixWays (["a", "b", "c", "d", "e"].map (.insert · 1) ++
      List.replicate 17 (.insert "f" 1)) := by
  intro h
  have hlast : (run sixWays (["a", "b", "c", "d", "e"].map (.insert · 1) ++
      List.replicate 16 (.insert "f" 1))).map (fun s => (s.table.insert sixWays "f" 1).isNone) =
        some true := by decide +kernel
  obtain ⟨s, hs, hnone⟩ := Option.map_eq_some_iff.1 hlast
  exact h _ "f" 1 [] s rfl hs (Option.isNone_iff_eq_none.1 hnone)

/-! ### `delLessThan` removes what it should -/

/-- The entries with the key and a smaller lsn are removed, and no others. -/
def purge (k : String) (lsn : Int) (m : Mhash) : Mhash :=
  { m with
    head := fun pos => (m.head pos).filter fun i => !(i.key = k && i.lsn < lsn)
    sum := m.sum - m.contents.countP fun i => i.key = k ∧ i.lsn < lsn }

def DelExact (hash : String → UInt64) (k : String) (lsn : Int) (m : Mhash) : Prop :=
  m.delLessThan hash k lsn = some (m.purge k lsn)

/-- The entries to remove are the first ones of the bucket, and an entry with a larger lsn
follows them. -/
structure Exposed (hash : String → UInt64) (k : String) (lsn : Int) (m : Mhash) : Prop where
  stops : m.spared hash k lsn ≠ []
  own : ∀ i ∈ m.deleted hash k lsn, i.key = k
  behind : ∀ i ∈ m.spared hash k lsn, i.key = k → lsn ≤ i.lsn
  elsewhere : ∀ pos, pos ≠ m.getPos hash k → ∀ i ∈ m.head pos, i.key = k → lsn ≤ i.lsn

theorem lsn_lt_of_mem_deleted {k : String} {lsn : Int} {m : Mhash} {i : Info}
    (h : i ∈ m.deleted hash k lsn) : i.lsn < lsn := by
  simpa using List.mem_takeWhile_imp h

theorem le_lsn_of_spared_eq_cons {k : String} {lsn : Int} {m : Mhash} {i : Info}
    {rest : List Info} (h : m.spared hash k lsn = i :: rest) : lsn ≤ i.lsn := by
  rw [spared] at h
  have hnot := List.dropWhile_get_zero_not (fun i : Info => decide (i.lsn < lsn))
    (m.head (m.getPos hash k)) (by simp [h])
  simpa [h] using hnot

theorem filter_eq_self_iff {k : String} {lsn : Int} {l : List Info} :
    (l.filter fun i => !(i.key = k && i.lsn < lsn)) = l ↔
      ∀ i ∈ l, i.key = k → lsn ≤ i.lsn := by
  simp [List.filter_eq_self, imp_iff_not_or]

/-- The bucket without the entries to remove is what `delLessThan` leaves of it. -/
theorem filter_eq_spared_iff {k : String} {lsn : Int} {m : Mhash} :
    (m.head (m.getPos hash k)).filter (fun i => !(i.key = k && i.lsn < lsn)) =
        m.spared hash k lsn ↔
      (∀ i ∈ m.deleted hash k lsn, i.key = k) ∧
        ∀ i ∈ m.spared hash k lsn, i.key = k → lsn ≤ i.lsn := by
  rw [← deleted_append_spared hash k lsn m, List.filter_append]
  constructor
  · intro heq
    have hnil : (m.deleted hash k lsn).filter (fun i => !(i.key = k && i.lsn < lsn)) = [] := by
      match hkept : (m.deleted hash k lsn).filter (fun i => !(i.key = k && i.lsn < lsn)) with
      | [] => exact hkept
      | i :: rest =>
          -- what is kept of the deleted nodes would be the first node that is spared
          rw [hkept, List.cons_append] at heq
          have hi : i ∈ m.deleted hash k lsn :=
            List.mem_of_mem_filter (hkept ▸ List.mem_cons_self)
          exact absurd (lsn_lt_of_mem_deleted hi) (not_lt.2 (le_lsn_of_spared_eq_cons heq.symm))
    rw [hnil, List.nil_append] at heq
    refine ⟨?_, filter_eq_self_iff.1 heq⟩
    intro i hi
    have hout := List.filter_eq_nil_iff.1 hnil i hi
    simp only [Bool.not_eq_true', Bool.not_eq_false, Bool.and_eq_true, decide_eq_true_eq] at hout
    exact hout.1
  · rintro ⟨hown, hbehind⟩
    have hnil : (m.deleted hash k lsn).filter (fun i => !(i.key = k && i.lsn < lsn)) = [] := by
      rw [List.filter_eq_nil_iff]
      intro i hi
      simp [hown i hi, lsn_lt_of_mem_deleted hi]
    rw [hnil, List.nil_append, filter_eq_self_iff.2 hbehind]

/-- As many entries are to be removed as `delLessThan` deletes. -/
theorem Exposed.countP_contents {k : String} {lsn : Int} {m : Mhash}
    (h : m.Exposed hash k lsn) :
    (m.contents.countP fun i => i.key = k ∧ i.lsn < lsn) = (m.deleted hash k lsn).length := by
  have hone : (m.contents.countP fun i => i.key = k ∧ i.lsn < lsn) =
      (m.head (m.getPos hash k)).countP fun i => decide (i.key = k ∧ i.lsn < lsn) :=
    countP_pool fun pos hpos i hi hik =>
      absurd hik.2 (not_lt.2 (h.elsewhere pos hpos i hi hik.1))
  rw [hone, ← deleted_append_spared hash k lsn m, List.countP_append]
  have hall : (m.deleted hash k lsn).countP (fun i => decide (i.key = k ∧ i.lsn < lsn)) =
      (m.deleted hash k lsn).length := by
    rw [List.countP_eq_length]
    intro i hi
    simp [h.own i hi, lsn_lt_of_mem_deleted hi]
  have hnone : (m.spared hash k lsn).countP (fun i => decide (i.key = k ∧ i.lsn < lsn)) = 0 := by
    rw [List.countP_eq_zero]
    intro i hi
    simp only [decide_eq_true_eq, not_and, not_lt]
    exact h.behind i hi
  rw [hall, hnone, Nat.add_zero]

/-- In every table, `delLessThan` returns and removes what it should exactly if the entries to
remove are exposed. -/
theorem delExact_iff (hash : String → UInt64) (k : String) (lsn : Int) (m : Mhash) :
    DelExact hash k lsn m ↔ m.Exposed hash k lsn := by
  have hhead : m.cut hash k lsn = m.purge k lsn ↔
      ((m.cut hash k lsn).head = (m.purge k lsn).head ∧
        (m.cut hash k lsn).sum = (m.purge k lsn).sum) := by
    unfold cut purge
    simp
  unfold DelExact
  rw [delLessThan_eq]
  constructor
  · intro hdel
    split at hdel
    · simp at hdel
    · rename_i hstops
      obtain ⟨hsame, -⟩ := hhead.1 (Option.some.inj hdel)
      have hbucket := congrFun hsame (m.getPos hash k)
      simp only [cut, purge, Function.update_self] at hbucket
      obtain ⟨hown, hbehind⟩ := filter_eq_spared_iff.1 hbucket.symm
      refine ⟨hstops, hown, hbehind, ?_⟩
      intro pos hpos
      have hother := congrFun hsame pos
      simp only [cut, purge, Function.update_of_ne hpos] at hother
      exact filter_eq_self_iff.1 hother.symm
  · intro hexp
    rw [if_neg hexp.stops]
    refine congrArg some (hhead.2 ⟨?_, ?_⟩)
    · funext pos
      by_cases hpos : pos = m.getPos hash k
      · subst hpos
        simp only [cut, purge, Function.update_self]
        exact (filter_eq_spared_iff.2 ⟨hexp.own, hexp.behind⟩).symm
      · have hself := filter_eq_self_iff.2 (hexp.elsewhere pos hpos)
        exact (Function.update_of_ne hpos _ _).trans hself.symm
    · simp only [cut, purge]
      rw [hexp.countP_contents]

/-- On a new table the null node is read; and with two keys in one bucket an entry of the other
key is deleted. -/
theorem not_delExact_shared :
    ¬DelExact (fun _ => 0) "a" 1 init ∧
      ∃ s, run (fun _ => 0) [.insert "a" 1, .insert "b" 5] = some s ∧
        ¬DelExact (fun _ => 0) "b" 3 s.table := by
  refine ⟨?_, _, rfl, ?_⟩
  · intro h
    rw [DelExact, delLessThan_eq_none _ _ _ _ rfl] at h
    simp at h
  · intro h
    have hsum := congrArg (Option.map Mhash.sum) h
    exact absurd hsum (by decide +kernel)

/-! ### `exist` tells by key -/

/-- An entry with the key is stored. -/
def Stored (k : String) (m : Mhash) : Prop := ∃ i ∈ m.contents, i.key = k

def ExistExact (hash : String → UInt64) (k : String) (m : Mhash) : Prop :=
  m.exist hash k = true ↔ m.Stored k

theorem placed_of_few {l : List Op} {s : Recorded} (h : run hash l = some s)
    (hfew : ∀ l₁ s₁, l₁ <+: l → run hash l₁ = some s₁ → s₁.live.length < 22) :
    s.table.Placed hash :=
  ((sound_run h).exact ((numPoint_eq_zero_iff h).2 hfew)).2

theorem exist_iff_of_placed {m : Mhash} (h : m.Placed hash) (k : String) :
    m.exist hash k = true ↔ ∃ i ∈ m.contents, m.getPos hash i.key = m.getPos hash k := by
  rw [exist, Bool.not_eq_true', List.isEmpty_eq_false_iff_exists_mem]
  constructor
  · rintro ⟨i, hi⟩
    exact ⟨i, mem_pool.2 ⟨_, hi⟩, h _ i hi⟩
  · rintro ⟨i, hi, hpos⟩
    obtain ⟨pos, hmem⟩ := mem_pool.1 hi
    rw [← hpos, h pos i hmem]
    exact ⟨i, hmem⟩

/-- While the table has not grown, `exist` is right about `k` exactly if `k` is stored or no entry
is in its bucket. -/
theorem existExact_iff {l : List Op} {s : Recorded} (h : run hash l = some s)
    (hfew : ∀ l₁ s₁, l₁ <+: l → run hash l₁ = some s₁ → s₁.live.length < 22) (k : String) :
    ExistExact hash k s.table ↔
      s.table.Stored k ∨
        ∀ i ∈ s.table.contents, s.table.getPos hash i.key ≠ s.table.getPos hash k := by
  have hexist := exist_iff_of_placed (placed_of_few h hfew) k
  have hstored : s.table.Stored k →
      ∃ i ∈ s.table.contents, s.table.getPos hash i.key = s.table.getPos hash k := by
    rintro ⟨i, hi, rfl⟩
    exact ⟨i, hi, rfl⟩
  unfold ExistExact
  rw [hexist]
  constructor
  · intro hexact
    by_cases hk : s.table.Stored k
    · exact Or.inl hk
    · exact Or.inr fun i hi hpos => hk (hexact.1 ⟨i, hi, hpos⟩)
  · rintro (hk | hnone)
    · exact ⟨fun _ => hk, hstored⟩
    · refine ⟨?_, hstored⟩
      rintro ⟨i, hi, hpos⟩
      exact absurd hpos (hnone i hi)

/-- A hash function that tells three keys apart. -/
def threeWay (k : String) : UInt64 := if k = "a" then 1 else if k = "b" then 2 else 3

theorem existExact_iff_two :
    ∃ s, run threeWay [.insert "a" 1, .insert "b" 2] = some s ∧
      (ExistExact threeWay "c" s.table ↔ s.table.Stored "c" ∨
        ∀ i ∈ s.table.contents,
          s.table.getPos threeWay i.key ≠ s.table.getPos threeWay "c") := by
  refine ⟨_, rfl, ?_⟩
  exact existExact_iff (l := [.insert "a" 1, .insert "b" 2]) rfl
    ((numPoint_eq_zero_iff (l := [.insert "a" 1, .insert "b" 2]) rfl).1 rfl) "c"

/-- A key that was never inserted exists, because another one is in its bucket. -/
theorem not_existExact_shared :
    ∃ s, run (fun _ => 0) [.insert "a" 1] = some s ∧ ¬ExistExact (fun _ => 0) "b" s.table := by
  have hrun : run (fun _ => 0) [.insert "a" 1] =
      some ⟨init.append (fun _ => 0) ⟨"a", 1⟩ [], [⟨"a", 1⟩]⟩ := rfl
  refine ⟨_, hrun, ?_⟩
  intro h
  obtain ⟨i, hi, hkey⟩ := h.1 (by decide +kernel)
  rw [(sound_run hrun).stored, Multiset.mem_coe, List.mem_singleton] at hi
  subst hi
  exact absurd hkey (by decide)

end Mhash

end Grit
