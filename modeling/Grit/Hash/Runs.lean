import Mathlib.Data.Multiset.AddSub
import Grit.Hash.Rehash
import Grit.Library.Collections

/-!
# Runs of the hash table

Sequences of `insert` and `delLessThan` on a new table, together with the entries that were
inserted and not deleted. Until the table grows every entry is in the bucket of its key and
`sum_` is their number. Growing moves whole chains by the key of their first node and counts
each chain once more, so that `sum_` exceeds the number of entries from then on.
-/

namespace Grit

namespace Mhash

open Buckets

/-! ### `delLessThan` -/

/-- The nodes that `delLessThan` deletes. -/
def deleted (hash : String → UInt64) (k : String) (lsn : Int) (m : Mhash) : List Info :=
  (m.head (m.getPos hash k)).takeWhile fun i => i.lsn < lsn

/-- The nodes that `delLessThan` leaves in the bucket. -/
def spared (hash : String → UInt64) (k : String) (lsn : Int) (m : Mhash) : List Info :=
  (m.head (m.getPos hash k)).dropWhile fun i => i.lsn < lsn

theorem deleted_append_spared (hash : String → UInt64) (k : String) (lsn : Int) (m : Mhash) :
    m.deleted hash k lsn ++ m.spared hash k lsn = m.head (m.getPos hash k) :=
  List.takeWhile_append_dropWhile

theorem delLessThanLoop_eq (lsn : Int) (c : List Info) (sum : Int) :
    delLessThanLoop lsn c sum =
      if c.dropWhile (fun i => i.lsn < lsn) = [] then none
      else some (c.dropWhile fun i => i.lsn < lsn,
        sum - (c.takeWhile fun i => i.lsn < lsn).length) := by
  induction c generalizing sum with
  | nil => rfl
  | cons info next ih =>
      unfold delLessThanLoop
      by_cases hlt : info.lsn < lsn
      · rw [if_pos hlt, ih, List.dropWhile_cons_of_pos (by simpa using hlt),
          List.takeWhile_cons_of_pos (by simpa using hlt), List.length_cons, Nat.cast_succ,
          sub_add_eq_sub_sub_swap]
      · rw [if_neg hlt, List.dropWhile_cons_of_neg (by simpa using hlt),
          List.takeWhile_cons_of_neg (by simpa using hlt), if_neg (List.cons_ne_nil _ _)]
        simp

/-- The table without the deleted nodes. -/
def cut (hash : String → UInt64) (k : String) (lsn : Int) (m : Mhash) : Mhash :=
  { m with
    head := Function.update m.head (m.getPos hash k) (m.spared hash k lsn)
    sum := m.sum - (m.deleted hash k lsn).length }

theorem delLessThan_eq (hash : String → UInt64) (m : Mhash) (k : String) (lsn : Int) :
    m.delLessThan hash k lsn =
      if m.spared hash k lsn = [] then none else some (m.cut hash k lsn) := by
  rw [delLessThan, delLessThanLoop_eq]
  by_cases hnil : m.spared hash k lsn = []
  · rw [if_pos hnil]
    exact congrArg (Option.map _) (if_pos hnil)
  · rw [if_neg hnil]
    exact congrArg (Option.map _) (if_neg hnil)

/-! ### What is stored -/

def contents (m : Mhash) : Multiset Info := pool m.head

/-- Every node is in the bucket of its key. -/
def Placed (hash : String → UInt64) (m : Mhash) : Prop :=
  ∀ pos, ∀ i ∈ m.head pos, m.getPos hash i.key = pos

theorem contents_append (hash : String → UInt64) (info : Info) (next : List Info) (m : Mhash) :
    (m.append hash info next).contents = m.contents + (info :: next : List Info) :=
  pool_update_append m.head _ _

theorem contents_moveAll (hash : String → UInt64) (m : Mhash) (chains : List (List Info)) :
    (m.moveAll hash chains).contents = m.contents + (chains.flatten : List Info) := by
  induction chains generalizing m with
  | nil => simp [moveAll]
  | cons c chains ih =>
      have hmove : (m.move hash c).contents = m.contents + (c : List Info) := by
        cases c with
        | nil => simp [move]
        | cons info next => exact contents_append hash info next m
      have hrest : (m.moveAll hash (c :: chains)).contents =
          (m.move hash c).contents + (chains.flatten : List Info) := ih _
      rw [hrest, hmove, List.flatten_cons, ← Multiset.coe_add, add_assoc]

theorem moveAll_numPoint (hash : String → UInt64) (m : Mhash) (chains : List (List Info)) :
    (m.moveAll hash chains).numPoint = m.numPoint := by
  induction chains generalizing m with
  | nil => rfl
  | cons c chains ih =>
      have hmove : (m.move hash c).numPoint = m.numPoint := by
        cases c with
        | nil => rfl
        | cons info next => rfl
      exact (ih (m.move hash c)).trans hmove

/-- Each chain is counted once. -/
theorem moveAll_sum (hash : String → UInt64) (m : Mhash) (chains : List (List Info)) :
    (m.moveAll hash chains).sum = m.sum + occupied chains := by
  induction chains generalizing m with
  | nil => simp [moveAll, occupied]
  | cons c chains ih =>
      refine (ih (m.move hash c)).trans ?_
      cases c with
      | nil => rfl
      | cons info next =>
          have hsum : (m.move hash (info :: next)).sum = m.sum + 1 := rfl
          rw [hsum, occupied_cons_cons]
          push_cast
          omega

theorem flatten_buckets (m : Mhash) : (m.buckets.flatten : Multiset Info) = m.contents :=
  flatten_ofFn m.head

theorem occupied_pos {m : Mhash} (h : m.contents ≠ 0) : 0 < occupied m.buckets := by
  refine Nat.pos_of_ne_zero fun hzero => h ?_
  have hnil : m.buckets.flatten = [] := by
    rw [List.flatten_eq_nil_iff]
    intro c hc
    simpa using List.countP_eq_zero.1 hzero c hc
  rw [← flatten_buckets, hnil]
  rfl

theorem contents_cut (hash : String → UInt64) (k : String) (lsn : Int) (m : Mhash) :
    (m.cut hash k lsn).contents + (m.deleted hash k lsn : List Info) = m.contents := by
  have hupdate := pool_update m.head (m.getPos hash k) (m.spared hash k lsn)
  rw [← deleted_append_spared hash k lsn m, ← Multiset.coe_add, ← add_assoc] at hupdate
  exact add_right_cancel hupdate

theorem placed_append {hash : String → UInt64} {m : Mhash} (h : m.Placed hash) (info : Info) :
    (m.append hash info []).Placed hash := by
  intro pos i hi
  change m.getPos hash i.key = pos
  by_cases hpos : pos = m.getPos hash info.key
  · subst hpos
    simp only [append, Function.update_self] at hi
    rcases List.mem_append.1 hi with hi | hi
    · exact h _ i hi
    · rw [List.mem_singleton.1 hi]
  · have hsame : (m.append hash info []).head pos = m.head pos := Function.update_of_ne hpos _ _
    exact h pos i (hsame ▸ hi)

theorem placed_cut {hash : String → UInt64} {m : Mhash} (h : m.Placed hash) (k : String)
    (lsn : Int) : (m.cut hash k lsn).Placed hash := by
  intro pos i hi
  change m.getPos hash i.key = pos
  by_cases hpos : pos = m.getPos hash k
  · subst hpos
    simp only [cut, Function.update_self] at hi
    exact h _ i ((List.dropWhile_sublist _).subset hi)
  · have hsame : (m.cut hash k lsn).head pos = m.head pos := Function.update_of_ne hpos _ _
    exact h pos i (hsame ▸ hi)

/-! ### Runs -/

inductive Op where
  | insert (k : String) (lsn : Int)
  | delLessThan (k : String) (lsn : Int)
deriving DecidableEq

/-- A table with the entries that were inserted and not deleted. -/
structure Recorded where
  table : Mhash
  live : List Info

/-- `none` is a call that does not return. -/
def Recorded.step (hash : String → UInt64) (s : Recorded) : Op → Option Recorded
  | .insert k lsn => (s.table.insert hash k lsn).map fun m => ⟨m, s.live ++ [⟨k, lsn⟩]⟩
  | .delLessThan k lsn =>
      (s.table.delLessThan hash k lsn).map fun m => ⟨m, s.live.diff (s.table.deleted hash k lsn)⟩

def run (hash : String → UInt64) (l : List Op) : Option Recorded :=
  l.foldlM (Recorded.step hash) ⟨init, []⟩

theorem run_concat (hash : String → UInt64) (l : List Op) (op : Op) :
    run hash (l ++ [op]) = (run hash l).bind fun s => s.step hash op := by
  simp [run, List.foldlM_append]

/-- The outcomes of a call that returns. -/
inductive Recorded.Step (hash : String → UInt64) (s : Recorded) : Op → Recorded → Prop where
  | insert (k : String) (lsn : Int) (hroom : s.table.sum + 1 ≠ primeNum s.table.numPoint - 1) :
      Step hash s (.insert k lsn) ⟨s.table.append hash ⟨k, lsn⟩ [], s.live ++ [⟨k, lsn⟩]⟩
  | grow (k : String) (lsn : Int) (hfull : s.table.sum + 1 = primeNum s.table.numPoint - 1)
      (hgrow : (s.table.append hash ⟨k, lsn⟩ []).CanGrow) :
      Step hash s (.insert k lsn)
        ⟨((s.table.append hash ⟨k, lsn⟩ []).grown hgrow.1).moveAll hash
          (s.table.append hash ⟨k, lsn⟩ []).buckets, s.live ++ [⟨k, lsn⟩]⟩
  | delete (k : String) (lsn : Int) (hleft : s.table.spared hash k lsn ≠ []) :
      Step hash s (.delLessThan k lsn)
        ⟨s.table.cut hash k lsn, s.live.diff (s.table.deleted hash k lsn)⟩

theorem Recorded.step_step {hash : String → UInt64} {s s' : Recorded} {op : Op}
    (h : s.step hash op = some s') : Recorded.Step hash s op s' := by
  cases op with
  | insert k lsn =>
      obtain ⟨m, hm, rfl⟩ := Option.map_eq_some_iff.1 h
      rw [insert_eq] at hm
      split at hm
      · rename_i hfull
        split at hm
        · rename_i hgrow
          obtain rfl := Option.some.inj hm
          exact .grow k lsn hfull hgrow
        · simp at hm
      · rename_i hroom
        obtain rfl := Option.some.inj hm
        exact .insert k lsn hroom
  | delLessThan k lsn =>
      obtain ⟨m, hm, rfl⟩ := Option.map_eq_some_iff.1 h
      rw [delLessThan_eq] at hm
      split at hm
      · simp at hm
      · rename_i hleft
        obtain rfl := Option.some.inj hm
        exact .delete k lsn hleft

/-- What holds along every run. -/
structure Recorded.Sound (hash : String → UInt64) (s : Recorded) : Prop where
  stored : s.table.contents = s.live
  room : s.table.sum < primeNum s.table.numPoint - 1
  exact : s.table.numPoint = 0 → s.table.sum = s.live.length ∧ s.table.Placed hash
  excess : s.table.numPoint ≠ 0 → (s.live.length : Int) < s.table.sum

theorem Recorded.Sound.length_le {hash : String → UInt64} {s : Recorded} (h : s.Sound hash) :
    (s.live.length : Int) ≤ s.table.sum := by
  by_cases hzero : s.table.numPoint = 0
  · exact le_of_eq (h.exact hzero).1.symm
  · exact le_of_lt (h.excess hzero)

theorem sound_init (hash : String → UInt64) : (⟨init, []⟩ : Recorded).Sound hash where
  stored := pool_nil
  room := by decide
  exact := fun _ => ⟨rfl, fun _ _ hi => absurd hi (by simp [init])⟩
  excess := fun hne => absurd rfl hne

theorem Recorded.Sound.append {hash : String → UInt64} {s : Recorded} (h : s.Sound hash)
    (info : Info) (hroom : s.table.sum + 1 ≠ primeNum s.table.numPoint - 1) :
    (⟨s.table.append hash info [], s.live ++ [info]⟩ : Recorded).Sound hash where
  stored := by
    rw [contents_append, h.stored, Multiset.coe_add]
  room := by
    have hold := h.room
    change s.table.sum + 1 < (primeNum s.table.numPoint : Int) - 1
    omega
  exact := by
    intro hzero
    obtain ⟨hsum, hplaced⟩ := h.exact hzero
    refine ⟨?_, placed_append hplaced info⟩
    change s.table.sum + 1 = _
    rw [hsum, List.length_append, List.length_singleton]
    rfl
  excess := by
    intro hne
    have hold := h.excess hne
    change ((s.live ++ [info]).length : Int) < s.table.sum + 1
    rw [List.length_append, List.length_singleton]
    omega

theorem Recorded.Sound.grow {hash : String → UInt64} {s : Recorded} (h : s.Sound hash)
    (info : Info) (hfull : s.table.sum + 1 = primeNum s.table.numPoint - 1)
    (hgrow : (s.table.append hash info []).CanGrow) :
    (⟨((s.table.append hash info []).grown hgrow.1).moveAll hash
      (s.table.append hash info []).buckets, s.live ++ [info]⟩ : Recorded).Sound hash := by
  have hcontents : (s.table.append hash info []).contents = (s.live ++ [info] : List Info) := by
    rw [contents_append, h.stored, Multiset.coe_add]
  have hsum : (((s.table.append hash info []).grown hgrow.1).moveAll hash
      (s.table.append hash info []).buckets).sum =
        s.table.sum + 1 + occupied (s.table.append hash info []).buckets := moveAll_sum hash _ _
  have hpoint := moveAll_numPoint hash ((s.table.append hash info []).grown hgrow.1)
    (s.table.append hash info []).buckets
  have hocc : occupied (s.table.append hash info []).buckets <
      primeNum ⟨s.table.numPoint.val + 1, hgrow.1⟩ - primeNum s.table.numPoint := hgrow.2
  constructor
  · rw [contents_moveAll, flatten_buckets, hcontents]
    exact (congrArg (· + _) pool_nil).trans (zero_add _)
  · rw [hsum, hpoint]
    change _ < (primeNum ⟨s.table.numPoint.val + 1, hgrow.1⟩ : Int) - 1
    omega
  · intro hzero
    rw [hpoint] at hzero
    exact absurd (congrArg Fin.val hzero) (by simp [grown])
  · intro _
    have hpos : 0 < occupied (s.table.append hash info []).buckets := by
      refine occupied_pos ?_
      rw [hcontents]
      simp
    have hle := h.length_le
    rw [hsum, List.length_append, List.length_singleton]
    omega

theorem Recorded.Sound.cut {hash : String → UInt64} {s : Recorded} (h : s.Sound hash)
    (k : String) (lsn : Int) :
    (⟨s.table.cut hash k lsn, s.live.diff (s.table.deleted hash k lsn)⟩ : Recorded).Sound hash := by
  have hcut := contents_cut hash k lsn s.table
  have hle : (s.table.deleted hash k lsn : Multiset Info) ≤ s.live := by
    rw [← h.stored, ← hcut]
    exact Multiset.le_add_left _ _
  have hlength : (s.live.diff (s.table.deleted hash k lsn)).length =
      s.live.length - (s.table.deleted hash k lsn).length := by
    have hcard := Multiset.card_sub hle
    rwa [Multiset.coe_sub] at hcard
  have hsmall : (s.table.deleted hash k lsn).length ≤ s.live.length := Multiset.card_le_card hle
  constructor
  · rw [← Multiset.coe_sub, ← h.stored, ← hcut, Multiset.add_sub_cancel_right]
  · have hold := h.room
    change s.table.sum - _ < (primeNum s.table.numPoint : Int) - 1
    omega
  · intro hzero
    obtain ⟨hsum, hplaced⟩ := h.exact hzero
    refine ⟨?_, placed_cut hplaced k lsn⟩
    change s.table.sum - _ = _
    rw [hlength]
    omega
  · intro hne
    have hold := h.excess hne
    change _ < s.table.sum - _
    rw [hlength]
    omega

theorem Recorded.Sound.step {hash : String → UInt64} {s s' : Recorded} {op : Op}
    (h : s.Sound hash) (hstep : Recorded.Step hash s op s') : s'.Sound hash := by
  cases hstep with
  | insert k lsn hroom => exact h.append _ hroom
  | grow k lsn hfull hgrow => exact h.grow _ hfull hgrow
  | delete k lsn hleft => exact h.cut k lsn

theorem sound_run {hash : String → UInt64} {l : List Op} {s : Recorded}
    (h : run hash l = some s) : s.Sound hash := by
  induction l using List.reverseRecOn generalizing s with
  | nil =>
      obtain rfl := Option.some.inj h
      exact sound_init hash
  | append_singleton l op ih =>
      rw [run_concat] at h
      obtain ⟨s₀, hs₀, hstep⟩ := Option.bind_eq_some_iff.1 h
      exact (ih hs₀).step (Recorded.step_step hstep)

end Mhash

end Grit
