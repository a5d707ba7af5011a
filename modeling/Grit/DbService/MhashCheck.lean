import Grit.DbService.Calls

/-!
# The local check on the table of the code

With `Mhash` the first key of a transaction decides its local check: either its
purge follows the null node, or it leaves a node in the bucket and the lookup
answers that the key exists. So a transaction with a key never passes, nothing
is ever cached, and in every state that a run of the DBTM reaches the table is
still the empty one.
-/

namespace Grit

namespace DbService

variable {C : Type*} (hash : String → UInt64)

theorem checkSet_mhash_cons (lsn : Int) (it : Data) (rest : List Data)
    (m : Mhash) :
    checkSet (Mhash.wcheck hash) lsn (it :: rest) m =
      (m.delLessThan hash it.key lsn).map fun m' => (m', [it.key], true) := by
  rw [checkSet]
  change (m.delLessThan hash it.key lsn).bind _ = _
  cases hdel : m.delLessThan hash it.key lsn with
  | none => rfl
  | some m' =>
      have hex : (Mhash.wcheck hash).exist m' it.key = true :=
        Mhash.exist_of_delLessThan hash m m' it.key lsn hdel
      simp [hex]

/-- A transaction with a key does not pass the local check. -/
theorem localCheck_mhash_ne (t : Transaction) (m : Mhash) (w : Mhash)
    (ks : List String) (h : localCheck (Mhash.wcheck hash) t m = some (w, ks, false)) :
    t.readSet = [] ∧ t.writeSet = [] := by
  unfold localCheck at h
  cases hr : t.readSet with
  | cons it rest =>
      exfalso
      rw [hr, checkSet_mhash_cons] at h
      cases hdel : m.delLessThan hash it.key t.lsn with
      | none => simp [hdel] at h
      | some m' => simp [hdel] at h
  | nil =>
      refine ⟨rfl, ?_⟩
      rw [hr] at h
      cases hw : t.writeSet with
      | nil => rfl
      | cons it rest =>
          exfalso
          rw [hw] at h
          cases hdel : m.delLessThan hash it.key t.lsn with
          | none => simp [hdel, checkSet_mhash_cons] at h
          | some m' => simp [hdel, checkSet_mhash_cons] at h

theorem localCheck_mhash_nil (t : Transaction) (m : Mhash)
    (hr : t.readSet = []) (hw : t.writeSet = []) :
    localCheck (Mhash.wcheck hash) t m = some (m, [], false) := by
  simp [localCheck, hr, hw]

/-- On the empty table every bucket is empty, so a transaction with a key does
not complete its check. -/
theorem localCheck_mhash_init (t : Transaction)
    (h : ¬ (t.readSet = [] ∧ t.writeSet = [])) :
    localCheck (Mhash.wcheck hash) t Mhash.init = none := by
  have hdel : ∀ k lsn, Mhash.init.delLessThan hash k lsn = none := fun k lsn =>
    Mhash.delLessThan_eq_none hash Mhash.init k lsn rfl
  unfold localCheck
  cases hr : t.readSet with
  | cons it rest => simp [checkSet_mhash_cons, hdel]
  | nil =>
      cases hw : t.writeSet with
      | nil => exact absurd ⟨hr, hw⟩ h
      | cons it rest =>
          simp [checkSet_mhash_cons, hdel]

/-- The table is empty and the DBTM holds only transactions without writes. -/
structure Untouched (s : DbService C Mhash) : Prop where
  wcheck : s.wcheck = Mhash.init
  held_lt : ∀ k p, s.dbtmTable.find k = some p → p < s.next
  held : ∀ k p t, s.dbtmTable.find k = some p → s.heap p = some t → t.writeSet = []

theorem untouched_arrive {s : DbService C Mhash} (h : Untouched s) (conn : C)
    (t : Transaction) : Untouched (s.arrive conn t) where
  wcheck := h.wcheck
  held_lt k p hp := Nat.lt_succ_of_lt (h.held_lt k p hp)
  held k p u hp hu := by
    have hne : p ≠ s.next := Nat.ne_of_lt (h.held_lt k p hp)
    refine h.held k p u hp ?_
    simpa [arrive, hne] using hu

/-- Holding one more transaction without writes keeps `Untouched`. -/
theorem untouched_hold {s s' : DbService C Mhash} (h : Untouched s) {k : Int} {q : ℕ}
    (hw : s'.wcheck = Mhash.init) (hnext : s'.next = s.next) (hheap : s'.heap = s.heap)
    (htable : s'.dbtmTable = s.dbtmTable.insert k q) (hq : q < s.next)
    (hnone : ∀ t, s.heap q = some t → t.writeSet = []) : Untouched s' where
  wcheck := hw
  held_lt k' p hp := by
    rw [htable, PtrMap.find_insert] at hp
    rw [hnext]
    split at hp
    · cases hp
      exact hq
    · exact h.held_lt k' p hp
  held k' p t hp ht := by
    rw [htable, PtrMap.find_insert] at hp
    rw [hheap] at ht
    split at hp
    · cases hp
      exact hnone t ht
    · exact h.held k' p t hp ht

/-- Dropping entries and freeing transactions keeps `Untouched`. -/
theorem untouched_of_retStep {status : Cmd} {txid : Int}
    {s s' : DbService C Mhash} (h : Untouched s) (hs : RetStep status txid s s') :
    Untouched s' := by
  cases hs with
  | lost _ => exact ⟨h.wcheck, h.held_lt, h.held⟩
  | sent conn heap c _ hheap =>
      refine ⟨h.wcheck, ?_, ?_⟩
      · intro k p hp
        rw [PtrMap.find_erase] at hp
        split at hp
        · simp at hp
        · exact h.held_lt k p hp
      · intro k p t hp ht
        rw [PtrMap.find_erase] at hp
        split at hp
        · simp at hp
        · rcases hheap p with heq | ⟨-, hnone⟩
          · exact h.held k p t hp (heq ▸ ht)
          · simp [hnone] at ht

theorem untouched_of_judgeStep {t : Transaction} {s s' : DbService C Mhash}
    {conn : C} (h : Untouched s)
    (hs : JudgeStep (Mhash.wcheck hash) s.next t (s.arrive conn t) s') :
    s'.crashed = false → Untouched s' := by
  have ha := untouched_arrive h conn t
  have hinit : (s.arrive conn t).wcheck = Mhash.init := ha.wcheck
  have hnew : t.writeSet = [] →
      ∀ u, (s.arrive conn t).heap s.next = some u → u.writeSet = [] := by
    intro hw u hu
    have htu : t = u := by simpa [arrive] using hu
    exact htu ▸ hw
  cases hs with
  | stuck _ => simp
  | cacheStuck => simp
  | failLost => simp
  | fail w ks conn' heap c vote hc =>
      exfalso
      rw [hinit] at hc
      by_cases he : t.readSet = [] ∧ t.writeSet = []
      · rw [localCheck_mhash_nil hash t _ he.1 he.2] at hc
        simp at hc
      · rw [localCheck_mhash_init hash t he] at hc
        simp at hc
  | vote w ks hc hg =>
      intro _
      obtain ⟨hr, hw⟩ := localCheck_mhash_ne hash t _ w ks hc
      rw [localCheck_mhash_nil hash t _ hr hw] at hc
      cases hc
      exact untouched_hold ha hinit rfl rfl rfl (Nat.lt_succ_self s.next) (hnew hw)
  | cache w w' ks hc hg hins =>
      intro _
      obtain ⟨hr, hw⟩ := localCheck_mhash_ne hash t _ w ks hc
      rw [localCheck_mhash_nil hash t _ hr hw] at hc
      cases hc
      rw [hw, insertAll] at hins
      cases hins
      exact untouched_hold ha hinit rfl rfl rfl (Nat.lt_succ_self s.next) (hnew hw)

theorem untouched_of_solveStep {data : DbtmMsg} {s s' : DbService C Mhash}
    (h : Untouched s) (hs : SolveStep (Mhash.wcheck hash) data s s') :
    s'.crashed = false → Untouched s' := by
  cases hs with
  | missing => simp
  | dangling => simp
  | cacheStuck => simp
  | cache p t w tail hp ht hd hw =>
      intro _
      rw [h.held _ p t hp ht, insertAll] at hw
      cases hw
      exact ⟨h.wcheck, h.held_lt, h.held⟩
  | fail s' hd hret =>
      intro _
      refine untouched_of_retStep ?_ hret
      exact ⟨h.wcheck, h.held_lt, h.held⟩

/-- In every live state that a run reaches the table is the empty one. -/
theorem untouched_calls (l : List (Call C))
    (h : (calls (Mhash.wcheck hash) (init Mhash.init : DbService C Mhash) l).crashed =
      false) :
    Untouched (calls (Mhash.wcheck hash) (init Mhash.init : DbService C Mhash) l) := by
  have hall : ∀ s : DbService C Mhash,
      s = calls (Mhash.wcheck hash) (init Mhash.init) l →
        s.crashed = false → Untouched s := by
    rintro s rfl
    refine calls_invariant (P := fun s => s.crashed = false → Untouched s) l ?_ ?_ ?_
    · intro _
      exact ⟨rfl, by simp [init], by simp [init]⟩
    · intro s conn t hs hP s' hstep
      exact untouched_of_judgeStep hash (hP hs) hstep
    · intro s data hs hP s' hstep
      exact untouched_of_solveStep hash (hP hs) hstep
  exact hall _ rfl h

/-- The local check of `t` completes, and it finds no conflict when no cached
transaction wrote a key of `t`. -/
def NoSpuriousAbort (s : DbService C Mhash) (t : Transaction) : Prop :=
  ∃ r, localCheck (Mhash.wcheck hash) t s.wcheck = some r ∧
    ((∀ u, .cacheRWSet u ∈ s.out → ∀ k ∈ u.writeKeys, k ∉ t.keys) → r.2.2 = false)

/-- Whatever the hash function and whatever the run before it, the check of a
transaction completes, and without a spurious conflict, exactly when the
transaction has no key at all. -/
theorem noSpuriousAbort_iff (l : List (Call C)) (t : Transaction)
    (h : (calls (Mhash.wcheck hash) (init Mhash.init : DbService C Mhash) l).crashed =
      false) :
    NoSpuriousAbort hash (calls (Mhash.wcheck hash) (init Mhash.init) l) t ↔
      t.readSet = [] ∧ t.writeSet = [] := by
  have hempty := (untouched_calls hash l h).wcheck
  unfold NoSpuriousAbort
  rw [hempty]
  constructor
  · rintro ⟨r, hr, -⟩
    by_contra hne
    rw [localCheck_mhash_init hash t hne] at hr
    simp at hr
  · rintro ⟨hr, hw⟩
    exact ⟨_, localCheck_mhash_nil hash t _ hr hw, fun _ => rfl⟩

theorem noSpuriousAbort_iff_after_empty :
    (calls (Mhash.wcheck fun _ => 0) (init Mhash.init : DbService Unit Mhash)
        [.judgeLocalConflict () (Transaction.init 1)]).crashed = false ∧
      (NoSpuriousAbort (fun _ => 0)
          (calls (Mhash.wcheck fun _ => 0) (init Mhash.init : DbService Unit Mhash)
            [.judgeLocalConflict () (Transaction.init 1)])
          (Transaction.init 2) ↔
        (Transaction.init 2).readSet = [] ∧ (Transaction.init 2).writeSet = []) :=
  ⟨rfl, noSpuriousAbort_iff (fun _ => 0) _ (Transaction.init 2) rfl⟩

/-- The first transaction that writes a key ends a fresh DBTM. -/
theorem not_noSpuriousAbort_fresh :
    ¬ NoSpuriousAbort (fun _ => 0) (init Mhash.init : DbService Unit Mhash)
      { Transaction.init 1 with writeSet := [⟨"a", "", "x", "1"⟩], lsn := 1 } := by
  rintro ⟨r, hr, -⟩
  have hnone := localCheck_mhash_init (fun _ => 0)
    { Transaction.init 1 with writeSet := [⟨"a", "", "x", "1"⟩], lsn := 1 } (by simp)
  rw [init, hnone] at hr
  simp at hr

end DbService

end Grit
