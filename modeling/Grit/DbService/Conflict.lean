import Grit.Library.History
import Grit.DbService.Calls

/-!
# The local check on the table of the comments

With `Wcheck.contract` the table always holds exactly the write keys that were
cached and not purged since: an entry is purged by every later validation of a
larger lsn that checks its key, whether or not that validation is of a
transaction that conflicts with it. A validation finds a conflict exactly when
an entry of one of its keys with an lsn that is not smaller than its own is
left, so it misses a cached write when all the entries it needs are gone.
-/

namespace Grit

open History

namespace DbService

variable {C : Type*}

/-- What a check of the keys `keys` with lsn `lsn` on the table `w` returns. -/
structure CheckSpec (lsn : Int) (keys : List String) (w : List Info)
    (r : List Info × List String × Bool) : Prop where
  mem : ∀ i, i ∈ r.1 ↔ i ∈ w ∧ (i.key ∈ r.2.1 → lsn ≤ i.lsn)
  conflict : r.2.2 = true ↔ ∃ i ∈ w, i.key ∈ keys ∧ lsn ≤ i.lsn

theorem checkSet_contract (lsn : Int) (l : List Data) (w : List Info) :
    ∃ r, checkSet Wcheck.contract lsn l w = some r ∧
      CheckSpec lsn (l.map Data.key) w r := by
  induction l generalizing w with
  | nil => exact ⟨_, rfl, by simp, by simp⟩
  | cons it rest ih =>
      rw [checkSet, Wcheck.contract_delLessThan, Option.bind_some]
      generalize hw' : w.filter (fun i => !(i.key = it.key && i.lsn < lsn)) = w'
      have hmem : ∀ i, i ∈ w' ↔ i ∈ w ∧ (i.key = it.key → lsn ≤ i.lsn) := by
        intro i
        rw [← hw']
        exact Wcheck.mem_purge w it.key lsn i
      have hex := Wcheck.contract_exist w' it.key
      by_cases h : Wcheck.contract.exist w' it.key = true
      · rw [if_pos h]
        obtain ⟨i, hi, hkey⟩ := hex.1 h
        refine ⟨_, rfl, ?_, ?_⟩
        · intro j
          simpa using hmem j
        · simp only [List.map_cons, List.mem_cons, true_iff]
          exact ⟨i, ((hmem i).1 hi).1, Or.inl hkey, ((hmem i).1 hi).2 hkey⟩
      · rw [if_neg h]
        obtain ⟨r, hr, hspec⟩ := ih w'
        rw [hr]
        refine ⟨_, rfl, ?_, ?_⟩
        · intro j
          simp only [hspec.mem j, hmem j, List.mem_cons]
          constructor
          · rintro ⟨⟨hj, h1⟩, h2⟩
            exact ⟨hj, fun hor => hor.elim h1 h2⟩
          · rintro ⟨hj, h3⟩
            exact ⟨⟨hj, fun h1 => h3 (Or.inl h1)⟩, fun h2 => h3 (Or.inr h2)⟩
        · simp only [hspec.conflict, List.map_cons, List.mem_cons]
          constructor
          · rintro ⟨i, hi, hk, hl⟩
            exact ⟨i, ((hmem i).1 hi).1, Or.inr hk, hl⟩
          · rintro ⟨i, hi, hk | hk, hl⟩
            · exact absurd (hex.2 ⟨i, (hmem i).2 ⟨hi, fun _ => hl⟩, hk⟩) h
            · exact ⟨i, (hmem i).2 ⟨hi, fun _ => hl⟩, hk, hl⟩

/-- The check always returns; it purges the keys it reports, and it finds a
conflict exactly when an entry of a key of `t` that is not older than `t` is in
the table. -/
theorem localCheck_contract (t : Transaction) (w : List Info) :
    ∃ r, localCheck Wcheck.contract t w = some r ∧ CheckSpec t.lsn t.keys w r := by
  obtain ⟨r, hr, hspec⟩ := checkSet_contract t.lsn t.readSet w
  rw [localCheck, hr, Option.bind_some]
  by_cases hc : r.2.2 = true
  · rw [if_pos hc]
    refine ⟨r, rfl, hspec.mem, ?_⟩
    have hfound := hspec.conflict.1 hc
    obtain ⟨i, hi, hk, hl⟩ := hfound
    simp only [hc, true_iff]
    exact ⟨i, hi, List.mem_append_left _ hk, hl⟩
  · rw [if_neg hc]
    obtain ⟨r', hr', hspec'⟩ := checkSet_contract t.lsn t.writeSet r.1
    rw [hr']
    refine ⟨_, rfl, ?_, ?_⟩
    · intro i
      simp only [hspec'.mem i, hspec.mem i, List.mem_append]
      constructor
      · rintro ⟨⟨hi, h1⟩, h2⟩
        exact ⟨hi, fun hor => hor.elim h1 h2⟩
      · rintro ⟨hi, h3⟩
        exact ⟨⟨hi, fun h1 => h3 (Or.inl h1)⟩, fun h2 => h3 (Or.inr h2)⟩
    · simp only [hspec'.conflict]
      constructor
      · rintro ⟨i, hi, hk, hl⟩
        exact ⟨i, ((hspec.mem i).1 hi).1, List.mem_append_right _ hk, hl⟩
      · rintro ⟨i, hi, hk, hl⟩
        rcases List.mem_append.1 hk with hk | hk
        · exact absurd (hspec.conflict.2 ⟨i, hi, hk, hl⟩) hc
        · exact ⟨i, (hspec.mem i).2 ⟨hi, fun _ => hl⟩, hk, hl⟩

theorem insertAll_contract (lsn : Int) (l : List Data) (w : List Info) :
    insertAll Wcheck.contract lsn l w =
      some (w ++ l.map fun d => ⟨d.key, lsn⟩) := by
  induction l generalizing w with
  | nil => simp [insertAll]
  | cons it rest ih =>
      rw [insertAll, Wcheck.contract_insert, Option.bind_some, ih]
      simp

/-- The event puts the entry `i` into the table. -/
def Caches (i : Info) : Event C → Prop
  | .cacheRWSet u => i.key ∈ u.writeKeys ∧ i.lsn = u.lsn
  | _ => False

/-- The event purges the entry `i`: a validation of a larger lsn has checked
its key. -/
def Purges (i : Info) : Event C → Prop
  | .judged v ks _ => i.key ∈ ks ∧ i.lsn < v.lsn
  | _ => False

/-- The table holds what was cached and not purged since. -/
def Tracks (s : DbService C (List Info)) : Prop :=
  ∀ i, i ∈ s.wcheck ↔ Since (Caches i) (Purges i) s.out

/-- What the events of a validation do to an entry: the check may purge it, and
a local transaction that passes may put it in. -/
theorem since_judged (i : Info) (h : List (Event C)) (t : Transaction)
    (ks : List String) (c : Bool) (tail : List (Event C)) :
    Since (Caches i) (Purges i)
        (h ++ (prologue t ++ Event.judged t ks c :: tail)) ↔
      tail.foldl (fun P e => Caches i e ∨ P ∧ ¬ Purges i e)
        (Since (Caches i) (Purges i) h ∧ (i.key ∈ ks → t.lsn ≤ i.lsn)) := by
  have hjudged : (prologue t ++ [Event.judged t ks c] : List (Event C)).foldl
        (fun P e => Caches i e ∨ P ∧ ¬ Purges i e)
        (Since (Caches i) (Purges i) h) =
      (Since (Caches i) (Purges i) h ∧ (i.key ∈ ks → t.lsn ≤ i.lsn)) := by
    simp [prologue, Caches, Purges]
  have hsplit : prologue t ++ Event.judged t ks c :: tail =
      (prologue t ++ [Event.judged t ks c]) ++ tail := by simp
  rw [since_append, hsplit, List.foldl_append, hjudged]

/-- The entries of the table after the insertions of `cacheRWSet`. -/
theorem mem_insertAll (t : Transaction) (w w' : List Info)
    (hw : insertAll Wcheck.contract t.lsn t.writeSet w = some w') (i : Info) :
    i ∈ w' ↔ i ∈ w ∨ i.key ∈ t.writeKeys ∧ i.lsn = t.lsn := by
  rw [insertAll_contract, Option.some.injEq] at hw
  rw [← hw, List.mem_append, List.mem_map]
  apply or_congr_right
  constructor
  · intro h
    obtain ⟨d, hd, rfl⟩ := h
    exact ⟨List.mem_map_of_mem hd, rfl⟩
  · intro h
    obtain ⟨hk, hl⟩ := h
    obtain ⟨d, hd, hkey⟩ := List.mem_map.1 hk
    exact ⟨d, hd, by cases i; simp_all⟩

theorem tracks_of_judgeStep {p : Nat} {t : Transaction}
    {s s' : DbService C (List Info)} (h : Tracks s)
    (hs : JudgeStep Wcheck.contract p t s s') : Tracks s' := by
  obtain ⟨r, hr, hspec⟩ := localCheck_contract t s.wcheck
  intro i
  cases hs with
  | stuck hc => simp [hc] at hr
  | vote w ks hc hg =>
      rw [hc] at hr
      cases hr
      rw [since_judged, hspec.mem i, h i]
      simp [Caches, Purges]
  | cacheStuck w ks hc hg hw => simp [insertAll_contract] at hw
  | cache w w' ks hc hg hw =>
      rw [hc] at hr
      cases hr
      rw [since_judged, mem_insertAll t w w' hw, hspec.mem i, h i]
      simp [Caches, Purges, or_comm]
  | failLost w ks hc hconn =>
      rw [hc] at hr
      cases hr
      rw [since_judged, hspec.mem i, h i]
      simp [Caches, Purges]
  | fail w ks conn heap c vote hc hconn hheap hvote =>
      rw [hc] at hr
      cases hr
      rw [since_judged, hspec.mem i, h i]
      rcases hvote with rfl | ⟨-, rfl⟩
      · simp [Caches, Purges]
      · simp [Caches, Purges]

theorem tracks_of_solveStep {data : DbtmMsg} {s s' : DbService C (List Info)}
    (h : Tracks s) (hs : SolveStep Wcheck.contract data s s') : Tracks s' := by
  intro i
  cases hs with
  | missing => exact h i
  | dangling => exact h i
  | cacheStuck p t hp ht hd hw => simp [insertAll_contract] at hw
  | cache p t w tail hp ht hd hw htail =>
      rw [mem_insertAll t _ w hw, since_append, h i]
      rcases htail with ⟨rfl, -⟩ | rfl
      · simp [Caches, Purges, or_comm]
      · simp [Caches, Purges, or_comm]
  | fail s' hd hret =>
      cases hret with
      | lost =>
          rw [since_append, since_append, h i]
          simp [Caches, Purges]
      | sent =>
          rw [since_append, since_append, h i]
          simp [Caches, Purges]

/-- In every state of every run the table holds what was cached and not purged
since. -/
theorem tracks_calls (l : List (Call C)) :
    Tracks (calls Wcheck.contract (init [] : DbService C (List Info)) l) := by
  refine calls_invariant l ?_ ?_ ?_
  · intro i
    simp [init, not_since_nil]
  · intro s conn t _ hP s' hstep
    exact tracks_of_judgeStep (s := s.arrive conn t) hP hstep
  · intro s data _ hP s' hstep
    exact tracks_of_solveStep hP hstep

/-- The cached transaction `u` wrote the key `k` of `t`, and it is not older
than `t`: a validation of `t` has to see it. -/
def MustSee (t u : Transaction) (k : String) : Prop :=
  t.lsn ≤ u.lsn ∧ k ∈ u.writeKeys ∧ k ∈ t.keys

/-- If the local check of `t` finds no conflict then no transaction cached so
far is one that `t` must see. -/
def NoMissedConflict (s : DbService C (List Info)) (t : Transaction) : Prop :=
  ∀ w ks, localCheck Wcheck.contract t s.wcheck = some (w, ks, false) →
    ∀ u k, .cacheRWSet u ∈ s.out → ¬ MustSee t u k

/-- After every run the check of `t` misses no cached write exactly when, if
there is a write that it must see, one of them is still in the table: no
validation of a larger lsn has checked its key since it was cached. -/
theorem noMissedConflict_iff (l : List (Call C)) (t : Transaction) :
    NoMissedConflict (calls Wcheck.contract (init []) l) t ↔
      ((∃ u k, Event.cacheRWSet u ∈ (calls Wcheck.contract
          (init [] : DbService C (List Info)) l).out ∧ MustSee t u k) →
        ∃ pre u post k, (calls Wcheck.contract
            (init [] : DbService C (List Info)) l).out =
              pre ++ .cacheRWSet u :: post ∧ MustSee t u k ∧
          ∀ v ks c, .judged v ks c ∈ post → k ∈ ks → v.lsn ≤ u.lsn) := by
  have htracks := tracks_calls (C := C) l
  generalize calls Wcheck.contract (init [] : DbService C (List Info)) l = s at htracks
  obtain ⟨r, hr, hspec⟩ := localCheck_contract t s.wcheck
  constructor
  · intro h hex
    obtain ⟨u, k, hu, hsee⟩ := hex
    have hconf : r.2.2 = true := by
      by_contra hc
      have hfalse : r.2.2 = false := by simpa using hc
      have hr' : localCheck Wcheck.contract t s.wcheck = some (r.1, r.2.1, false) := by
        rw [hr, ← hfalse]
      exact h r.1 r.2.1 hr' u k hu hsee
    obtain ⟨i, hi, hk, hl⟩ := hspec.conflict.1 hconf
    obtain ⟨pre, e, post, hout, hcache, hpost⟩ := (htracks i).1 hi
    cases e with
    | cacheRWSet u' =>
        refine ⟨pre, u', post, i.key, hout, ⟨hcache.2 ▸ hl, hcache.1, hk⟩, ?_⟩
        intro v ks c hv hks
        by_contra hlt
        have hl' := hcache.2
        exact hpost _ hv ⟨hks, by omega⟩
    | _ => exact absurd hcache (by simp [Caches])
  · intro h w ks hcheck u k hu hsee
    obtain ⟨pre, u', post, k', hout, hsee', hpost⟩ := h ⟨u, k, hu, hsee⟩
    have hmem : (⟨k', u'.lsn⟩ : Info) ∈ s.wcheck := by
      rw [htracks]
      refine ⟨pre, _, post, hout, ⟨hsee'.2.1, rfl⟩, ?_⟩
      intro x hx hpurge
      cases x with
      | judged v ks' c =>
          have hle := hpost v ks' c hx hpurge.1
          exact absurd hpurge.2 (by simpa using hle)
      | _ => exact hpurge
    have hconf : r.2.2 = true :=
      hspec.conflict.2 ⟨_, hmem, hsee'.2.2, hsee'.1⟩
    rw [hr] at hcheck
    cases hcheck
    simp at hconf

/-- Transaction `1` with lsn `5` has written `a` and is cached, transaction `2`
with lsn `10` has read `a` and purged that entry, and transaction `3` with lsn
`3`, which writes `a` too, finds no conflict. -/
theorem not_noMissedConflict_purged :
    ¬ NoMissedConflict (calls Wcheck.contract (init [] : DbService Unit (List Info))
        [.judgeLocalConflict () { Transaction.init 1 with
            writeSet := [⟨"a", "", "x", "1"⟩], lsn := 5 },
          .judgeLocalConflict () { Transaction.init 2 with
            readSet := [⟨"a", "", "x", "1"⟩], lsn := 10 }])
      { Transaction.init 3 with writeSet := [⟨"a", "", "x", "2"⟩], lsn := 3 } := by
  intro h
  have hout : Event.cacheRWSet { Transaction.init 1 with
        writeSet := [⟨"a", "", "x", "1"⟩], lsn := 5 } ∈
      (calls Wcheck.contract (init [] : DbService Unit (List Info))
        [.judgeLocalConflict () { Transaction.init 1 with
            writeSet := [⟨"a", "", "x", "1"⟩], lsn := 5 },
          .judgeLocalConflict () { Transaction.init 2 with
            readSet := [⟨"a", "", "x", "1"⟩], lsn := 10 }]).out := by
    decide
  refine h [] ["a"] (by decide) _ "a" hout ⟨by decide, by decide, by decide⟩

end DbService

end Grit
