import Mathlib.Data.List.Induction
import Grit.DbService.MessageSpec

/-!
# The pointers of a DbService process

`WellFormed` says which addresses the two maps and the queued tasks hold. The
map `txidTrans` holds live objects with the right transaction id. The DBTM holds
none of them; what it holds, if it is live, has the right transaction id, too.
No address is at or above `next`. All this is kept by every step after which
the process is alive.
-/

namespace Grit

open Cmd

namespace DbService

variable {C W : Type*}

structure WellFormed (s : DbService C W) : Prop where
  held : ∀ y p, s.txidTrans.find y = some p →
    p < s.next ∧ ∃ t, s.heap p = some t ∧ t.txid = y
  queued : ∀ p, Task.judgeLocalConflict p ∈ s.tasks → p < s.next
  dbtm : ∀ y p, s.dbtmTable.find y = some p → p < s.next
  named : ∀ y p t, s.dbtmTable.find y = some p → s.heap p = some t → t.txid = y
  apart : ∀ y z p, s.dbtmTable.find y = some p → s.txidTrans.find z ≠ some p

theorem wellFormed_init (w : W) : WellFormed (init w : DbService C W) := by
  constructor
  · intro y p h
    simp [init] at h
  · intro p h
    simp [init] at h
  · intro y p h
    simp [init] at h
  · intro y p t h
    simp [init] at h
  · intro y z p h
    simp [init] at h

theorem WellFormed.txid_eq {s : DbService C W} (h : WellFormed s) {y : Int} {p : Nat}
    {t : Transaction} (hp : s.txidTrans.find y = some p) (ht : s.heap p = some t) :
    t.txid = y := by
  obtain ⟨-, u, hu, hy⟩ := h.held y p hp
  rw [ht, Option.some.injEq] at hu
  rw [hu, hy]

/-- An address stands in `txidTrans` under one transaction id only. -/
theorem WellFormed.inj {s : DbService C W} (h : WellFormed s) {y z : Int} {p : Nat}
    (hy : s.txidTrans.find y = some p) (hz : s.txidTrans.find z = some p) : y = z := by
  obtain ⟨-, t, ht, rfl⟩ := h.held y p hy
  exact h.txid_eq hz ht

/-- Changing a held object, but not its transaction id, and queueing it. -/
theorem WellFormed.store {s : DbService C W} (h : WellFormed s) {y : Int} {p : Nat}
    (hp : s.txidTrans.find y = some p) {t : Transaction} (ht : t.txid = y)
    {tasks : List Task} (htasks : ∀ q, Task.judgeLocalConflict q ∈ tasks →
      Task.judgeLocalConflict q ∈ s.tasks ∨ q = p)
    (table : PtrMap Int C) (out : List (Event C)) :
    WellFormed { s with
      table := table
      heap := Function.update s.heap p (some t)
      tasks := tasks
      out := out } := by
  constructor
  · intro z q hq
    obtain ⟨hlt, u, hu, hz⟩ := h.held z q hq
    refine ⟨hlt, ?_⟩
    by_cases hqp : q = p
    · subst hqp
      exact ⟨t, Function.update_self _ _ _, ht.trans (h.inj hp hq)⟩
    · exact ⟨u, (Function.update_of_ne hqp _ _).trans hu, hz⟩
  · intro q hq
    rcases htasks q hq with hq | rfl
    · exact h.queued q hq
    · exact (h.held y q hp).1
  · exact h.dbtm
  · intro z q u hq hu
    have hqp : q ≠ p := by
      intro heq
      subst heq
      exact h.apart z y q hq hp
    exact h.named z q u hq ((Function.update_of_ne hqp _ _).symm.trans hu)
  · exact h.apart

/-- Dropping what the DBTM holds for a transaction. -/
theorem WellFormed.drop {s : DbService C W} (h : WellFormed s) {y : Int}
    {heap : Nat → Option Transaction}
    (hheap : ∀ q, heap q = s.heap q ∨ s.dbtmTable.find y = some q ∧ heap q = none)
    (w : W) (out : List (Event C)) (c : Bool) :
    WellFormed { s with
      dbtmTable := s.dbtmTable.erase y
      heap := heap
      wcheck := w
      out := out
      crashed := c } := by
  have hold : ∀ {z q}, (s.dbtmTable.erase y).find z = some q →
      s.dbtmTable.find z = some q := by
    intro z q hq
    rw [PtrMap.find_erase] at hq
    split at hq
    · simp at hq
    · exact hq
  constructor
  · intro z q hq
    obtain ⟨hlt, t, ht, hz⟩ := h.held z q hq
    refine ⟨hlt, t, ?_, hz⟩
    rcases hheap q with hsame | ⟨hy, -⟩
    · exact hsame.trans ht
    · exact absurd hq (h.apart y z q hy)
  · exact h.queued
  · intro z q hq
    exact h.dbtm z q (hold hq)
  · intro z q u hq hu
    rcases hheap q with hsame | ⟨-, hnone⟩
    · exact h.named z q u (hold hq) (hsame.symm.trans hu)
    · simp [hnone] at hu
  · intro z u q hq
    exact h.apart z u q (hold hq)

/-- Moving a transaction from `txidTrans` to the DBTM. -/
theorem WellFormed.move {s : DbService C W} (h : WellFormed s) {p : Nat}
    {t : Transaction} (ht : s.heap p = some t) (hp : p < s.next) (w : W)
    (out : List (Event C)) (c : Bool) :
    WellFormed { s with
      dbtmTable := s.dbtmTable.insert t.txid p
      txidTrans := s.txidTrans.erase t.txid
      wcheck := w
      out := out
      crashed := c } := by
  have hold : ∀ {z q}, (s.txidTrans.erase t.txid).find z = some q →
      z ≠ t.txid ∧ s.txidTrans.find z = some q := by
    intro z q hq
    rw [PtrMap.find_erase] at hq
    split at hq
    · simp at hq
    · rename_i hz
      exact ⟨hz, hq⟩
  constructor
  · intro z q hq
    exact h.held z q (hold hq).2
  · exact h.queued
  · intro z q hq
    simp only [PtrMap.find_insert] at hq
    split at hq
    · simp only [Option.some.injEq] at hq
      subst hq
      exact hp
    · exact h.dbtm z q hq
  · intro z q u hq hu
    simp only [PtrMap.find_insert] at hq
    split at hq
    · rename_i hz
      simp only [Option.some.injEq] at hq
      subst hq
      rw [ht, Option.some.injEq] at hu
      rw [hz, hu]
    · exact h.named z q u hq hu
  · intro y z q hy hz
    obtain ⟨hne, hz⟩ := hold hz
    simp only [PtrMap.find_insert] at hy
    split at hy
    · simp only [Option.some.injEq] at hy
      subst hy
      exact hne (h.txid_eq hz ht).symm
    · exact h.apart y z q hy hz

/-- Changes that leave the maps and the heap as they are. -/
theorem WellFormed.keep {s : DbService C W} (h : WellFormed s) {tasks : List Task}
    (htasks : ∀ q, Task.judgeLocalConflict q ∈ tasks →
      Task.judgeLocalConflict q ∈ s.tasks)
    (table : PtrMap Int C) (w : W) (out : List (Event C)) (c : Bool) :
    WellFormed { s with
      table := table
      tasks := tasks
      wcheck := w
      out := out
      crashed := c } := by
  constructor
  · exact h.held
  · intro q hq
    exact h.queued q (htasks q hq)
  · exact h.dbtm
  · exact h.named
  · exact h.apart

/-- A new object in `txidTrans`. -/
theorem WellFormed.opened {s s₁ : DbService C W} (h : WellFormed s) {y : Int}
    {p : Nat} {t : Transaction} (hopen : Opened y s p t s₁) :
    WellFormed s₁ ∧ t.txid = y := by
  cases hopen with
  | old p t hp ht => exact ⟨h, h.txid_eq hp ht⟩
  | new hnone =>
      refine ⟨?_, rfl⟩
      have hlt : ∀ z q, s.txidTrans.find z = some q → q ≠ s.next := by
        intro z q hq heq
        have := (h.held z q hq).1
        omega
      constructor
      · intro z q hq
        simp only [PtrMap.find_insert] at hq
        split at hq
        · rename_i hz
          simp only [Option.some.injEq] at hq
          subst hq
          exact ⟨Nat.lt_succ_self _, _, Function.update_self _ _ _, hz.symm⟩
        · obtain ⟨hq', u, hu, hz⟩ := h.held z q hq
          exact ⟨Nat.lt_succ_of_lt hq', u,
            (Function.update_of_ne (hlt z q hq) _ _).trans hu, hz⟩
      · intro q hq
        exact Nat.lt_succ_of_lt (h.queued q hq)
      · intro z q hq
        exact Nat.lt_succ_of_lt (h.dbtm z q hq)
      · intro z q u hq hu
        have hlt := h.dbtm z q hq
        have hne : q ≠ s.next := by omega
        exact h.named z q u hq ((Function.update_of_ne hne _ _).symm.trans hu)
      · intro z u q hq hu
        simp only [PtrMap.find_insert] at hu
        split at hu
        · simp only [Option.some.injEq] at hu
          have := h.dbtm z q hq
          omega
        · exact h.apart z u q hq hu

/-! ### Steps -/

theorem WellFormed.retStep {status : Cmd} {y : Int} {s s' : DbService C W}
    (h : WellFormed s) (hstep : RetStep status y s s') : WellFormed s' := by
  cases hstep with
  | lost => exact h.keep (fun _ hq => hq) _ _ _ _
  | sent conn heap c hconn hheap => exact h.drop hheap _ _ _

theorem WellFormed.judgeStep {ops : Wcheck W} {p : Nat} {t : Transaction}
    {s s' : DbService C W} (h : WellFormed s) (ht : s.heap p = some t)
    (hp : p < s.next) (hstep : JudgeStep ops p t s s') : WellFormed s' := by
  cases hstep with
  | stuck => exact h.keep (fun _ hq => hq) _ _ _ _
  | vote => exact h.move ht hp _ _ _
  | cacheStuck => exact h.move ht hp _ _ _
  | cache => exact h.move ht hp _ _ _
  | failLost => exact h.keep (fun _ hq => hq) _ _ _ _
  | fail w ks conn heap c vote hcheck hconn hheap => exact h.drop hheap _ _ _

theorem WellFormed.solveStep {ops : Wcheck W} {data : DbtmMsg} {s s' : DbService C W}
    (h : WellFormed s) (hstep : SolveStep ops data s s') : WellFormed s' := by
  cases hstep with
  | missing =>
      constructor
      · exact h.held
      · exact h.queued
      · intro y p hp
        rw [PtrMap.find_touch] at hp
        exact h.dbtm y p hp
      · intro y p t hp
        rw [PtrMap.find_touch] at hp
        exact h.named y p t hp
      · intro y z p hp
        rw [PtrMap.find_touch] at hp
        exact h.apart y z p hp
  | dangling => exact h.keep (fun _ hq => hq) _ _ _ _
  | cacheStuck => exact h.keep (fun _ hq => hq) _ _ _ _
  | cache => exact h.keep (fun _ hq => hq) _ _ _ _
  | fail s' hd hret =>
      exact (h.keep (fun _ hq => hq) _ _ _ _).retStep hret

theorem WellFormed.messageStep {conn : C} {msg : RootMsg} {s s' : DbService C W}
    (h : WellFormed s) (hstep : MessageStep conn msg s s')
    (hlive : s'.crashed = false) : WellFormed s' := by
  have hpush : ∀ {p : Nat} (q : Nat),
      Task.judgeLocalConflict q ∈ s.tasks ++ [.judgeLocalConflict p] →
        Task.judgeLocalConflict q ∈ s.tasks ∨ q = p := by
    intro p q hq
    simpa using hq
  cases hstep with
  | skip => exact h
  | stuck _ hout hc => simp [hc] at hlive
  | collect data hmsg hcmd p t s₁ hopen rset wset =>
      obtain ⟨h₁, ht⟩ := h.opened hopen
      refine h₁.store (opened_find hopen).1 (by exact ht) ?_ _ _
      intro q hq
      rcases List.mem_append.1 hq with hq | hq
      · exact Or.inl hq
      · split at hq
        · simp at hq
        · simp at hq
  | commitEarly data hmsg hcmd p t hp ht hlsn =>
      have hy := h.txid_eq hp ht
      exact h.store hp (by exact hy) (fun _ hq => Or.inl hq) _ _
  | commitReady data hmsg hcmd p t hp ht hlsn =>
      have hy := h.txid_eq hp ht
      exact h.store hp (by exact hy) hpush _ _
  | lsnEarly data hmsg hcmd p t hp ht hcommit =>
      have hy := h.txid_eq hp ht
      exact h.store hp (by exact hy) (fun _ hq => Or.inl hq) _ _
  | lsnReady data hmsg hcmd p t hp ht hcommit =>
      have hy := h.txid_eq hp ht
      exact h.store hp (by exact hy) hpush _ _
  | decision data hmsg hcmd =>
      apply h.keep
      intro q hq
      simpa using hq
  | result data hmsg hcmd s' hret => exact h.retStep hret

theorem WellFormed.taskStep {ops : Wcheck W} {i : Nat} {s s' : DbService C W}
    (h : WellFormed s) (hstep : TaskStep ops i s s') : WellFormed s' := by
  have herase : WellFormed { s with tasks := s.tasks.eraseIdx i } :=
    h.keep (fun _ hq => List.mem_of_mem_eraseIdx hq) _ _ _ _
  cases hstep with
  | none => exact h
  | getLsn => exact herase.keep (fun _ hq => hq) _ _ _ _
  | dangling => exact herase.keep (fun _ hq => hq) _ _ _ _
  | judge p t htask ht s' hjudge =>
      exact herase.judgeStep ht (h.queued p (List.mem_of_getElem? htask)) hjudge
  | ignore => exact herase
  | solve data htask hcmd s' hsolve => exact herase.solveStep hsolve

theorem wellFormed_acts (ops : Wcheck W) (w : W) (l : List (Act C))
    (h : (acts ops (init w) l).crashed = false) : WellFormed (acts ops (init w) l) := by
  induction l using List.reverseRecOn with
  | nil => exact wellFormed_init w
  | append_singleton l a ih =>
      rw [acts_concat] at h ⊢
      have hlive := live_of_act h
      have hwf := ih hlive
      rw [act, andThen, if_neg (by simp [hlive])] at h ⊢
      cases a with
      | message conn msg => exact hwf.messageStep (onMessage_step conn msg hlive) h
      | task i => exact hwf.taskStep (runTask_step ops i _)

end DbService

end Grit
