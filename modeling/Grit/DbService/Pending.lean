import Grit.Library.Collections
import Grit.DbService.CommitLsn

/-!
# What a DbService still has to do for one transaction

A terminal result for a transaction `x` comes at the end of a chain: the commit
queues a validation, at once or when the lsn arrives; the validation leads to a
result, a vote or a log; a decision of the GTM is queued and leads to a result or
a log. `LocalStep` says how one step of a DbService moves along this chain, in
terms of the queued tasks, the collected transaction and the messages sent.
-/

namespace Grit

open Cmd

namespace DbService

variable {C W : Type*}

/-- The task validates transaction `x`. -/
def judges (x : Int) (heap : Nat → Option Transaction) : Task → Bool
  | .judgeLocalConflict p => (heap p).any fun t => t.txid = x
  | _ => false

/-- The task handles a decision of the GTM on transaction `x`. -/
def solves (x : Int) : Task → Bool
  | .solve data => data.cmd = kJudgeConflit ∧ data.txid = x
  | _ => false

/-- The task asks for the lsn of transaction `x`. -/
def asks (x : Int) : Task → Bool
  | .getLsn txid => txid = x
  | _ => false

def judging (x : Int) (d : DbService C W) : Nat := d.tasks.countP (judges x d.heap)

def solving (x : Int) (d : DbService C W) : Nat := d.tasks.countP (solves x)

def asking (x : Int) (d : DbService C W) : Nat := d.tasks.countP (asks x)

/-- The calls of `retResult` for transaction `x`. -/
def results (x : Int) (out : List (Event C)) : Nat :=
  out.countP fun e =>
    match e with
    | .retResult _ txid => txid = x
    | _ => false

/-- The votes and logs sent for transaction `x`. -/
def handedOn (x : Int) (out : List (Event C)) : Nat :=
  out.countP fun e =>
    match e with
    | .sendGtm m => m.cmd = kJudgeConflit ∧ m.txid = x
    | .sendDbtl m => m.cmd = kLog ∧ m.txid = x
    | _ => false

/-- The requests for the lsn of transaction `x`. -/
def requests (x : Int) (out : List (Event C)) : Nat :=
  out.countP fun e =>
    match e with
    | .sendDbtl m => m.cmd = kLsn ∧ m.txid = x
    | _ => false

/-- What a message is for transaction `x`. -/
inductive Input where
  | other
  | commit
  | lsn (lsn : Int)
  | work
deriving DecidableEq, Repr

namespace Input

/-- Whether the message carries a decision or a result, counted as a number. -/
def works : Input → Nat
  | work => 1
  | _ => 0

def lsns : Input → Nat
  | lsn _ => 1
  | _ => 0

def commits : Input → Nat
  | commit => 1
  | _ => 0

end Input

def inputOf (x : Int) : RootMsg → Input
  | .dbServiceMsg data => if data.cmd = kCommit ∧ data.txid = x then .commit else .other
  | .dbtmMsg data =>
      if data.txid = x then
        match data.cmd with
        | kLsn => .lsn data.lsn
        | kJudgeConflit => .work
        | kTranSuccess => .work
        | kTranFail => .work
        | _ => .other
      else .other
  | _ => .other

/-- The lsn of `x` in a message of the DBTL. -/
theorem lsn_of_inputOf {x l : Int} {m : DbtmMsg} (h : inputOf x (.dbtmMsg m) = .lsn l) :
    m.cmd = kLsn ∧ m.lsn = l := by
  unfold inputOf at h
  dsimp only at h
  split at h
  · split at h
    · rename_i hcmd
      exact ⟨hcmd, Input.lsn.inj h⟩
    all_goals simp at h
  · simp at h

theorem inputOf_dbtmMsg_ne_commit (x : Int) (m : DbtmMsg) :
    inputOf x (.dbtmMsg m) ≠ .commit := by
  intro h
  unfold inputOf at h
  dsimp only at h
  split at h
  · split at h
    all_goals simp at h
  · simp at h

/-- The tasks for `x` do not grow. -/
structure Shrinks (x : Int) (d d' : DbService C W) : Prop where
  judging : judging x d' ≤ judging x d
  solving : solving x d' ≤ solving x d
  asking : asking x d' = asking x d

/-- Nothing is sent or returned for `x`. -/
structure Silent (x : Int) (es : List (Event C)) : Prop where
  results : results x es = 0
  handedOn : handedOn x es = 0
  requests : requests x es = 0

/-- How a step from `d` to `d'` with the events `es` moves transaction `x` on. -/
inductive LocalStep (x : Int) (d d' : DbService C W) (es : List (Event C)) :
    Input → Prop where
  | quiet (k : Input) (htasks : Shrinks x d d') (hes : Silent x es)
      (hcur : current x d' = current x d) : LocalStep x d d' es k
  | stuck (k : Input) (hc : d'.crashed = true) (hes : Silent x es) :
      LocalStep x d d' es k
  | collect (k : Input) (t : Transaction) (rset wset : List Data) (hes : Silent x es)
      (hJ : judging x d' ≤ judging x d) (hS : solving x d' ≤ solving x d)
      (hL : asking x d' = asking x d + if t.lsn = -1 then 1 else 0)
      (hcur : current x d = some t) (hcur' : current x d' = some (t.collect rset wset)) :
      LocalStep x d d' es k
  | create (k : Input) (rset wset : List Data) (hes : Silent x es)
      (hJ : judging x d' ≤ judging x d) (hS : solving x d' ≤ solving x d)
      (hL : asking x d' = asking x d + 1) (hcur : current x d = none)
      (hcur' : current x d' = some ((Transaction.init x).collect rset wset)) :
      LocalStep x d d' es k
  | commitEarly (t : Transaction) (b : Bool) (htasks : Shrinks x d d')
      (hes : Silent x es) (hcur : current x d = some t) (hlsn : ¬ 0 < t.lsn)
      (hcur' : current x d' = some { t with
        needGlobalConflct := b, alreadyCommit := true }) : LocalStep x d d' es .commit
  | commitReady (t : Transaction) (b : Bool) (hes : Silent x es)
      (hJ : judging x d' ≤ judging x d + 1) (hS : solving x d' ≤ solving x d)
      (hL : asking x d' = asking x d) (hcur : current x d = some t) (hlsn : 0 < t.lsn)
      (hcur' : current x d' = some { t with needGlobalConflct := b }) :
      LocalStep x d d' es .commit
  | lsnEarly (t : Transaction) (l : Int) (htasks : Shrinks x d d') (hes : Silent x es)
      (hcur : current x d = some t) (hcommit : t.alreadyCommit = false)
      (hcur' : current x d' = some { t with lsn := l }) : LocalStep x d d' es (.lsn l)
  | lsnReady (t : Transaction) (l : Int) (hes : Silent x es)
      (hJ : judging x d' ≤ judging x d + 1) (hS : solving x d' ≤ solving x d)
      (hL : asking x d' = asking x d) (hcur : current x d = some t)
      (hcommit : t.alreadyCommit = true)
      (hcur' : current x d' = some { t with lsn := l }) : LocalStep x d d' es (.lsn l)
  | decision (hes : Silent x es) (hJ : judging x d' ≤ judging x d)
      (hS : solving x d' ≤ solving x d + 1) (hL : asking x d' = asking x d)
      (hcur : current x d' = current x d) : LocalStep x d d' es .work
  | result (htasks : Shrinks x d d') (hr : results x es ≤ 1)
      (hes : handedOn x es = 0 ∧ requests x es = 0)
      (hcur : current x d' = current x d) : LocalStep x d d' es .work
  | ask (k : Input) (hes : results x es = 0 ∧ handedOn x es = 0 ∧ requests x es = 1)
      (hJ : judging x d' ≤ judging x d) (hS : solving x d' ≤ solving x d)
      (hL : asking x d' + 1 = asking x d) (hcur : current x d' = current x d) :
      LocalStep x d d' es k
  | judged (k : Input) (hes : results x es + handedOn x es ≤ 1 ∧ requests x es = 0)
      (hJ : judging x d' + 1 ≤ judging x d) (hS : solving x d' ≤ solving x d)
      (hL : asking x d' = asking x d)
      (hcur : current x d' = current x d ∨ current x d' = none) :
      LocalStep x d d' es k
  | solved (k : Input) (hes : results x es + handedOn x es ≤ 1 ∧ requests x es = 0)
      (hJ : judging x d' ≤ judging x d) (hS : solving x d' + 1 ≤ solving x d)
      (hL : asking x d' = asking x d) (hcur : current x d' = current x d) :
      LocalStep x d d' es k

/-! ### Counting tasks -/

theorem judges_update {heap : Nat → Option Transaction} {p : Nat} {t t' : Transaction}
    (ht : heap p = some t) (htxid : t'.txid = t.txid) (x : Int) :
    judges x (Function.update heap p (some t')) = judges x heap := by
  funext task
  cases task with
  | judgeLocalConflict q =>
      by_cases hq : q = p
      · subst hq
        simp [judges, ht, htxid]
      · simp [judges, hq]
  | _ => rfl

theorem judges_free {heap heap' : Nat → Option Transaction}
    (h : ∀ q, heap' q = heap q ∨ heap' q = none) (x : Int) (task : Task)
    (hj : judges x heap' task = true) : judges x heap task = true := by
  cases task with
  | judgeLocalConflict q =>
      rcases h q with hq | hq
      · simpa [judges, hq] using hj
      · simp [judges, hq] at hj
  | getLsn txid => simp [judges] at hj
  | solve data => simp [judges] at hj

/-! ### Messages -/

theorem silent_nil (x : Int) : Silent x ([] : List (Event C)) := ⟨rfl, rfl, rfl⟩

theorem silent_enqueue (x : Int) (t : Transaction) :
    Silent x ([.enqueue t] : List (Event C)) := ⟨rfl, rfl, rfl⟩

/-- An object is stored that keeps its transaction id. -/
theorem shrinks_store {d : DbService C W} {p : Nat} {t t' : Transaction}
    (ht : d.heap p = some t) (htxid : t'.txid = t.txid) (x : Int) (out : List (Event C)) :
    Shrinks x d { d with heap := Function.update d.heap p (some t'), out := out } := by
  constructor
  · simp [judging, judges_update ht htxid]
  · exact Nat.le_refl _
  · rfl

/-- An object is stored and its validation is queued. -/
theorem tasks_enqueue {d : DbService C W} {p : Nat} {t : Transaction}
    (ht : d.heap p = some t) (t' : Transaction) (htxid : t'.txid = t.txid) (x : Int)
    (out : List (Event C)) :
    judging x { d with
        heap := Function.update d.heap p (some t')
        tasks := d.tasks ++ [.judgeLocalConflict p]
        out := out } = judging x d + (if t.txid = x then 1 else 0) ∧
      solving x { d with
        heap := Function.update d.heap p (some t')
        tasks := d.tasks ++ [.judgeLocalConflict p]
        out := out } = solving x d ∧
      asking x { d with
        heap := Function.update d.heap p (some t')
        tasks := d.tasks ++ [.judgeLocalConflict p]
        out := out } = asking x d := by
  refine ⟨?_, ?_, ?_⟩
  · simp [judging, judges_update ht htxid, judges, ht]
  · simp [solving, solves]
  · simp [asking, asks]

/-- The reply to a transaction other than `x`. -/
theorem localStep_store_of_ne {d : DbService C W} (hwf : WellFormed d) {x y : Int} {p : Nat}
    {t t' : Transaction} (hp : d.txidTrans.find y = some p) (ht : d.heap p = some t)
    (htxid : t'.txid = t.txid) (hy : y ≠ x) (k : Input) :
    LocalStep x d { d with heap := Function.update d.heap p (some t') } [] k :=
  .quiet k (shrinks_store ht htxid x d.out) (silent_nil x) (current_update hwf hp hy t')

theorem localStep_enqueue_of_ne {d : DbService C W} (hwf : WellFormed d) {x y : Int}
    {p : Nat} {t t' : Transaction} (hp : d.txidTrans.find y = some p)
    (ht : d.heap p = some t) (htxid : t'.txid = t.txid) (hy : y ≠ x)
    (out : List (Event C)) (k : Input) :
    LocalStep x d { d with
      heap := Function.update d.heap p (some t')
      tasks := d.tasks ++ [.judgeLocalConflict p]
      out := out } [.enqueue t'] k := by
  obtain ⟨hJ, hS, hL⟩ := tasks_enqueue ht t' htxid x out
  have hne : t.txid ≠ x := by
    rw [hwf.txid_eq hp ht]
    exact hy
  rw [if_neg hne] at hJ
  exact .quiet k ⟨by omega, by omega, hL⟩ (silent_enqueue x t') (current_update hwf hp hy t')

theorem current_store {d : DbService C W} {x : Int} {p : Nat}
    (hp : d.txidTrans.find x = some p) (t : Transaction) :
    (d.txidTrans.find x).bind (Function.update d.heap p (some t)) = some t := by
  simp [hp]

theorem current_eq {d : DbService C W} {x : Int} {p : Nat} {t : Transaction}
    (hp : d.txidTrans.find x = some p) (ht : d.heap p = some t) : current x d = some t := by
  simp [current, hp, ht]

/-- The result that the DBTL reports, or a decision reports as a failure. -/
theorem retStep_moves {status : Cmd} {x y : Int} {d d' : DbService C W}
    (hwf : WellFormed d) (hstep : RetStep status y d d') :
    Shrinks x d d' ∧ current x d' = current x d ∧ ∃ es, d'.out = d.out ++ es ∧
      results x es = (if y = x then 1 else 0) ∧ handedOn x es = 0 ∧ requests x es = 0 := by
  cases hstep with
  | lost =>
      refine ⟨⟨Nat.le_refl _, Nat.le_refl _, rfl⟩, rfl, _, rfl, ?_, rfl, rfl⟩
      simp [results, List.countP_cons]
  | sent conn heap c hconn hheap =>
      refine ⟨⟨?_, Nat.le_refl _, rfl⟩, current_drop hwf hheap x, _, rfl, ?_, rfl, rfl⟩
      · apply List.countP_mono_left
        intro task _
        apply judges_free
        intro q
        rcases hheap q with hq | ⟨-, hq⟩
        · exact Or.inl hq
        · exact Or.inr hq
      · simp [results, List.countP_cons]

/-- Data is added to the object that the map holds. -/
theorem localStep_of_old {x y : Int} {d : DbService C W} {p : Nat} {t : Transaction}
    (hwf : WellFormed d) (hp : d.txidTrans.find y = some p) (ht : d.heap p = some t)
    (table : PtrMap Int C) (rset wset : List Data) (k : Input) :
    LocalStep x d { d with
      table := table
      heap := Function.update d.heap p (some (t.collect rset wset))
      tasks := d.tasks ++ if t.lsn = -1 then [.getLsn y] else [] } [] k := by
  have hJ : judging x { d with
      table := table
      heap := Function.update d.heap p (some (t.collect rset wset))
      tasks := d.tasks ++ if t.lsn = -1 then [.getLsn y] else [] } = judging x d := by
    have htxid : (t.collect rset wset).txid = t.txid := rfl
    simp only [judging, judges_update ht htxid, List.countP_append]
    split
    · simp [judges]
    · simp
  have hS : solving x { d with
      table := table
      heap := Function.update d.heap p (some (t.collect rset wset))
      tasks := d.tasks ++ if t.lsn = -1 then [.getLsn y] else [] } = solving x d := by
    simp only [solving, List.countP_append]
    split
    · simp [solves]
    · simp
  by_cases hyx : y = x
  · subst hyx
    have hL : asking y { d with
        table := table
        heap := Function.update d.heap p (some (t.collect rset wset))
        tasks := d.tasks ++ if t.lsn = -1 then [.getLsn y] else [] } =
          asking y d + if t.lsn = -1 then 1 else 0 := by
      simp only [asking, List.countP_append]
      split
      · simp [asks]
      · simp
    exact .collect k t rset wset (silent_nil y) (by omega) (by omega) hL (current_eq hp ht)
      (current_store hp _)
  · have hL : asking x { d with
        table := table
        heap := Function.update d.heap p (some (t.collect rset wset))
        tasks := d.tasks ++ if t.lsn = -1 then [.getLsn y] else [] } = asking x d := by
      simp only [asking, List.countP_append]
      split
      · simp [asks, hyx]
      · simp
    exact .quiet k ⟨by omega, by omega, hL⟩ (silent_nil x) (current_update hwf hp hyx _)

/-- No queued task refers to an address that is not yet in use. -/
theorem judging_fresh {x : Int} {d : DbService C W} (hwf : WellFormed d)
    {heap : Nat → Option Transaction} (hheap : ∀ q, q ≠ d.next → heap q = d.heap q) :
    d.tasks.countP (judges x heap) = judging x d := by
  apply List.countP_congr
  intro task htask
  cases task with
  | judgeLocalConflict q =>
      have hlt := hwf.queued q htask
      have hne : q ≠ d.next := by omega
      simp [judges, hheap q hne]
  | _ => exact Iff.rfl

/-- Data comes for a transaction that the map does not hold. -/
theorem localStep_of_new {x y : Int} {d : DbService C W} (hwf : WellFormed d)
    (hnone : d.txidTrans y = none) (table : PtrMap Int C) (rset wset : List Data)
    (k : Input) :
    LocalStep x d { d with
      table := table
      heap := Function.update
        (Function.update d.heap d.next (some (Transaction.init y))) d.next
          (some ((Transaction.init y).collect rset wset))
      txidTrans := d.txidTrans.insert y d.next
      next := d.next + 1
      tasks := d.tasks ++ [.getLsn y] } [] k := by
  have hheap : ∀ q, q ≠ d.next → Function.update
      (Function.update d.heap d.next (some (Transaction.init y))) d.next
        (some ((Transaction.init y).collect rset wset)) q = d.heap q := by
    intro q hq
    simp [hq]
  have hJ : (d.tasks ++ [Task.getLsn y]).countP (judges x (Function.update
      (Function.update d.heap d.next (some (Transaction.init y))) d.next
        (some ((Transaction.init y).collect rset wset)))) = judging x d := by
    rw [List.countP_append, judging_fresh hwf hheap]
    simp [judges]
  have hS : (d.tasks ++ [Task.getLsn y]).countP (solves x) = solving x d := by
    simp [solving, solves]
  by_cases hyx : y = x
  · subst hyx
    refine .create k rset wset (silent_nil y) (Nat.le_of_eq hJ) (Nat.le_of_eq hS) ?_ ?_ ?_
    · simp [asking, asks]
    · simp [current, PtrMap.find, hnone]
    · simp [current]
  · refine .quiet k ⟨Nat.le_of_eq hJ, Nat.le_of_eq hS, ?_⟩ (silent_nil x) ?_
    · simp [asking, asks, hyx]
    · have hxy : x ≠ y := fun h => hyx h.symm
      simp only [current, PtrMap.find_insert_of_ne _ _ hxy]
      cases hq : d.txidTrans.find x with
      | none => rfl
      | some q =>
          have hlt := (hwf.held x q hq).1
          exact hheap q (by omega)

section Messages

variable {x : Int} {d d' : DbService C W} {p : Nat} {t : Transaction}

/-- A commit that waits for the lsn. -/
theorem localStep_of_commitEarly {data : DbServiceMsg} (hwf : WellFormed d)
    (hcmd : data.cmd = kCommit) (hp : d.txidTrans.find data.txid = some p)
    (ht : d.heap p = some t) (hneg : ¬ 0 < t.lsn) :
    LocalStep x d { d with
      heap := Function.update d.heap p (some { t with
        needGlobalConflct := data.needGlobalConflict
        alreadyCommit := true }) } [] (inputOf x (.dbServiceMsg data)) := by
  by_cases hx : data.txid = x
  · subst hx
    rw [inputOf, if_pos ⟨hcmd, rfl⟩]
    exact .commitEarly t _ (shrinks_store ht (by rfl) _ _) (silent_nil _) (current_eq hp ht)
      hneg (current_store hp _)
  · exact localStep_store_of_ne hwf hp ht (by rfl) hx _

/-- A commit that finds the lsn. -/
theorem localStep_of_commitReady {data : DbServiceMsg} (hwf : WellFormed d)
    (hcmd : data.cmd = kCommit) (hp : d.txidTrans.find data.txid = some p)
    (ht : d.heap p = some t) (hpos : 0 < t.lsn) (out : List (Event C)) :
    LocalStep x d { d with
      heap := Function.update d.heap p (some { t with
        needGlobalConflct := data.needGlobalConflict })
      tasks := d.tasks ++ [.judgeLocalConflict p]
      out := out } [.enqueue { t with needGlobalConflct := data.needGlobalConflict }]
        (inputOf x (.dbServiceMsg data)) := by
  by_cases hx : data.txid = x
  · subst hx
    obtain ⟨hJ, hS, hL⟩ := tasks_enqueue ht { t with
      needGlobalConflct := data.needGlobalConflict } rfl data.txid out
    rw [if_pos (hwf.txid_eq hp ht)] at hJ
    rw [inputOf, if_pos ⟨hcmd, rfl⟩]
    exact .commitReady t _ (silent_enqueue _ _) (Nat.le_of_eq hJ) (Nat.le_of_eq hS) hL
      (current_eq hp ht) hpos (current_store hp _)
  · exact localStep_enqueue_of_ne hwf hp ht (by rfl) hx _ _

/-- The lsn of a transaction that has not been committed. -/
theorem localStep_of_lsnEarly {data : DbtmMsg} (hwf : WellFormed d) (hcmd : data.cmd = kLsn)
    (hp : d.txidTrans.find data.txid = some p) (ht : d.heap p = some t)
    (hcommit : t.alreadyCommit = false) :
    LocalStep x d { d with
      heap := Function.update d.heap p (some { t with lsn := data.lsn }) } []
        (inputOf x (.dbtmMsg data)) := by
  by_cases hx : data.txid = x
  · subst hx
    have hin : inputOf data.txid (.dbtmMsg data) = .lsn data.lsn := by simp [inputOf, hcmd]
    rw [hin]
    exact .lsnEarly t _ (shrinks_store ht (by rfl) _ _) (silent_nil _) (current_eq hp ht)
      hcommit (current_store hp _)
  · exact localStep_store_of_ne hwf hp ht (by rfl) hx _

/-- The lsn of a transaction that has been committed. -/
theorem localStep_of_lsnReady {data : DbtmMsg} (hwf : WellFormed d) (hcmd : data.cmd = kLsn)
    (hp : d.txidTrans.find data.txid = some p) (ht : d.heap p = some t)
    (hcommit : t.alreadyCommit = true) (out : List (Event C)) :
    LocalStep x d { d with
      heap := Function.update d.heap p (some { t with lsn := data.lsn })
      tasks := d.tasks ++ [.judgeLocalConflict p]
      out := out } [.enqueue { t with lsn := data.lsn }] (inputOf x (.dbtmMsg data)) := by
  by_cases hx : data.txid = x
  · subst hx
    have hin : inputOf data.txid (.dbtmMsg data) = .lsn data.lsn := by simp [inputOf, hcmd]
    obtain ⟨hJ, hS, hL⟩ := tasks_enqueue ht { t with lsn := data.lsn } rfl data.txid out
    rw [if_pos (hwf.txid_eq hp ht)] at hJ
    rw [hin]
    exact .lsnReady t _ (silent_enqueue _ _) (Nat.le_of_eq hJ) (Nat.le_of_eq hS) hL
      (current_eq hp ht) hcommit (current_store hp _)
  · exact localStep_enqueue_of_ne hwf hp ht (by rfl) hx _ _

/-- The GTM's decision is queued. -/
theorem localStep_of_decision {data : DbtmMsg} (hcmd : data.cmd = kJudgeConflit) :
    LocalStep x d { d with tasks := d.tasks ++ [.solve data] } []
      (inputOf x (.dbtmMsg data)) := by
  have hJ : (d.tasks ++ [Task.solve data]).countP (judges x d.heap) = judging x d := by
    simp [judging, judges]
  have hL : (d.tasks ++ [Task.solve data]).countP (asks x) = asking x d := by
    simp [asking, asks]
  by_cases hx : data.txid = x
  · have hin : inputOf x (.dbtmMsg data) = .work := by simp [inputOf, hcmd, hx]
    have hS : (d.tasks ++ [Task.solve data]).countP (solves x) = solving x d + 1 := by
      simp [solving, solves, hcmd, hx]
    rw [hin]
    exact .decision (silent_nil x) (Nat.le_of_eq hJ) (Nat.le_of_eq hS) hL rfl
  · have hS : (d.tasks ++ [Task.solve data]).countP (solves x) = solving x d := by
      simp [solving, solves, hx]
    exact .quiet _ ⟨Nat.le_of_eq hJ, Nat.le_of_eq hS, hL⟩ (silent_nil x) rfl

/-- The DBTL's result is returned to the DB. -/
theorem localStep_of_result {data : DbtmMsg} (hwf : WellFormed d)
    (hcmd : data.cmd = kTranSuccess ∨ data.cmd = kTranFail)
    (hret : RetStep data.cmd data.txid d d') :
    ∃ es, d'.out = d.out ++ es ∧ LocalStep x d d' es (inputOf x (.dbtmMsg data)) := by
  obtain ⟨htasks, hcur, es, hout, hres, hhand, hreq⟩ := retStep_moves (x := x) hwf hret
  refine ⟨es, hout, ?_⟩
  by_cases hx : data.txid = x
  · have hin : inputOf x (.dbtmMsg data) = .work := by
      rcases hcmd with hcmd | hcmd
      · simp [inputOf, hcmd, hx]
      · simp [inputOf, hcmd, hx]
    rw [if_pos hx] at hres
    rw [hin]
    exact .result htasks (Nat.le_of_eq hres) ⟨hhand, hreq⟩ hcur
  · rw [if_neg hx] at hres
    exact .quiet _ htasks ⟨hres, hhand, hreq⟩ hcur

/-- A message moves a transaction on in one of the ways of `LocalStep`. -/
theorem localStep_of_messageStep {conn : C} {msg : RootMsg} (hwf : WellFormed d)
    (hstep : MessageStep conn msg d d') :
    ∃ es, d'.out = d.out ++ es ∧ LocalStep x d d' es (inputOf x msg) := by
  cases hstep with
  | skip =>
      exact ⟨[], by simp, .quiet _ ⟨Nat.le_refl _, Nat.le_refl _, rfl⟩ (silent_nil x) rfl⟩
  | stuck _ hout hc => exact ⟨[], by simp [hout], .stuck _ hc (silent_nil x)⟩
  | collect data hmsg hcmd p t s₁ hopen rset wset =>
      cases hopen with
      | old p t hp ht => exact ⟨[], by simp, localStep_of_old hwf hp ht _ rset wset _⟩
      | new hnone =>
          refine ⟨[], by simp, ?_⟩
          have hstep := localStep_of_new (x := x) hwf hnone
            (d.table.insert (Transaction.init data.txid).txid conn) rset wset (inputOf x msg)
          simpa [Transaction.init] using hstep
  | commitEarly data hmsg hcmd p t hp ht hneg =>
      exact ⟨[], by simp, hmsg ▸ localStep_of_commitEarly hwf hcmd hp ht hneg⟩
  | commitReady data hmsg hcmd p t hp ht hpos =>
      exact ⟨_, rfl, hmsg ▸ localStep_of_commitReady hwf hcmd hp ht hpos _⟩
  | lsnEarly data hmsg hcmd p t hp ht hcommit =>
      exact ⟨[], by simp, hmsg ▸ localStep_of_lsnEarly hwf hcmd hp ht hcommit⟩
  | lsnReady data hmsg hcmd p t hp ht hcommit =>
      exact ⟨_, rfl, hmsg ▸ localStep_of_lsnReady hwf hcmd hp ht hcommit _⟩
  | decision data hmsg hcmd => exact ⟨[], by simp, hmsg ▸ localStep_of_decision hcmd⟩
  | result data hmsg hcmd s' hret => exact hmsg ▸ localStep_of_result hwf hcmd hret

end Messages

/-! ### Tasks -/

/-- Taking a task that does not ask for the lsn of `x`. -/
theorem shrinks_eraseIdx {x : Int} {d : DbService C W} (d' : DbService C W) {i : Nat}
    {task : Task} (htask : d.tasks[i]? = some task) (hasks : asks x task = false)
    (htasks : d'.tasks = d.tasks.eraseIdx i)
    (hheap : ∀ q, d'.heap q = d.heap q ∨ d'.heap q = none) :
    judging x d' + (if judges x d.heap task then 1 else 0) ≤ judging x d ∧
      solving x d' + (if solves x task then 1 else 0) = solving x d ∧
      asking x d' = asking x d := by
  have hJ : judging x d' ≤ (d.tasks.eraseIdx i).countP (judges x d.heap) := by
    rw [judging, htasks]
    exact List.countP_mono_left fun task _ hj => judges_free hheap x task hj
  have hJ' := Bag.countP_eraseIdx (judges x d.heap) htask
  have hS := Bag.countP_eraseIdx (solves x) htask
  have hL := Bag.countP_eraseIdx (asks x) htask
  rw [hasks] at hL
  refine ⟨?_, ?_, ?_⟩
  · have hd : judging x d = _ := hJ'
    omega
  · rw [solving, solving, htasks, hS]
  · rw [asking, asking, htasks, hL]
    simp

/-- The events of a validation of `t`, as far as they concern `x`. -/
structure Told (x : Int) (t : Transaction) (es : List (Event C)) : Prop where
  other : t.txid ≠ x → Silent x es
  once : results x es + handedOn x es ≤ 1
  requests : requests x es = 0

theorem told_of_events {x : Int} {t : Transaction} {es : List (Event C)}
    (h : results x es + handedOn x es ≤ if t.txid = x then 1 else 0)
    (hreq : requests x es = 0) : Told x t es := by
  constructor
  · intro hx
    rw [if_neg hx] at h
    exact ⟨by omega, by omega, hreq⟩
  · split at h
    · exact h
    · omega
  · exact hreq

/-- The events without the results. -/
def unreturned (es : List (Event C)) : List (Event C) :=
  es.filter fun e =>
    match e with
    | .retResult _ _ => false
    | _ => true

theorem results_unreturned (x : Int) (es : List (Event C)) : results x (unreturned es) = 0 := by
  rw [results, List.countP_eq_zero]
  intro e he
  have hkeep := (List.mem_filter.1 he).2
  cases e with
  | retResult status txid => simp at hkeep
  | _ => simp

theorem handedOn_unreturned (x : Int) (es : List (Event C)) :
    handedOn x (unreturned es) = handedOn x es := by
  rw [handedOn, unreturned, List.countP_filter]
  apply List.countP_congr
  intro e _
  cases e with
  | _ => simp

theorem requests_unreturned (x : Int) (es : List (Event C)) :
    requests x (unreturned es) = requests x es := by
  rw [requests, unreturned, List.countP_filter]
  apply List.countP_congr
  intro e _
  cases e with
  | _ => simp

theorem told_unreturned {x : Int} {t : Transaction} {es : List (Event C)}
    (h : handedOn x es ≤ if t.txid = x then 1 else 0) (hreq : requests x es = 0) :
    Told x t (unreturned es) := by
  refine told_of_events ?_ ((requests_unreturned x es).trans hreq)
  rw [results_unreturned, handedOn_unreturned, Nat.zero_add]
  exact h

/-- A global transaction `x` is not found in conflict. -/
def Clean (ops : Wcheck W) (x : Int) (t : Transaction) (w : W) : Prop :=
  t.txid = x → t.needGlobalConflct = true → ∀ r, localCheck ops t w = some r → r.2.2 = false

theorem handedOn_sendGtm (x y : Int) (c : Bool) :
    handedOn x [(.sendGtm (createGtmMsg kJudgeConflit y c) : Event C)] =
      if y = x then 1 else 0 := by
  by_cases hy : y = x
  · simp [handedOn, createGtmMsg, hy]
  · simp [handedOn, createGtmMsg, hy]

theorem handedOn_sendDbtl (x y : Int) (data : Option (List FlatData)) :
    handedOn x [(.sendDbtl (createDbtlMsg kLog y data) : Event C)] = if y = x then 1 else 0 := by
  by_cases hy : y = x
  · simp [handedOn, createDbtlMsg, hy]
  · simp [handedOn, createDbtlMsg, hy]

theorem results_retResult (x y : Int) (status : Cmd) (es : List (Event C)) :
    results x (.retResult status y :: es) = (if y = x then 1 else 0) + results x es := by
  rw [results, List.countP_cons, Nat.add_comm]
  simp [results]

/-- The events of a check that fails: its result, and a vote for a global transaction. -/
theorem told_of_fail {ops : Wcheck W} {x : Int} {t : Transaction} {w w' : W} {ks : List String}
    (hcheck : localCheck ops t w = some (w', ks, true)) {es vote : List (Event C)}
    (hres : results x es = (if t.txid = x then 1 else 0) + results x vote)
    (hhand : handedOn x es = handedOn x vote) (hreq : requests x es = requests x vote)
    (hvote : vote = [] ∨ t.needGlobalConflct = true ∧
      vote = [.sendGtm (createGtmMsg kJudgeConflit t.txid true)]) :
    Told x t (unreturned es) ∧ (Clean ops x t w → Told x t es) := by
  rcases hvote with rfl | ⟨hg, rfl⟩
  · have hhand : handedOn x es = 0 := hhand
    refine ⟨told_unreturned (by omega) hreq, fun _ => told_of_events ?_ hreq⟩
    rw [hres, hhand]
    exact Nat.le_refl _
  · rw [handedOn_sendGtm] at hhand
    refine ⟨told_unreturned (le_of_eq hhand) hreq, fun hclean => ?_⟩
    -- a clean transaction that fails is not a global one, so the vote is for another
    have hx : t.txid ≠ x := fun hx => absurd (hclean hx hg _ hcheck) (by simp)
    rw [if_neg hx] at hhand hres
    refine told_of_events ?_ hreq
    rw [hres, hhand]
    exact Nat.zero_le _

/-- A validation hands on one message at most, and no result besides if it is clean. -/
theorem judgeStep_told {ops : Wcheck W} {x : Int} {p : Nat} {t : Transaction}
    {d d' : DbService C W} (hwf : WellFormed d) (hstep : JudgeStep ops p t d d') :
    (∀ q, d'.heap q = d.heap q ∨ d'.heap q = none) ∧ d'.tasks = d.tasks ∧
      (current x d' = current x d ∨ t.txid = x ∧ current x d' = none) ∧
      ∃ es, d'.out = d.out ++ es ∧ Told x t (unreturned es) ∧
        (Clean ops x t d.wcheck → Told x t es) := by
  have hmove : ((d.txidTrans.erase t.txid).find x).bind d.heap = current x d ∨
      t.txid = x ∧ ((d.txidTrans.erase t.txid).find x).bind d.heap = none := by
    by_cases hx : t.txid = x
    · exact Or.inr ⟨hx, by simp [hx]⟩
    · refine Or.inl ?_
      rw [PtrMap.find_erase_of_ne _ fun h => hx h.symm]
      rfl
  have hpass : ∀ es : List (Event C), results x es = 0 →
      handedOn x es ≤ (if t.txid = x then 1 else 0) → requests x es = 0 →
        Told x t (unreturned es) ∧ (Clean ops x t d.wcheck → Told x t es) := by
    intro es hres hhand hreq
    exact ⟨told_unreturned hhand hreq, fun _ => told_of_events (by omega) hreq⟩
  cases hstep with
  | stuck =>
      exact ⟨fun _ => Or.inl rfl, rfl, Or.inl rfl, _, rfl, hpass _ rfl (Nat.zero_le _) rfl⟩
  | vote =>
      exact ⟨fun _ => Or.inl rfl, rfl, hmove, _, rfl,
        hpass _ rfl (le_of_eq (handedOn_sendGtm (C := C) x _ _)) rfl⟩
  | cacheStuck =>
      exact ⟨fun _ => Or.inl rfl, rfl, hmove, _, rfl, hpass _ rfl (Nat.zero_le _) rfl⟩
  | cache =>
      exact ⟨fun _ => Or.inl rfl, rfl, hmove, _, rfl,
        hpass _ rfl (le_of_eq (handedOn_sendDbtl (C := C) x _ _)) rfl⟩
  | failLost w ks hcheck hconn =>
      exact ⟨fun _ => Or.inl rfl, rfl, Or.inl rfl, _, rfl,
        told_of_fail hcheck (results_retResult x _ kTranFail []) rfl rfl (Or.inl rfl)⟩
  | fail w ks conn heap c vote hcheck hconn hheap hvote =>
      refine ⟨?_, rfl, Or.inl (current_drop hwf hheap x), _, rfl,
        told_of_fail hcheck (results_retResult x _ kTranFail vote) rfl rfl hvote⟩
      intro q
      rcases hheap q with hq | ⟨-, hq⟩
      · exact Or.inl hq
      · exact Or.inr hq

/-- The events of a decision on transaction `y`, as far as they concern `x`. -/
theorem solveStep_told {ops : Wcheck W} {x : Int} {data : DbtmMsg}
    {d d' : DbService C W} (hwf : WellFormed d) (hstep : SolveStep ops data d d') :
    (∀ q, d'.heap q = d.heap q ∨ d'.heap q = none) ∧ d'.tasks = d.tasks ∧
      current x d' = current x d ∧
      ∃ es, d'.out = d.out ++ es ∧ Told x (Transaction.init data.txid) es := by
  cases hstep with
  | missing =>
      exact ⟨fun _ => Or.inl rfl, rfl, rfl, [], by simp, told_of_events (Nat.zero_le _) rfl⟩
  | dangling =>
      exact ⟨fun _ => Or.inl rfl, rfl, rfl, [], by simp, told_of_events (Nat.zero_le _) rfl⟩
  | cacheStuck =>
      exact ⟨fun _ => Or.inl rfl, rfl, rfl, _, rfl, told_of_events (Nat.zero_le _) rfl⟩
  | cache p t w tail hp ht hd hw htail =>
      have hname := hwf.named data.txid p t hp ht
      have hhand := handedOn_sendDbtl (C := C) x t.txid (some (encodeSet t.writeSet))
      rw [hname] at hhand
      refine ⟨fun _ => Or.inl rfl, rfl, rfl, _, rfl, ?_⟩
      rw [hname]
      rcases htail with ⟨rfl, -⟩ | rfl
      · exact told_of_events ((Nat.zero_add _).trans_le (le_of_eq hhand)) rfl
      · exact told_of_events ((Nat.zero_add _).trans_le (le_of_eq hhand)) rfl
  | fail s' hd hret =>
      have hwf' : WellFormed { d with
          out := d.out ++ [.sqlExec (.delete data.txid), .removeFile data.txid] } :=
        hwf.keep (fun _ hq => hq) _ _ _ _
      obtain ⟨-, hcur, es, hout, hres, hhand, hreq⟩ := retStep_moves (x := x) hwf' hret
      have hheap : (∀ q, d'.heap q = d.heap q ∨ d'.heap q = none) ∧ d'.tasks = d.tasks := by
        cases hret with
        | lost => exact ⟨fun _ => Or.inl rfl, rfl⟩
        | sent conn heap c hconn hheap =>
            refine ⟨?_, rfl⟩
            intro q
            rcases hheap q with hq | ⟨-, hq⟩
            · exact Or.inl hq
            · exact Or.inr hq
      refine ⟨hheap.1, hheap.2, hcur,
        .sqlExec (.delete data.txid) :: .removeFile data.txid :: es, ?_, told_of_events ?_ ?_⟩
      · rw [hout]
        simp
      · have hresults : results x (.sqlExec (.delete data.txid) ::
            .removeFile data.txid :: es) = results x es := by simp [results]
        have hhanded : handedOn x (.sqlExec (.delete data.txid) ::
            .removeFile data.txid :: es) = handedOn x es := by simp [handedOn]
        rw [hresults, hhanded, hres, hhand]
        exact Nat.le_refl _
      · simpa [requests] using hreq

/-- Leaving out results keeps a step. -/
theorem LocalStep.unreturned {x : Int} {d d' : DbService C W} {es : List (Event C)}
    {inp : Input} (h : LocalStep x d d' es inp) : LocalStep x d d' (unreturned es) inp := by
  have hres := results_unreturned x es
  have hhand := handedOn_unreturned x es
  have hreq := requests_unreturned x es
  have hsilent : Silent x es → Silent x (DbService.unreturned es) := fun hes =>
    ⟨hres, hhand.trans hes.handedOn, hreq.trans hes.requests⟩
  cases h with
  | quiet _ htasks hes hcur => exact .quiet _ htasks (hsilent hes) hcur
  | stuck _ hc hes => exact .stuck _ hc (hsilent hes)
  | collect _ t rset wset hes hJ hS hL hcur hcur' =>
      exact .collect _ t rset wset (hsilent hes) hJ hS hL hcur hcur'
  | create _ rset wset hes hJ hS hL hcur hcur' =>
      exact .create _ rset wset (hsilent hes) hJ hS hL hcur hcur'
  | commitEarly t b htasks hes hcur hlsn hcur' =>
      exact .commitEarly t b htasks (hsilent hes) hcur hlsn hcur'
  | commitReady t b hes hJ hS hL hcur hlsn hcur' =>
      exact .commitReady t b (hsilent hes) hJ hS hL hcur hlsn hcur'
  | lsnEarly t l htasks hes hcur hcommit hcur' =>
      exact .lsnEarly t l htasks (hsilent hes) hcur hcommit hcur'
  | lsnReady t l hes hJ hS hL hcur hcommit hcur' =>
      exact .lsnReady t l (hsilent hes) hJ hS hL hcur hcommit hcur'
  | decision hes hJ hS hL hcur => exact .decision (hsilent hes) hJ hS hL hcur
  | result htasks hr hes hcur =>
      exact .result htasks (by omega) ⟨hhand.trans hes.1, hreq.trans hes.2⟩ hcur
  | ask _ hes hJ hS hL hcur => exact .ask _ ⟨hres, by omega, by omega⟩ hJ hS hL hcur
  | judged _ hes hJ hS hL hcur => exact .judged _ ⟨by omega, by omega⟩ hJ hS hL hcur
  | solved _ hes hJ hS hL hcur => exact .solved _ ⟨by omega, by omega⟩ hJ hS hL hcur

/-- The task validates a transaction. -/
theorem localStep_of_told {x : Int} {i p : Nat} {t : Transaction} {d d' : DbService C W}
    (htask : d.tasks[i]? = some (.judgeLocalConflict p)) (ht : d.heap p = some t)
    (htasks : d'.tasks = d.tasks.eraseIdx i)
    (hheap : ∀ q, d'.heap q = d.heap q ∨ d'.heap q = none)
    (hcur : current x d' = current x d ∨ t.txid = x ∧ current x d' = none)
    {es : List (Event C)} (htold : Told x t es) : LocalStep x d d' es .other := by
  obtain ⟨hJ, hS, hL⟩ := shrinks_eraseIdx (x := x) _ htask rfl htasks hheap
  by_cases hx : t.txid = x
  · simp only [judges, ht, Option.any_some, hx, decide_true, if_true] at hJ
    refine .judged _ ⟨htold.once, htold.requests⟩ hJ (by omega) hL ?_
    rcases hcur with hcur | ⟨-, hcur⟩
    · exact Or.inl hcur
    · exact Or.inr hcur
  · rcases hcur with hcur | ⟨hx', -⟩
    · exact .quiet _ ⟨by omega, by omega, hL⟩ (htold.other hx) hcur
    · exact absurd hx' hx

/-- A task, as far as results are left out; with them, if what it validates is clean. -/
theorem localStep_of_taskStep {ops : Wcheck W} {x : Int} {i : Nat} {d d' : DbService C W}
    (hwf : WellFormed d) (hstep : TaskStep ops i d d') :
    ∃ es, d'.out = d.out ++ es ∧ LocalStep x d d' (unreturned es) .other ∧
      ((∀ p t, d.tasks[i]? = some (.judgeLocalConflict p) → d.heap p = some t →
        Clean ops x t d.wcheck) → LocalStep x d d' es .other) := by
  have hwf' : WellFormed { d with tasks := d.tasks.eraseIdx i } :=
    hwf.keep (fun _ hq => List.mem_of_mem_eraseIdx hq) _ _ _ _
  have hboth : ∀ es, d'.out = d.out ++ es → LocalStep x d d' es .other →
      ∃ es, d'.out = d.out ++ es ∧ LocalStep x d d' (unreturned es) .other ∧
        ((∀ p t, d.tasks[i]? = some (.judgeLocalConflict p) → d.heap p = some t →
          Clean ops x t d.wcheck) → LocalStep x d d' es .other) :=
    fun es hout hlocal => ⟨es, hout, hlocal.unreturned, fun _ => hlocal⟩
  cases hstep with
  | none =>
      exact hboth [] (by simp) (.quiet _ ⟨Nat.le_refl _, Nat.le_refl _, rfl⟩ (silent_nil x) rfl)
  | getLsn txid htask =>
      refine hboth _ rfl ?_
      have hJ := Bag.countP_eraseIdx_le (judges x d.heap) d.tasks i
      have hS := Bag.countP_eraseIdx_le (solves x) d.tasks i
      have hL := Bag.countP_eraseIdx (asks x) htask
      by_cases hx : txid = x
      · simp only [asks, hx, decide_true, if_true] at hL
        exact .ask _ ⟨rfl, by simp [handedOn, createDbtlMsg], by
          simp [requests, createDbtlMsg, hx]⟩ hJ hS hL.symm rfl
      · simp only [asks, hx, decide_false, Bool.false_eq_true, if_false] at hL
        exact .quiet _ ⟨hJ, hS, hL.symm⟩ ⟨rfl, by simp [handedOn, createDbtlMsg], by
          simp [requests, createDbtlMsg, hx]⟩ rfl
  | dangling p htask hp =>
      obtain ⟨hJ, hS, hL⟩ := shrinks_eraseIdx (x := x) { d with
        tasks := d.tasks.eraseIdx i, crashed := true } htask rfl rfl fun _ => Or.inl rfl
      exact hboth [] (by simp) (.quiet _ ⟨by omega, by omega, hL⟩ (silent_nil x) rfl)
  | judge p t htask ht s' hjudge =>
      obtain ⟨hheap, htasks, hcur, es, hout, htold, hclean⟩ := judgeStep_told hwf' hjudge
      refine ⟨es, hout, localStep_of_told htask ht htasks hheap hcur htold, ?_⟩
      intro hall
      exact localStep_of_told htask ht htasks hheap hcur (hclean (hall p t htask ht))
  | ignore data htask hcmd =>
      obtain ⟨hJ, hS, hL⟩ := shrinks_eraseIdx (x := x) { d with
        tasks := d.tasks.eraseIdx i } htask rfl rfl fun _ => Or.inl rfl
      exact hboth [] (by simp) (.quiet _ ⟨by omega, by omega, hL⟩ (silent_nil x) rfl)
  | solve data htask hcmd s' hsolve =>
      obtain ⟨hheap, htasks, hcur, es, hout, htold⟩ := solveStep_told (x := x) hwf' hsolve
      obtain ⟨hJ, hS, hL⟩ := shrinks_eraseIdx (x := x) _ htask rfl htasks hheap
      refine hboth es hout ?_
      by_cases hx : data.txid = x
      · have hsolves : solves x (.solve data) = true := by simp [solves, hcmd, hx]
        rw [hsolves, if_pos rfl] at hS
        exact .solved _ ⟨htold.once, htold.requests⟩ (by omega) (by omega) hL hcur
      · exact .quiet _ ⟨by omega, by omega, hL⟩ (htold.other hx) hcur

end DbService

end Grit
