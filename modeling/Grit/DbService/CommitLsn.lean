import Grit.DbService.WellFormed

/-!
# The commit and the lsn of a transaction

A transaction is handed to `judgeLocalConflict` once its commit message and the
reply with its lsn are both there; the two come from different peers, in any
order. `Phase` describes the process on one transaction by the replies handled
so far, whatever else the process does in between.
-/

namespace Grit

open Cmd

namespace DbService

variable {C W : Type*}

/-- The two messages that a transaction waits for. -/
inductive Reply where
  | lsn (lsn : Int)
  | commit (needGlobalConflict : Bool)
deriving DecidableEq, Repr

/-- The reply for transaction `x` that is handled in a step. -/
def replyOf (x : Int) : Act C → Option Reply
  | .message _ (.dbServiceMsg data) =>
      if data.cmd = kCommit ∧ data.txid = x then some (.commit data.needGlobalConflict)
      else none
  | .message _ (.dbtmMsg data) =>
      if data.cmd = kLsn ∧ data.txid = x then some (.lsn data.lsn) else none
  | _ => none

def replies (x : Int) (l : List (Act C)) : List Reply := l.filterMap (replyOf x)

/-- The transactions with id `x` for which `judgeLocalConflict` was queued, as
they were then. -/
def enqueued (x : Int) (out : List (Event C)) : List Transaction :=
  out.filterMap fun e =>
    match e with
    | .enqueue t => if t.txid = x then some t else none
    | _ => none

/-- `judgeLocalConflict` was queued once for transaction `x`, with the given lsn
and the given kind of commit. -/
def EnqueuedOnce (x lsn : Int) (needGlobalConflict : Bool) (out : List (Event C)) :
    Prop :=
  ∃ t, enqueued x out = [t] ∧ t.lsn = lsn ∧ t.needGlobalConflct = needGlobalConflict

/-- The transaction that `txidTrans` holds for `x`. -/
def current (x : Int) (s : DbService C W) : Option Transaction :=
  (s.txidTrans.find x).bind s.heap

/-- No queued validation is for transaction `x`. -/
def NoJudge (x : Int) (s : DbService C W) : Prop :=
  ∀ p t, Task.judgeLocalConflict p ∈ s.tasks → s.heap p = some t → t.txid ≠ x

theorem replies_concat (x : Int) (l : List (Act C)) (a : Act C) :
    replies x (l ++ [a]) = replies x l ++ (replyOf x a).toList := by
  cases h : replyOf x a with
  | none => simp [replies, h]
  | some r => simp [replies, h]

theorem enqueued_append (x : Int) (out out' : List (Event C)) :
    enqueued x (out ++ out') = enqueued x out ++ enqueued x out' := by
  simp [enqueued]

/-! ### Steps without a reply -/

/-- A step that handles no reply for `x` queues no validation of `x`. While none
is queued, it leaves the transaction alone or adds data to it. -/
structure Quiet (x : Int) (s s' : DbService C W) : Prop where
  enqueued : enqueued x s'.out = enqueued x s.out
  noJudge : NoJudge x s → NoJudge x s'
  now : NoJudge x s → current x s' = current x s ∨ ∃ rset wset,
    current x s' = some (((current x s).getD (Transaction.init x)).collect rset wset)

/-- Storing an object of another transaction. -/
theorem current_update {s : DbService C W} (h : WellFormed s) {x y : Int} {p : Nat}
    (hp : s.txidTrans.find y = some p) (hy : y ≠ x) (t : Transaction) :
    (s.txidTrans.find x).bind (Function.update s.heap p (some t)) = current x s := by
  unfold current
  cases hq : s.txidTrans.find x with
  | none => rfl
  | some q =>
      have hqp : q ≠ p := by
        intro heq
        subst heq
        exact hy (h.inj hp hq)
      simp [hqp]

/-- The object of `x` itself is not queued while no validation of `x` is. -/
theorem NoJudge.not_queued {x : Int} {s : DbService C W} (hno : NoJudge x s) {p : Nat}
    {t : Transaction} (ht : s.heap p = some t) (hx : t.txid = x) :
    Task.judgeLocalConflict p ∉ s.tasks := by
  intro hmem
  exact hno p t hmem ht hx

theorem NoJudge.update {x : Int} {s : DbService C W} (hno : NoJudge x s) {p : Nat}
    {t : Transaction} {tasks : List Task}
    (htasks : ∀ q, Task.judgeLocalConflict q ∈ tasks →
      Task.judgeLocalConflict q ∈ s.tasks ∨ q = p)
    (h : t.txid ≠ x ∨ Task.judgeLocalConflict p ∉ tasks) {q : Nat} {u : Transaction}
    (hq : Task.judgeLocalConflict q ∈ tasks)
    (hu : Function.update s.heap p (some t) q = some u) : u.txid ≠ x := by
  by_cases hqp : q = p
  · subst hqp
    rw [Function.update_self, Option.some.injEq] at hu
    subst hu
    rcases h with h | h
    · exact h
    · exact absurd hq h
  · rw [Function.update_of_ne hqp] at hu
    rcases htasks q hq with hq | hq
    · exact hno q u hq hu
    · exact absurd hq hqp

/-- An object of another transaction is stored, and perhaps queued. -/
theorem quiet_store {s : DbService C W} (h : WellFormed s) {x y : Int} {p : Nat}
    (hp : s.txidTrans.find y = some p) (hy : y ≠ x) {t : Transaction} (ht : t.txid = y)
    {tasks : List Task} (htasks : ∀ q, Task.judgeLocalConflict q ∈ tasks →
      Task.judgeLocalConflict q ∈ s.tasks ∨ q = p)
    (es : List (Event C)) (hes : enqueued x es = []) :
    Quiet x s { s with
      heap := Function.update s.heap p (some t)
      tasks := tasks
      out := s.out ++ es } := by
  constructor
  · simp [enqueued_append, hes]
  · intro hno q u hq hu
    exact hno.update htasks (Or.inl (by rw [ht]; exact hy)) hq hu
  · intro _
    exact Or.inl (current_update h hp hy t)

/-- Dropping what the DBTM holds for some transaction. -/
theorem current_drop {s : DbService C W} (h : WellFormed s) {y : Int}
    {heap : Nat → Option Transaction}
    (hheap : ∀ q, heap q = s.heap q ∨ s.dbtmTable.find y = some q ∧ heap q = none)
    (x : Int) : (s.txidTrans.find x).bind heap = current x s := by
  unfold current
  cases hq : s.txidTrans.find x with
  | none => rfl
  | some q =>
      rcases hheap q with hsame | ⟨hy, -⟩
      · exact hsame
      · exact absurd hq (h.apart y x q hy)

/-- A step that frees objects and takes tasks, but adds none. -/
theorem quiet_shrink {x : Int} {s s' : DbService C W}
    (henq : enqueued x s'.out = enqueued x s.out)
    (htasks : ∀ q, Task.judgeLocalConflict q ∈ s'.tasks →
      Task.judgeLocalConflict q ∈ s.tasks)
    (hheap : ∀ q, s'.heap q = s.heap q ∨ s'.heap q = none)
    (hcur : NoJudge x s → current x s' = current x s) : Quiet x s s' := by
  constructor
  · exact henq
  · intro hno q u hq hu
    rcases hheap q with hsame | hnone
    · exact hno q u (htasks q hq) (hsame.symm.trans hu)
    · simp [hnone] at hu
  · intro hno
    exact Or.inl (hcur hno)

/-- A step that leaves the map and the heap as they are. -/
theorem quiet_keep {x : Int} {s s' : DbService C W}
    (henq : enqueued x s'.out = enqueued x s.out)
    (htasks : ∀ q, Task.judgeLocalConflict q ∈ s'.tasks →
      Task.judgeLocalConflict q ∈ s.tasks)
    (hheap : s'.heap = s.heap) (hmap : s'.txidTrans = s.txidTrans) : Quiet x s s' := by
  apply quiet_shrink henq htasks
  · intro q
    rw [hheap]
    exact Or.inl rfl
  · intro _
    unfold current
    rw [hheap, hmap]

theorem quiet_of_retStep {status : Cmd} {x y : Int} {s s' : DbService C W}
    (h : WellFormed s) (hstep : RetStep status y s s') : Quiet x s s' := by
  cases hstep with
  | lost =>
      exact quiet_keep (by simp [enqueued]) (fun _ hq => hq) rfl rfl
  | sent conn heap c hconn hheap =>
      apply quiet_shrink
      · simp [enqueued]
      · exact fun _ hq => hq
      · intro q
        rcases hheap q with hsame | ⟨-, hnone⟩
        · exact Or.inl hsame
        · exact Or.inr hnone
      · exact fun _ => current_drop h hheap x

theorem quiet_of_opened {x y : Int} {s s₁ : DbService C W} (h : WellFormed s) {p : Nat}
    {t : Transaction} (hopen : Opened y s p t s₁) :
    s₁.tasks = s.tasks ∧ (NoJudge x s → NoJudge x s₁) ∧
      (y ≠ x → current x s₁ = current x s) ∧
      (y = x → t = (current x s).getD (Transaction.init x)) := by
  cases hopen with
  | old p t hp ht =>
      refine ⟨rfl, fun hno => hno, fun _ => rfl, ?_⟩
      intro hy
      subst hy
      simp [current, hp, ht]
  | new hnone =>
      refine ⟨rfl, ?_, ?_, ?_⟩
      · intro hno q u hq hu
        have hlt := h.queued q hq
        have hne : q ≠ s.next := by omega
        exact hno q u hq ((Function.update_of_ne hne _ _).symm.trans hu)
      · intro hy
        unfold current
        rw [PtrMap.find_insert_of_ne _ _ hy.symm]
        cases hq : s.txidTrans.find x with
        | none => rfl
        | some q =>
            have hlt := (h.held x q hq).1
            have hne : q ≠ s.next := by omega
            simp [hne]
      · intro hy
        subst hy
        simp [current, PtrMap.find, hnone]

theorem quiet_of_collect {x : Int} {s s₁ : DbService C W} (h : WellFormed s) {y : Int}
    {p : Nat} {t : Transaction} (hopen : Opened y s p t s₁) (table : PtrMap Int C)
    (rset wset : List Data) :
    Quiet x s { s₁ with
      table := table
      heap := Function.update s₁.heap p (some (t.collect rset wset))
      tasks := s₁.tasks ++ if t.lsn = -1 then [.getLsn y] else [] } := by
  obtain ⟨hp, -, hout⟩ := opened_find hopen
  obtain ⟨htasks, hno₁, hne, heq⟩ := quiet_of_opened (x := x) h hopen
  obtain ⟨h₁, hy⟩ := h.opened hopen
  have hqueue : ∀ q, Task.judgeLocalConflict q ∈
      s₁.tasks ++ (if t.lsn = -1 then [.getLsn y] else []) →
        Task.judgeLocalConflict q ∈ s₁.tasks := by
    intro q hq
    split at hq
    · simpa using hq
    · simpa using hq
  constructor
  · simp [hout]
  · intro hno q u hq hu
    refine (hno₁ hno).update (fun q hq => Or.inl (hqueue q hq)) ?_ hq hu
    by_cases hyx : y = x
    · obtain ⟨-, u, hu, hux⟩ := h₁.held y p hp
      have hnot := (hno₁ hno).not_queued hu (hux.trans hyx)
      exact Or.inr fun hq => hnot (hqueue p hq)
    · exact Or.inl (by simpa [Transaction.collect, hy] using hyx)
  · intro _
    by_cases hyx : y = x
    · refine Or.inr ⟨rset, wset, ?_⟩
      rw [← heq hyx]
      subst hyx
      simp [current, hp]
    · exact Or.inl ((current_update h₁ hp hyx _).trans (hne hyx))

theorem replyOf_commit_none {x : Int} {conn : C} {data : DbServiceMsg}
    (hr : replyOf x (.message conn (.dbServiceMsg data)) = none)
    (hcmd : data.cmd = kCommit) : data.txid ≠ x := by
  intro hx
  simp [replyOf, hcmd, hx] at hr

theorem replyOf_lsn_none {x : Int} {conn : C} {data : DbtmMsg}
    (hr : replyOf x (.message conn (.dbtmMsg data)) = none) (hcmd : data.cmd = kLsn) :
    data.txid ≠ x := by
  intro hx
  simp [replyOf, hcmd, hx] at hr

theorem quiet_of_messageStep {x : Int} {conn : C} {msg : RootMsg} {s s' : DbService C W}
    (h : WellFormed s) (hstep : MessageStep conn msg s s') (hlive : s'.crashed = false)
    (hr : replyOf x (.message conn msg) = none) : Quiet x s s' := by
  have hpush : ∀ {p : Nat} (q : Nat),
      Task.judgeLocalConflict q ∈ s.tasks ++ [.judgeLocalConflict p] →
        Task.judgeLocalConflict q ∈ s.tasks ∨ q = p := by
    intro p q hq
    simpa using hq
  cases hstep with
  | skip =>
      exact quiet_keep rfl (fun _ hq => hq) rfl rfl
  | stuck _ hout hc => simp [hc] at hlive
  | collect data hmsg hcmd p t s₁ hopen rset wset =>
      exact quiet_of_collect h hopen _ rset wset
  | commitEarly data hmsg hcmd p t hp ht hlsn =>
      subst hmsg
      have hy := h.txid_eq hp ht
      have hq := quiet_store h hp (replyOf_commit_none hr hcmd)
        (t := { t with needGlobalConflct := data.needGlobalConflict, alreadyCommit := true })
        hy (fun _ hq => Or.inl hq) [] rfl
      simpa using hq
  | commitReady data hmsg hcmd p t hp ht hlsn =>
      subst hmsg
      have hne := replyOf_commit_none hr hcmd
      have hy := h.txid_eq hp ht
      refine quiet_store h hp hne (by exact hy) hpush _ ?_
      simp [enqueued, hy, hne]
  | lsnEarly data hmsg hcmd p t hp ht hcommit =>
      subst hmsg
      have hy := h.txid_eq hp ht
      have hq := quiet_store h hp (replyOf_lsn_none hr hcmd)
        (t := { t with lsn := data.lsn }) hy (fun _ hq => Or.inl hq) [] rfl
      simpa using hq
  | lsnReady data hmsg hcmd p t hp ht hcommit =>
      subst hmsg
      have hne := replyOf_lsn_none hr hcmd
      have hy := h.txid_eq hp ht
      refine quiet_store h hp hne (by exact hy) hpush _ ?_
      simp [enqueued, hy, hne]
  | decision data hmsg hcmd =>
      refine quiet_keep rfl ?_ rfl rfl
      intro q hq
      simpa using hq
  | result data hmsg hcmd s' hret => exact quiet_of_retStep h hret

theorem Quiet.trans {x : Int} {s s' s'' : DbService C W} (h : Quiet x s s')
    (h' : Quiet x s' s'') (hcur : current x s' = current x s) : Quiet x s s'' := by
  constructor
  · exact h'.enqueued.trans h.enqueued
  · exact fun hno => h'.noJudge (h.noJudge hno)
  · intro hno
    rw [← hcur]
    exact h'.now (h.noJudge hno)

/-- A queued validation, which is of a transaction other than `x`. -/
theorem quiet_of_judgeStep {ops : Wcheck W} {x : Int} {i p : Nat} {t : Transaction}
    {s s' : DbService C W} (h : WellFormed s)
    (hstep : JudgeStep ops p t { s with tasks := s.tasks.eraseIdx i } s')
    (hx : NoJudge x s → t.txid ≠ x) : Quiet x s s' := by
  have htasks : ∀ q, Task.judgeLocalConflict q ∈ s.tasks.eraseIdx i →
      Task.judgeLocalConflict q ∈ s.tasks := by
    intro q hq
    exact List.mem_of_mem_eraseIdx hq
  have hmove : NoJudge x s →
      ((s.txidTrans.erase t.txid).find x).bind s.heap = current x s := by
    intro hno
    rw [PtrMap.find_erase_of_ne _ (hx hno).symm]
    rfl
  cases hstep with
  | stuck => exact quiet_keep (by simp [enqueued, prologue]) htasks rfl rfl
  | failLost => exact quiet_keep (by simp [enqueued, prologue]) htasks rfl rfl
  | vote =>
      exact quiet_shrink (by simp [enqueued, prologue]) htasks (fun _ => Or.inl rfl) hmove
  | cacheStuck =>
      exact quiet_shrink (by simp [enqueued, prologue]) htasks (fun _ => Or.inl rfl) hmove
  | cache =>
      exact quiet_shrink (by simp [enqueued, prologue]) htasks (fun _ => Or.inl rfl) hmove
  | fail w ks conn heap c vote hcheck hconn hheap hvote =>
      refine quiet_shrink ?_ htasks ?_ (fun _ => current_drop h hheap x)
      · rcases hvote with rfl | ⟨-, rfl⟩
        · simp [enqueued, prologue]
        · simp [enqueued, prologue]
      · intro q
        rcases hheap q with hsame | ⟨-, hnone⟩
        · exact Or.inl hsame
        · exact Or.inr hnone

theorem quiet_of_solveStep {ops : Wcheck W} {x : Int} {data : DbtmMsg}
    {s s' : DbService C W} (h : WellFormed s) (hstep : SolveStep ops data s s') :
    Quiet x s s' := by
  cases hstep with
  | missing =>
      exact quiet_keep rfl (fun _ hq => hq) rfl rfl
  | dangling =>
      exact quiet_keep rfl (fun _ hq => hq) rfl rfl
  | cacheStuck =>
      exact quiet_keep (by simp [enqueued]) (fun _ hq => hq) rfl rfl
  | cache p t w tail hp ht hd hw htail =>
      refine quiet_keep ?_ (fun _ hq => hq) rfl rfl
      rcases htail with ⟨rfl, -⟩ | rfl
      · simp [enqueued]
      · simp [enqueued]
  | fail s' hd hret =>
      have hwf : WellFormed { s with
          out := s.out ++ [.sqlExec (.delete data.txid), .removeFile data.txid] } :=
        h.keep (fun _ hq => hq) _ _ _ _
      have hq := quiet_of_retStep (x := x) hwf hret
      refine Quiet.trans ?_ hq rfl
      exact quiet_keep (by simp [enqueued]) (fun _ hq => hq) rfl rfl

theorem quiet_of_taskStep {ops : Wcheck W} {x : Int} {i : Nat} {s s' : DbService C W}
    (h : WellFormed s) (hstep : TaskStep ops i s s') : Quiet x s s' := by
  have herase : Quiet x s { s with tasks := s.tasks.eraseIdx i } :=
    quiet_keep rfl (fun _ hq => List.mem_of_mem_eraseIdx hq) rfl rfl
  have hwf : WellFormed { s with tasks := s.tasks.eraseIdx i } :=
    h.keep (fun _ hq => List.mem_of_mem_eraseIdx hq) _ _ _ _
  cases hstep with
  | none => exact quiet_keep rfl (fun _ hq => hq) rfl rfl
  | getLsn =>
      exact herase.trans (quiet_keep (by simp [enqueued]) (fun _ hq => hq) rfl rfl) rfl
  | dangling => exact herase.trans (quiet_keep rfl (fun _ hq => hq) rfl rfl) rfl
  | judge p t htask ht s' hjudge =>
      apply quiet_of_judgeStep h hjudge
      intro hno
      exact hno p t (List.mem_of_getElem? htask) ht
  | ignore => exact herase
  | solve data htask hcmd s' hsolve =>
      exact herase.trans (quiet_of_solveStep hwf hsolve) rfl

/-! ### Phases -/

/-- The process on transaction `x`, after the given replies of the lsn `l` and of
the commit `b`. -/
inductive Phase (x l : Int) (b : Bool) (s : DbService C W) : List Reply → Prop where
  | idle (henq : enqueued x s.out = []) (hno : NoJudge x s)
      (h : ∀ t, current x s = some t → t.lsn ≤ 0 ∧ t.alreadyCommit = false) :
      Phase x l b s []
  | lsn (henq : enqueued x s.out = []) (hno : NoJudge x s) (t : Transaction)
      (ht : current x s = some t) (hlsn : t.lsn = l ∨ t.lsn ≤ 0 ∧ l ≤ 0)
      (hc : t.alreadyCommit = false) : Phase x l b s [.lsn l]
  | commit (henq : enqueued x s.out = []) (hno : NoJudge x s) (t : Transaction)
      (ht : current x s = some t) (hlsn : t.lsn ≤ 0) (hc : t.alreadyCommit = true)
      (hb : t.needGlobalConflct = b) : Phase x l b s [.commit b]
  | lsnCommit (hpos : 0 < l → EnqueuedOnce x l b s.out)
      (hzero : ¬ 0 < l → enqueued x s.out = []) : Phase x l b s [.lsn l, .commit b]
  | commitLsn (h : EnqueuedOnce x l b s.out) : Phase x l b s [.commit b, .lsn l]

theorem Phase.quiet {x l : Int} {b : Bool} {r : List Reply} {s s' : DbService C W}
    (h : Phase x l b s r) (hq : Quiet x s s') : Phase x l b s' r := by
  cases h with
  | idle henq hno h =>
      refine .idle (hq.enqueued.trans henq) (hq.noJudge hno) ?_
      intro t ht
      rcases hq.now hno with heq | ⟨rset, wset, heq⟩
      · exact h t (heq.symm.trans ht)
      · rw [heq, Option.some.injEq] at ht
        subst ht
        cases hcur : current x s with
        | none => exact ⟨Int.le_refl 0, rfl⟩
        | some u =>
            obtain ⟨hu, hc⟩ := h u hcur
            refine ⟨?_, hc⟩
            simp only [Option.getD_some, Transaction.collect]
            split
            · exact Int.le_refl 0
            · exact hu
  | lsn henq hno t ht hlsn hc =>
      rcases hq.now hno with heq | ⟨rset, wset, heq⟩
      · exact .lsn (hq.enqueued.trans henq) (hq.noJudge hno) t (heq.trans ht) hlsn hc
      · rw [ht] at heq
        refine .lsn (hq.enqueued.trans henq) (hq.noJudge hno) _ heq ?_ hc
        simp only [Option.getD_some, Transaction.collect]
        split
        · exact Or.inr ⟨Int.le_refl 0, by omega⟩
        · exact hlsn
  | commit henq hno t ht hlsn hc hb =>
      rcases hq.now hno with heq | ⟨rset, wset, heq⟩
      · exact .commit (hq.enqueued.trans henq) (hq.noJudge hno) t (heq.trans ht) hlsn hc hb
      · rw [ht] at heq
        refine .commit (hq.enqueued.trans henq) (hq.noJudge hno) _ heq ?_ hc hb
        simp only [Option.getD_some, Transaction.collect]
        split
        · exact Int.le_refl 0
        · exact hlsn
  | lsnCommit hpos hzero =>
      refine .lsnCommit ?_ ?_
      · intro h
        rw [EnqueuedOnce, hq.enqueued]
        exact hpos h
      · intro h
        rw [hq.enqueued]
        exact hzero h
  | commitLsn h =>
      apply Phase.commitLsn
      rw [EnqueuedOnce, hq.enqueued]
      exact h

/-- The effect of a reply on its transaction, which is the object `t` at `p`. -/
def settle (p : Nat) (t : Transaction) (s : DbService C W) : Reply → DbService C W
  | .commit b =>
      if 0 < t.lsn then
        { s with
          heap := Function.update s.heap p (some { t with needGlobalConflct := b })
          tasks := s.tasks ++ [.judgeLocalConflict p]
          out := s.out ++ [.enqueue { t with needGlobalConflct := b }] }
      else
        { s with
          heap := Function.update s.heap p (some { t with
            needGlobalConflct := b, alreadyCommit := true }) }
  | .lsn l =>
      if t.alreadyCommit then
        { s with
          heap := Function.update s.heap p (some { t with lsn := l })
          tasks := s.tasks ++ [.judgeLocalConflict p]
          out := s.out ++ [.enqueue { t with lsn := l }] }
      else { s with heap := Function.update s.heap p (some { t with lsn := l }) }

/-- A step that handles a reply for `x`. -/
theorem reply_cases {x : Int} {conn : C} {msg : RootMsg} {r : Reply}
    {s s' : DbService C W} (hstep : MessageStep conn msg s s')
    (hlive : s'.crashed = false) (hr : replyOf x (.message conn msg) = some r) :
    ∃ p t, s.txidTrans.find x = some p ∧ s.heap p = some t ∧ s' = settle p t s r := by
  have hcommit : ∀ data, msg = .dbServiceMsg data → data.cmd = kCommit →
      data.txid = x ∧ r = .commit data.needGlobalConflict := by
    intro data hmsg hcmd
    subst hmsg
    simp only [replyOf, hcmd, true_and, Option.ite_none_right_eq_some,
      Option.some.injEq] at hr
    exact ⟨hr.1, hr.2.symm⟩
  have hlsn : ∀ data, msg = .dbtmMsg data → data.cmd = kLsn →
      data.txid = x ∧ r = .lsn data.lsn := by
    intro data hmsg hcmd
    subst hmsg
    simp only [replyOf, hcmd, true_and, Option.ite_none_right_eq_some,
      Option.some.injEq] at hr
    exact ⟨hr.1, hr.2.symm⟩
  cases hstep with
  | skip h h' =>
      cases msg with
      | dbServiceMsg data => simp [replyOf, (h data rfl).2] at hr
      | dbtmMsg data => simp [replyOf, (h' data rfl).2.1] at hr
      | gtmMsg data => simp [replyOf] at hr
      | appMsg data => simp [replyOf] at hr
      | dbtlMsg data => simp [replyOf] at hr
      | esMsg data => simp [replyOf] at hr
      | logPlayerMsg data => simp [replyOf] at hr
  | stuck _ hout hc => simp [hc] at hlive
  | collect data hmsg hcmd => simp [hmsg, replyOf, hcmd] at hr
  | commitEarly data hmsg hcmd p t hp ht hneg =>
      obtain ⟨rfl, rfl⟩ := hcommit data hmsg hcmd
      exact ⟨p, t, hp, ht, by simp [settle, hneg]⟩
  | commitReady data hmsg hcmd p t hp ht hpos =>
      obtain ⟨rfl, rfl⟩ := hcommit data hmsg hcmd
      exact ⟨p, t, hp, ht, by simp [settle, hpos]⟩
  | lsnEarly data hmsg hcmd p t hp ht hc =>
      obtain ⟨rfl, rfl⟩ := hlsn data hmsg hcmd
      exact ⟨p, t, hp, ht, by simp [settle, hc]⟩
  | lsnReady data hmsg hcmd p t hp ht hc =>
      obtain ⟨rfl, rfl⟩ := hlsn data hmsg hcmd
      exact ⟨p, t, hp, ht, by simp [settle, hc]⟩
  | decision data hmsg hcmd => simp [hmsg, replyOf, hcmd] at hr
  | result data hmsg hcmd =>
      rcases hcmd with hcmd | hcmd
      · simp [hmsg, replyOf, hcmd] at hr
      · simp [hmsg, replyOf, hcmd] at hr

/-- The replies `r` are the first ones of the lsn `l` and the commit `b`, in one
of the two orders. -/
def Ordered (l : Int) (b : Bool) (r : List Reply) : Prop :=
  r <+: [.lsn l, .commit b] ∨ r <+: [.commit b, .lsn l]

theorem NoJudge.store {x : Int} {s : DbService C W} (hno : NoJudge x s) {p : Nat}
    {t : Transaction} (ht : s.heap p = some t) (hx : t.txid = x) (u : Transaction) :
    NoJudge x { s with heap := Function.update s.heap p (some u) } := by
  intro q v hq hv
  exact hno.update (fun _ hq => Or.inl hq) (Or.inr (hno.not_queued ht hx)) hq hv

theorem Phase.reply {x l : Int} {b : Bool} {r : List Reply} {s s' : DbService C W}
    {conn : C} {msg : RootMsg} {e : Reply} (hwf : WellFormed s) (h : Phase x l b s r)
    (hstep : MessageStep conn msg s s') (hlive : s'.crashed = false)
    (hr : replyOf x (.message conn msg) = some e) (hord : Ordered l b (r ++ [e])) :
    Phase x l b s' (r ++ [e]) := by
  obtain ⟨p, t, hp, ht, hs'⟩ := reply_cases hstep hlive hr
  have hx := hwf.txid_eq hp ht
  have hcur : current x s = some t := by simp [current, hp, ht]
  have hnew : ∀ (u : Transaction) (s₁ : DbService C W), s₁.txidTrans = s.txidTrans →
      s₁.heap = Function.update s.heap p (some u) → current x s₁ = some u := by
    intro u s₁ hmap hheap
    simp [current, hmap, hheap, hp]
  have hone : ∀ u : Transaction, u.txid = x → enqueued x s.out = [] →
      enqueued x (s.out ++ [.enqueue u]) = [u] := by
    intro u hu henq
    rw [enqueued_append, henq]
    simp [enqueued, hu]
  cases h with
  | idle henq hno h =>
      obtain ⟨hle, hc⟩ := h t hcur
      cases e with
      | commit b' =>
          obtain rfl : b' = b := by simpa [Ordered] using hord
          rw [settle, if_neg (Int.not_lt.2 hle)] at hs'
          subst hs'
          exact .commit henq (hno.store ht hx _) _ (hnew _ _ rfl rfl) hle rfl rfl
      | lsn l' =>
          obtain rfl : l' = l := by simpa [Ordered] using hord
          rw [settle, if_neg (by simp [hc])] at hs'
          subst hs'
          exact .lsn henq (hno.store ht hx _) _ (hnew _ _ rfl rfl) (Or.inl rfl) hc
  | lsn henq hno u hu hlsn hc =>
      rw [hcur, Option.some.injEq] at hu
      subst hu
      obtain rfl : e = .commit b := by simpa [Ordered] using hord
      refine .lsnCommit ?_ ?_
      · intro hpos
        have heq : t.lsn = l := by omega
        rw [settle, if_pos (heq ▸ hpos)] at hs'
        subst hs'
        exact ⟨_, hone _ hx henq, heq, rfl⟩
      · intro hneg
        rw [settle, if_neg (by omega)] at hs'
        subst hs'
        exact henq
  | commit henq hno u hu hlsn hc hb =>
      rw [hcur, Option.some.injEq] at hu
      subst hu
      obtain rfl : e = .lsn l := by simpa [Ordered] using hord
      rw [settle, if_pos hc] at hs'
      subst hs'
      exact .commitLsn ⟨_, hone _ hx henq, rfl, hb⟩
  | lsnCommit => simp [Ordered] at hord
  | commitLsn => simp [Ordered] at hord

theorem phase_acts (ops : Wcheck W) (w : W) {x l : Int} {b : Bool}
    {acs : List (Act C)} (hlive : (acts ops (init w) acs).crashed = false)
    (hord : Ordered l b (replies x acs)) :
    Phase x l b (acts ops (init w) acs) (replies x acs) := by
  induction acs using List.reverseRecOn with
  | nil =>
      apply Phase.idle
      · rfl
      · intro p t hp
        simp [acts, init] at hp
      · intro t ht
        simp [acts, init, current] at ht
  | append_singleton acs a ih =>
      rw [acts_concat] at hlive ⊢
      rw [replies_concat] at hord ⊢
      have hlive₀ := live_of_act hlive
      have hwf := wellFormed_acts ops w acs hlive₀
      have hord₀ : Ordered l b (replies x acs) := by
        rcases hord with hord | hord
        · exact Or.inl ((List.prefix_append _ _).trans hord)
        · exact Or.inr ((List.prefix_append _ _).trans hord)
      have hphase := ih hlive₀ hord₀
      rw [act, andThen, if_neg (by simp [hlive₀])] at hlive ⊢
      cases a with
      | task i =>
          have hquiet := quiet_of_taskStep (x := x) hwf (runTask_step ops i _)
          simpa [replyOf] using hphase.quiet hquiet
      | message conn msg =>
          have hstep := onMessage_step conn msg hlive₀
          cases hr : replyOf x (.message conn msg) with
          | none =>
              have hquiet := quiet_of_messageStep hwf hstep hlive hr
              simpa using hphase.quiet hquiet
          | some e =>
              rw [hr] at hord
              exact hphase.reply hwf hstep hlive hr hord

/-- Once the lsn `l` and one commit of transaction `x` have been handled by a
live process, `judgeLocalConflict` has been queued for it exactly once, with
that lsn and that kind of commit, if and only if the lsn is positive or the
commit was handled first. -/
theorem enqueuedOnce_iff (ops : Wcheck W) (w : W) (acs : List (Act C)) (x : Int)
    (l : Int) (b : Bool) (hlive : (acts ops (init w) acs).crashed = false)
    (hboth : replies x acs = [.lsn l, .commit b] ∨ replies x acs = [.commit b, .lsn l]) :
    EnqueuedOnce x l b (acts ops (init w) acs).out ↔
      0 < l ∨ replies x acs = [.commit b, .lsn l] := by
  have hord : Ordered l b (replies x acs) := by
    rcases hboth with h | h
    · exact Or.inl (h ▸ List.prefix_refl _)
    · exact Or.inr (h ▸ List.prefix_refl _)
  have hphase := phase_acts ops w hlive hord
  rcases hboth with h | h
  · rw [h] at hphase ⊢
    cases hphase with
    | lsnCommit hpos hzero =>
        by_cases hl : 0 < l
        · simp [hl, hpos hl]
        · simp [hl, EnqueuedOnce, hzero hl]
  · rw [h] at hphase ⊢
    cases hphase with
    | commitLsn henq => simp [henq]

/-- The lsn `1` is handled before the commit. -/
theorem enqueuedOnce_iff_lsn_one :
    (acts Wcheck.contract (init [] : DbService Unit (List Info))
        [.message () (.dbServiceMsg (createDbServiceMsg kData 7 false (some []) (some []))),
          .task 0, .message () (.dbtmMsg (createDbtmMsg kLsn 7 false 1)),
          .message () (.dbServiceMsg (createDbServiceMsg kCommit 7 true))]).crashed = false ∧
      EnqueuedOnce 7 1 true (acts Wcheck.contract (init [] : DbService Unit (List Info))
        [.message () (.dbServiceMsg (createDbServiceMsg kData 7 false (some []) (some []))),
          .task 0, .message () (.dbtmMsg (createDbtmMsg kLsn 7 false 1)),
          .message () (.dbServiceMsg (createDbServiceMsg kCommit 7 true))]).out :=
  ⟨rfl, (enqueuedOnce_iff Wcheck.contract [] _ 7 1 true rfl (Or.inl rfl)).2
    (Or.inl Int.one_pos)⟩

/-- The first lsn that is handed out is `0`. When it is handled before the
commit, `judgeLocalConflict` is never queued. -/
theorem not_enqueuedOnce_lsn_zero :
    (acts Wcheck.contract (init [] : DbService Unit (List Info))
        [.message () (.dbServiceMsg (createDbServiceMsg kData 7 false (some []) (some []))),
          .task 0, .message () (.dbtmMsg (createDbtmMsg kLsn 7 false 0)),
          .message () (.dbServiceMsg (createDbServiceMsg kCommit 7 true))]).crashed = false ∧
      ¬ EnqueuedOnce 7 0 true (acts Wcheck.contract (init [] : DbService Unit (List Info))
        [.message () (.dbServiceMsg (createDbServiceMsg kData 7 false (some []) (some []))),
          .task 0, .message () (.dbtmMsg (createDbtmMsg kLsn 7 false 0)),
          .message () (.dbServiceMsg (createDbServiceMsg kCommit 7 true))]).out := by
  refine ⟨rfl, ?_⟩
  intro h
  obtain ⟨t, ht, -, -⟩ := h
  have hlen : 0 = [t].length := congrArg List.length ht
  simp at hlen

end DbService

end Grit
