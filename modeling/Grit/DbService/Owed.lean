import Grit.DbService.Bound
import Grit.DbService.Effect

/-!
# What a DbService still owes

The counterpart of `Pending`: no step after which the process is alive loses a transaction. A
validation that is queued ends in a result, a vote or a log, and so does a queued decision. A
transaction whose commit is in waits for its lsn, and the reply queues its validation.

A validation is counted also when its object has been freed meanwhile: such a task ends the
process, so that nothing is lost as long as the process is alive.
-/

namespace Grit

open Cmd

namespace DbService

variable {C W : Type*}

/-- The task validates transaction `x`, or one that has been freed. -/
def mayJudge (x : Int) (heap : Nat → Option Transaction) : Task → Bool
  | .judgeLocalConflict p => (heap p).all fun t => t.txid = x
  | _ => false

def awaiting (x : Int) (d : DbService C W) : Nat := d.tasks.countP (mayJudge x d.heap)

/-- What the process has to do for `x`, and the results that it has returned. -/
def owed (x : Int) (d : DbService C W) : Nat :=
  awaiting x d + solving x d + results x d.out

/-- Transaction `x` has been committed and waits for its lsn. -/
def Committed (x : Int) (d : DbService C W) : Prop :=
  ∃ t, current x d = some t ∧ t.alreadyCommit = true

/-! ### Queued validations -/

theorem mayJudge_free {heap heap' : Nat → Option Transaction}
    (h : ∀ q, heap' q = heap q ∨ heap' q = none) (x : Int) (task : Task)
    (hj : mayJudge x heap task = true) : mayJudge x heap' task = true := by
  cases task with
  | judgeLocalConflict q =>
      rcases h q with hq | hq
      · simpa [mayJudge, hq] using hj
      · simp [mayJudge, hq]
  | getLsn txid => simp [mayJudge] at hj
  | solve data => simp [mayJudge] at hj

/-- An object is stored that keeps its transaction id. -/
theorem mayJudge_update {heap : Nat → Option Transaction} {p : Nat} {t t' : Transaction}
    (ht : heap p = some t) (htxid : t'.txid = t.txid) (x : Int) :
    mayJudge x (Function.update heap p (some t')) = mayJudge x heap := by
  funext task
  cases task with
  | judgeLocalConflict q =>
      by_cases hq : q = p
      · subst hq
        simp [mayJudge, ht, htxid]
      · simp [mayJudge, hq]
  | _ => rfl

/-- No queued task refers to an address that is not yet in use. -/
theorem mayJudge_fresh {d : DbService C W} (hwf : WellFormed d) (x : Int)
    {heap : Nat → Option Transaction} (hheap : ∀ q, q ≠ d.next → heap q = d.heap q) :
    d.tasks.countP (mayJudge x heap) = awaiting x d := by
  apply List.countP_congr
  intro task htask
  cases task with
  | judgeLocalConflict q =>
      have hlt := hwf.queued q htask
      have hne : q ≠ d.next := by omega
      simp [mayJudge, hheap q hne]
  | _ => exact Iff.rfl

/-- Tasks are added. -/
theorem awaiting_append {x : Int} {d d' : DbService C W} (tasks : List Task)
    (htasks : d'.tasks = d.tasks ++ tasks) (h : mayJudge x d'.heap = mayJudge x d.heap) :
    awaiting x d ≤ awaiting x d' := by
  rw [awaiting, awaiting, htasks, h, List.countP_append]
  exact Nat.le_add_right _ _

theorem awaiting_pos {x : Int} {d : DbService C W} {p : Nat} {t : Transaction}
    (htask : .judgeLocalConflict p ∈ d.tasks) (hp : d.heap p = some t) (ht : t.txid = x) :
    0 < awaiting x d := by
  rw [awaiting, List.countP_pos_iff]
  exact ⟨_, htask, by simp [mayJudge, hp, ht]⟩

/-- A result may free an object that is queued. -/
theorem awaiting_retStep {status : Cmd} {y : Int} {d d' : DbService C W}
    (hstep : RetStep status y d d') (x : Int) : awaiting x d ≤ awaiting x d' := by
  cases hstep with
  | lost => exact Nat.le_refl _
  | sent conn heap c hconn hheap =>
      refine List.countP_mono_left fun task _ => mayJudge_free ?_ x task
      intro q
      exact (hheap q).imp_right And.right

theorem retStep_owed {status : Cmd} {x y : Int} {d d' : DbService C W}
    (hstep : RetStep status y d d') :
    owed x d + (if y = x then 1 else 0) ≤ owed x d' := by
  have hJ := awaiting_retStep hstep x
  have hrest : solving x d' = solving x d ∧
      results x d'.out = results x d.out + if y = x then 1 else 0 := by
    cases hstep with
    | lost => exact ⟨rfl, by simp [results, List.countP_cons]⟩
    | sent conn heap c hconn hheap => exact ⟨rfl, by simp [results, List.countP_cons]⟩
  unfold owed
  omega

/-! ### Messages -/

theorem works_eq_zero_dbServiceMsg (x : Int) (data : DbServiceMsg) :
    (inputOf x (.dbServiceMsg data)).works = 0 := by
  by_cases hc : data.cmd = kCommit ∧ data.txid = x
  · simp [inputOf, hc, Input.works]
  · simp [inputOf, hc, Input.works]

/-- A transaction that is created is not queued yet. -/
theorem awaiting_collect {x y : Int} {d d₁ : DbService C W} {p : Nat} {t : Transaction}
    (hwf : WellFormed d) (hopen : Opened y d p t d₁) (table : PtrMap Int C)
    (rset wset : List Data) (tasks : List Task) :
    awaiting x d ≤ awaiting x { d₁ with
      table := table
      heap := Function.update d₁.heap p (some (t.collect rset wset))
      tasks := d₁.tasks ++ tasks } := by
  cases hopen with
  | old p t hp ht => exact awaiting_append tasks rfl (mayJudge_update ht (by rfl) x)
  | new hnone =>
      rw [awaiting, awaiting, List.countP_append]
      refine Nat.le_add_right_of_le (Nat.le_of_eq (mayJudge_fresh hwf x ?_).symm)
      intro q hq
      simp [hq]

theorem awaiting_messageStep {conn : C} {msg : RootMsg} {d d' : DbService C W}
    (hwf : WellFormed d) (hstep : MessageStep conn msg d d') (hlive : d'.crashed = false)
    (x : Int) : awaiting x d ≤ awaiting x d' := by
  have hnil := (List.append_nil d.tasks).symm
  cases hstep with
  | skip => exact Nat.le_refl _
  | stuck _ hout hc => simp [hlive] at hc
  | collect data hmsg hcmd p t d₁ hopen rset wset => exact awaiting_collect hwf hopen _ rset wset _
  | commitEarly data hmsg hcmd p t hp ht hlsn =>
      exact awaiting_append [] hnil (mayJudge_update ht (by rfl) x)
  | commitReady data hmsg hcmd p t hp ht hlsn =>
      exact awaiting_append _ rfl (mayJudge_update ht (by rfl) x)
  | lsnEarly data hmsg hcmd p t hp ht hcommit =>
      exact awaiting_append [] hnil (mayJudge_update ht (by rfl) x)
  | lsnReady data hmsg hcmd p t hp ht hcommit =>
      exact awaiting_append _ rfl (mayJudge_update ht (by rfl) x)
  | decision data hmsg hcmd => exact awaiting_append _ rfl rfl
  | result data hmsg hcmd s' hret => exact awaiting_retStep hret x

theorem solving_append (x : Int) (d : DbService C W) {tasks : List Task}
    (h : ∀ task ∈ tasks, solves x task = false) :
    (d.tasks ++ tasks).countP (solves x) = solving x d := by
  have hzero : tasks.countP (solves x) = 0 := by
    rw [List.countP_eq_zero]
    intro task htask
    simp [h task htask]
  rw [List.countP_append, hzero, Nat.add_zero, solving]

/-- A message that is skipped brings no work. -/
theorem works_eq_zero_of_skip {msg : RootMsg} (x : Int)
    (h : ∀ data, msg = .dbtmMsg data → data.cmd ≠ kJudgeConflit ∧ data.cmd ≠ kLsn ∧
      data.cmd ≠ kTranSuccess ∧ data.cmd ≠ kTranFail) : (inputOf x msg).works = 0 := by
  cases msg with
  | dbServiceMsg data => exact works_eq_zero_dbServiceMsg x data
  | dbtmMsg data =>
      obtain ⟨hjudge, -, hsucc, hfail⟩ := h data rfl
      by_cases hx : data.txid = x
      · cases hcmd : data.cmd with
        | kJudgeConflit => exact absurd hcmd hjudge
        | kTranSuccess => exact absurd hcmd hsucc
        | kTranFail => exact absurd hcmd hfail
        | _ => simp [inputOf, hx, hcmd, Input.works]
      · simp [inputOf, hx, Input.works]
  | _ => rfl

/-- A decision and a result are taken over from the net. -/
theorem owed_messageStep {conn : C} {msg : RootMsg} {d d' : DbService C W} (hwf : WellFormed d)
    (hstep : MessageStep conn msg d d') (hlive : d'.crashed = false) (x : Int) :
    owed x d + (inputOf x msg).works ≤ owed x d' := by
  have hJ := awaiting_messageStep hwf hstep hlive x
  have hquiet : solving x d + (inputOf x msg).works ≤ solving x d' →
      results x d.out ≤ results x d'.out → owed x d + (inputOf x msg).works ≤ owed x d' := by
    intro hS hR
    unfold owed
    omega
  have hes : ∀ data, msg = .dbServiceMsg data → (inputOf x msg).works = 0 := by
    intro data hmsg
    rw [hmsg, works_eq_zero_dbServiceMsg]
  have hlsn : ∀ data, msg = .dbtmMsg data → data.cmd = kLsn → (inputOf x msg).works = 0 := by
    intro data hmsg hcmd
    by_cases hx : data.txid = x
    · simp [hmsg, inputOf, hx, hcmd, Input.works]
    · simp [hmsg, inputOf, hx, Input.works]
  cases hstep with
  | skip h h' =>
      refine hquiet ?_ (Nat.le_refl _)
      rw [works_eq_zero_of_skip x h', Nat.add_zero]
  | stuck _ hout hc => simp [hlive] at hc
  | collect data hmsg hcmd p t d₁ hopen rset wset =>
      obtain ⟨htasks, -⟩ := quiet_of_opened (x := x) hwf hopen
      obtain ⟨-, -, hout⟩ := opened_find hopen
      refine hquiet ?_ (by rw [hout])
      rw [hes data hmsg, Nat.add_zero]
      dsimp only [solving]
      rw [htasks, solving_append]
      · exact Nat.le_refl _
      · intro task htask
        split at htask
        · rw [List.mem_singleton.1 htask]
          rfl
        · simp at htask
  | commitEarly data hmsg hcmd p t hp ht hneg =>
      exact hquiet (by rw [hes data hmsg]; exact Nat.le_refl _) (Nat.le_refl _)
  | commitReady data hmsg hcmd p t hp ht hpos =>
      refine hquiet ?_ (by simp [results])
      rw [hes data hmsg]
      exact Nat.le_of_eq (solving_append x d (by simp [solves])).symm
  | lsnEarly data hmsg hcmd p t hp ht hcommit =>
      exact hquiet (by rw [hlsn data hmsg hcmd]; exact Nat.le_refl _) (Nat.le_refl _)
  | lsnReady data hmsg hcmd p t hp ht hcommit =>
      refine hquiet ?_ (by simp [results])
      rw [hlsn data hmsg hcmd]
      exact Nat.le_of_eq (solving_append x d (by simp [solves])).symm
  | decision data hmsg hcmd =>
      refine hquiet (Nat.le_of_eq ?_) (Nat.le_refl _)
      by_cases hx : data.txid = x
      · simp [solving, solves, hmsg, inputOf, hcmd, hx, Input.works]
      · simp [solving, solves, hmsg, inputOf, hx, Input.works]
  | result data hmsg hcmd s' hret =>
      have howed := retStep_owed (x := x) hret
      have hworks : (inputOf x msg).works ≤ if data.txid = x then 1 else 0 := by
        by_cases hx : data.txid = x
        · rw [if_pos hx]
          cases inputOf x msg with
          | _ => simp [Input.works]
        · simp [hmsg, inputOf, hx, Input.works]
      omega

theorem asking_append_le (x : Int) (d : DbService C W) (tasks : List Task) :
    asking x d ≤ (d.tasks ++ tasks).countP (asks x) := by
  rw [List.countP_append, asking]
  exact Nat.le_add_right _ _

theorem lsns_dbServiceMsg (x : Int) (data : DbServiceMsg) :
    (inputOf x (.dbServiceMsg data)).lsns = 0 := by
  by_cases hc : data.cmd = kCommit ∧ data.txid = x
  · simp [inputOf, hc, Input.lsns]
  · simp [inputOf, hc, Input.lsns]

theorem lsns_dbtmMsg {x : Int} {data : DbtmMsg} (h : data.cmd ≠ kLsn ∨ data.txid ≠ x) :
    (inputOf x (.dbtmMsg data)).lsns = 0 := by
  by_cases hx : data.txid = x
  · have hne : data.cmd ≠ kLsn := h.resolve_right (not_not_intro hx)
    cases hcmd : data.cmd with
    | kLsn => exact absurd hcmd hne
    | _ => simp [inputOf, hx, hcmd, Input.lsns]
  · simp [inputOf, hx, Input.lsns]

theorem Committed.collect {x y : Int} {p : Nat} {u : Transaction} {d d₁ : DbService C W}
    (h : Committed x d) (hwf : WellFormed d) (hopen : Opened y d p u d₁)
    (rset wset : List Data) :
    Committed x { d₁ with heap := Function.update d₁.heap p (some (u.collect rset wset)) } := by
  obtain ⟨t, hcur, hcommitted⟩ := h
  cases hopen with
  | old p u hp hu =>
      by_cases hx : y = x
      · subst hx
        obtain rfl : u = t := Option.some.inj ((current_eq hp hu).symm.trans hcur)
        exact ⟨_, current_store hp _, hcommitted⟩
      · exact ⟨t, (current_update hwf hp hx _).trans hcur, hcommitted⟩
  | new hnone =>
      have hx : y ≠ x := by
        rintro rfl
        simp [current, PtrMap.find, hnone] at hcur
      obtain ⟨q, hq, hheap⟩ := Option.bind_eq_some_iff.1 hcur
      have hlt := (hwf.held x q hq).1
      have hne : q ≠ d.next := by omega
      refine ⟨t, ?_, hcommitted⟩
      simp [current, PtrMap.find_insert_of_ne _ _ (Ne.symm hx), hq, hne, hheap]

/-- A transaction that waits for its lsn goes on waiting, and the reply with the lsn queues its
validation. -/
theorem committed_messageStep {x : Int} {conn : C} {msg : RootMsg} {d d' : DbService C W}
    (hwf : WellFormed d) (hstep : MessageStep conn msg d d') (hlive : d'.crashed = false)
    (h : Committed x d) :
    (inputOf x msg).lsns = 0 ∧ Committed x d' ∧ asking x d ≤ asking x d' ∨
      0 < awaiting x d' := by
  have ⟨t, hcur, hcommitted⟩ := h
  have hsame : current x d' = current x d → Committed x d' := by
    intro heq
    exact ⟨t, heq.trans hcur, hcommitted⟩
  -- the object that the map holds for `x` is the transaction `t`
  have hobj : ∀ y p u, d.txidTrans.find y = some p → d.heap p = some u → y = x → u = t := by
    rintro y p u hp hu rfl
    exact Option.some.inj ((current_eq hp hu).symm.trans hcur)
  cases hstep with
  | skip h h' =>
      refine Or.inl ⟨?_, hsame rfl, Nat.le_refl _⟩
      cases msg with
      | dbServiceMsg data => exact lsns_dbServiceMsg x data
      | dbtmMsg data => exact lsns_dbtmMsg (Or.inl (h' data rfl).2.1)
      | _ => rfl
  | stuck _ hout hc => simp [hlive] at hc
  | collect data hmsg hcmd p u d₁ hopen rset wset =>
      refine Or.inl ⟨by rw [hmsg, lsns_dbServiceMsg], h.collect hwf hopen rset wset, ?_⟩
      obtain ⟨htasks, -⟩ := quiet_of_opened (x := x) hwf hopen
      dsimp only [asking]
      rw [htasks]
      exact asking_append_le x d _
  | commitEarly data hmsg hcmd p u hp hu hneg =>
      refine Or.inl ⟨by rw [hmsg, lsns_dbServiceMsg], ?_, Nat.le_refl _⟩
      by_cases hx : data.txid = x
      · obtain rfl := hobj _ p u hp hu hx
        subst hx
        exact ⟨_, current_store hp _, rfl⟩
      · exact hsame (current_update hwf hp hx _)
  | commitReady data hmsg hcmd p u hp hu hpos =>
      by_cases hx : data.txid = x
      · have htxid := (hwf.txid_eq hp hu).trans hx
        exact Or.inr (awaiting_pos (by simp) (Function.update_self _ _ _) htxid)
      · exact Or.inl ⟨by rw [hmsg, lsns_dbServiceMsg], hsame (current_update hwf hp hx _),
          asking_append_le x d _⟩
  | lsnEarly data hmsg hcmd p u hp hu hcommit =>
      have hx : data.txid ≠ x := by
        intro hx
        rw [hobj _ p u hp hu hx, hcommitted] at hcommit
        exact absurd hcommit (by simp)
      exact Or.inl ⟨by rw [hmsg, lsns_dbtmMsg (Or.inr hx)], hsame (current_update hwf hp hx _),
        Nat.le_refl _⟩
  | lsnReady data hmsg hcmd p u hp hu hcommit =>
      by_cases hx : data.txid = x
      · have htxid := (hwf.txid_eq hp hu).trans hx
        exact Or.inr (awaiting_pos (by simp) (Function.update_self _ _ _) htxid)
      · exact Or.inl ⟨by rw [hmsg, lsns_dbtmMsg (Or.inr hx)], hsame (current_update hwf hp hx _),
          asking_append_le x d _⟩
  | decision data hmsg hcmd =>
      exact Or.inl ⟨by rw [hmsg, lsns_dbtmMsg (Or.inl (by simp [hcmd]))], hsame rfl,
        asking_append_le x d _⟩
  | result data hmsg hcmd s' hret =>
      obtain ⟨htasks, hcur', -⟩ := retStep_moves (x := x) hwf hret
      refine Or.inl ⟨?_, hsame hcur', htasks.asking.ge⟩
      rw [hmsg, lsns_dbtmMsg (Or.inl ?_)]
      rcases hcmd with hcmd | hcmd
      · simp [hcmd]
      · simp [hcmd]

/-- A commit that is handled: the transaction waits for its lsn, or its validation is queued. -/
theorem committed_of_commit {conn : C} {data : DbServiceMsg} {d d' : DbService C W}
    (hwf : WellFormed d) (hcmd : data.cmd = kCommit)
    (hstep : MessageStep conn (.dbServiceMsg data) d d') (hlive : d'.crashed = false) :
    Committed data.txid d' ∧ asking data.txid d ≤ asking data.txid d' ∨
      0 < awaiting data.txid d' := by
  cases hstep with
  | skip h h' => exact absurd hcmd (h data rfl).2
  | stuck _ hout hc => simp [hlive] at hc
  | collect data' hmsg hcmd' p t d₁ hopen rset wset =>
      obtain rfl := RootMsg.dbServiceMsg.inj hmsg
      rw [hcmd] at hcmd'
      exact absurd hcmd' (by simp)
  | commitEarly data' hmsg hcmd' p t hp ht hneg =>
      obtain rfl := RootMsg.dbServiceMsg.inj hmsg
      exact Or.inl ⟨⟨_, current_store hp _, rfl⟩, Nat.le_refl _⟩
  | commitReady data' hmsg hcmd' p t hp ht hpos =>
      obtain rfl := RootMsg.dbServiceMsg.inj hmsg
      have htxid := hwf.txid_eq hp ht
      exact Or.inr (awaiting_pos (by simp) (Function.update_self _ _ _) htxid)
  | lsnEarly data' hmsg => simp at hmsg
  | lsnReady data' hmsg => simp at hmsg
  | decision data' hmsg => simp at hmsg
  | result data' hmsg => simp at hmsg

/-! ### Tasks -/

/-- A task is taken. -/
theorem awaiting_eraseIdx {x : Int} {d d' : DbService C W} {i : Nat} {task : Task}
    (htask : d.tasks[i]? = some task) (htasks : d'.tasks = d.tasks.eraseIdx i)
    (hheap : ∀ q, d'.heap q = d.heap q ∨ d'.heap q = none) :
    awaiting x d ≤ awaiting x d' + if mayJudge x d.heap task then 1 else 0 := by
  have hcount := Bag.countP_eraseIdx (mayJudge x d.heap) htask
  have hmono : (d.tasks.eraseIdx i).countP (mayJudge x d.heap) ≤ awaiting x d' := by
    rw [awaiting, htasks]
    exact List.countP_mono_left fun task _ => mayJudge_free hheap x task
  rw [awaiting, hcount]
  exact Nat.add_le_add_right hmono _

theorem solving_eraseIdx {x : Int} {d d' : DbService C W} {i : Nat} {task : Task}
    (htask : d.tasks[i]? = some task) (htasks : d'.tasks = d.tasks.eraseIdx i) :
    solving x d = solving x d' + if solves x task then 1 else 0 := by
  rw [solving, solving, htasks]
  exact Bag.countP_eraseIdx (solves x) htask

/-- A validation after which the process is alive has answered: with a result, a vote or a
log. -/
theorem judgeStep_answers {ops : Wcheck W} {p : Nat} {t : Transaction} {d d' : DbService C W}
    (hstep : JudgeStep ops p t d d') (hlive : d'.crashed = false) (x : Int) :
    ∃ es, d'.out = d.out ++ es ∧
      (if t.txid = x then 1 else 0) ≤ results x es + handedOn x es := by
  cases hstep with
  | stuck => simp at hlive
  | cacheStuck => simp at hlive
  | failLost => simp at hlive
  | vote w ks hc hg =>
      exact ⟨_, rfl, Nat.le_add_left_of_le (handedOn_sendGtm (C := C) x _ _).ge⟩
  | cache w w' ks hc hg hw =>
      exact ⟨_, rfl, Nat.le_add_left_of_le (handedOn_sendDbtl (C := C) x _ _).ge⟩
  | fail w ks conn heap c vote hc hconn hheap hvote =>
      refine ⟨_, rfl, Nat.le_add_right_of_le ?_⟩
      have hres := results_retResult x t.txid kTranFail
        (.sendEs conn (createESMsg kTranFail t.txid) :: vote)
      exact Nat.le_trans (Nat.le_add_right _ _) hres.ge

/-- So has a decision. -/
theorem solveStep_answers {ops : Wcheck W} {data : DbtmMsg} {d d' : DbService C W}
    (hwf : WellFormed d) (hstep : SolveStep ops data d d') (hlive : d'.crashed = false)
    (x : Int) :
    ∃ es, d'.out = d.out ++ es ∧
      (if data.txid = x then 1 else 0) ≤ results x es + handedOn x es := by
  cases hstep with
  | missing => simp at hlive
  | dangling => simp at hlive
  | cacheStuck => simp at hlive
  | cache p t w tail hp ht hd hw htail =>
      have hname := hwf.named data.txid p t hp ht
      have hhand := handedOn_sendDbtl (C := C) x t.txid (some (encodeSet t.writeSet))
      rw [hname] at hhand
      refine ⟨_, rfl, Nat.le_add_left_of_le ?_⟩
      rw [hname]
      rcases htail with ⟨rfl, -⟩ | rfl
      · exact hhand.ge
      · exact hhand.ge
  | fail s' hd hret =>
      have hret' : ∃ es, d'.out = d.out ++ es ∧
          results x es = if data.txid = x then 1 else 0 := by
        cases hret with
        | lost =>
            refine ⟨_, List.append_assoc _ _ _, ?_⟩
            simp [results, List.countP_cons]
        | sent conn heap c hconn hheap =>
            refine ⟨_, List.append_assoc _ _ _, ?_⟩
            simp [results, List.countP_cons]
      obtain ⟨es, hout, hres⟩ := hret'
      exact ⟨es, hout, Nat.le_add_right_of_le hres.ge⟩

/-- A task answers for what it takes. -/
theorem owed_taskStep {ops : Wcheck W} {i : Nat} {d d' : DbService C W} (hwf : WellFormed d)
    (hstep : TaskStep ops i d d') (hlive : d'.crashed = false) (x : Int) :
    ∃ es, d'.out = d.out ++ es ∧ owed x d ≤ owed x d' + handedOn x es := by
  have hwf' : WellFormed { d with tasks := d.tasks.eraseIdx i } :=
    hwf.keep (fun _ hq => List.mem_of_mem_eraseIdx hq) _ _ _ _
  have hquiet : ∀ {task : Task} {d' : DbService C W}, d.tasks[i]? = some task →
      d'.tasks = d.tasks.eraseIdx i → (∀ q, d'.heap q = d.heap q ∨ d'.heap q = none) →
        mayJudge x d.heap task = false → solves x task = false →
          results x d.out ≤ results x d'.out → owed x d ≤ owed x d' := by
    intro task d' htask htasks hheap hjudge hsolve hR
    have hJ := awaiting_eraseIdx (x := x) htask htasks hheap
    have hS := solving_eraseIdx (x := x) htask htasks
    rw [hjudge] at hJ
    rw [hsolve] at hS
    simp only [Bool.false_eq_true, if_false] at hJ hS
    unfold owed
    omega
  cases hstep with
  | none => exact ⟨[], by simp, Nat.le_refl _⟩
  | getLsn txid htask =>
      refine ⟨_, rfl, Nat.le_add_right_of_le ?_⟩
      refine hquiet htask rfl (fun _ => Or.inl rfl) rfl rfl ?_
      simp [results]
  | dangling p htask hp => simp at hlive
  | judge p t htask ht s' hjudge =>
      obtain ⟨hheap, htasks, -⟩ := judgeStep_told (x := x) hwf' hjudge
      obtain ⟨es, hout, hanswer⟩ := judgeStep_answers hjudge hlive x
      have hJ := awaiting_eraseIdx (x := x) htask htasks hheap
      have hS := solving_eraseIdx (x := x) htask htasks
      have hR : results x d'.out = results x d.out + results x es := by
        rw [hout]
        exact results_append x _ _
      simp only [mayJudge, ht, Option.all_some, decide_eq_true_eq, solves,
        Bool.false_eq_true, if_false] at hJ hS
      refine ⟨es, hout, ?_⟩
      unfold owed
      omega
  | ignore data htask hcmd =>
      refine ⟨[], by simp, Nat.le_add_right_of_le ?_⟩
      exact hquiet htask rfl (fun _ => Or.inl rfl) rfl (by simp [solves, hcmd]) (Nat.le_refl _)
  | solve data htask hcmd s' hsolve =>
      obtain ⟨hheap, htasks, -⟩ := solveStep_told (x := x) hwf' hsolve
      obtain ⟨es, hout, hanswer⟩ := solveStep_answers hwf' hsolve hlive x
      have hJ := awaiting_eraseIdx (x := x) htask htasks hheap
      have hS := solving_eraseIdx (x := x) htask htasks
      have hR : results x d'.out = results x d.out + results x es := by
        rw [hout]
        exact results_append x _ _
      simp only [mayJudge, solves, hcmd, true_and, Bool.false_eq_true, if_false,
        decide_eq_true_eq] at hJ hS
      refine ⟨es, hout, ?_⟩
      unfold owed
      omega

/-- A transaction that waits for its lsn is left alone, unless its validation is queued
already. -/
theorem committed_taskStep {ops : Wcheck W} {x : Int} {i : Nat} {d d' : DbService C W}
    (hwf : WellFormed d) (hstep : TaskStep ops i d d') (hlive : d'.crashed = false)
    (h : Committed x d) :
    (∃ es, d'.out = d.out ++ es ∧ Committed x d' ∧
      asking x d ≤ asking x d' + requests x es) ∨ 0 < awaiting x d := by
  obtain ⟨t, hcur, hcommitted⟩ := h
  have hwf' : WellFormed { d with tasks := d.tasks.eraseIdx i } :=
    hwf.keep (fun _ hq => List.mem_of_mem_eraseIdx hq) _ _ _ _
  have hsame : current x d' = current x d → Committed x d' := by
    intro heq
    exact ⟨t, heq.trans hcur, hcommitted⟩
  have hasking : ∀ {task : Task}, d.tasks[i]? = some task → d'.tasks = d.tasks.eraseIdx i →
      asking x d = asking x d' + if asks x task then 1 else 0 := by
    intro task htask htasks
    rw [asking, asking, htasks]
    exact Bag.countP_eraseIdx (asks x) htask
  cases hstep with
  | none => exact Or.inl ⟨[], by simp, hsame rfl, Nat.le_add_right _ _⟩
  | getLsn txid htask =>
      refine Or.inl ⟨_, rfl, hsame rfl, ?_⟩
      rw [hasking htask rfl]
      by_cases hx : txid = x
      · simp [asks, requests, createDbtlMsg, hx]
      · simp [asks, hx]
  | dangling p htask hp => simp at hlive
  | judge p u htask hu s' hjudge =>
      obtain ⟨-, htasks, hmoved, -⟩ := judgeStep_told (x := x) hwf' hjudge
      obtain ⟨es, hout, -⟩ := judgeStep_answers hjudge hlive x
      rcases hmoved with hmoved | ⟨hx, -⟩
      · exact Or.inl ⟨es, hout, hsame hmoved, Nat.le_add_right_of_le (hasking htask htasks).le⟩
      · exact Or.inr (awaiting_pos (List.mem_of_getElem? htask) hu hx)
  | ignore data htask hcmd =>
      exact Or.inl ⟨[], by simp, hsame rfl, Nat.le_add_right_of_le (hasking htask rfl).le⟩
  | solve data htask hcmd s' hsolve =>
      obtain ⟨-, htasks, hmoved, -⟩ := solveStep_told (x := x) hwf' hsolve
      obtain ⟨es, hout, -⟩ := solveStep_answers hwf' hsolve hlive x
      exact Or.inl ⟨es, hout, hsame hmoved, Nat.le_add_right_of_le (hasking htask htasks).le⟩

/-! ### Votes -/

theorem localFail_votes {p : Nat} {t : Transaction} {d : DbService C W}
    (ht : d.heap p = some t) (hg : t.needGlobalConflct = true)
    (hlive : (d.localFail p t).crashed = false) :
    .sendGtm (createGtmMsg kJudgeConflit t.txid true) ∈ (d.localFail p t).out := by
  unfold localFail at hlive ⊢
  have hret := retResult_step kTranFail t.txid d
  generalize d.retResult kTranFail t.txid = d' at hret hlive ⊢
  cases hret with
  | lost hconn => simp [andThen] at hlive
  | sent conn heap c hconn hheap =>
      cases c with
      | true => simp [andThen] at hlive
      | false =>
          simp only [andThen, Bool.false_eq_true, if_false] at hlive ⊢
          rcases hheap p with hp | ⟨-, hp⟩
          · rw [hp, ht]
            simp [hg, emit]
          · simp [hp, crash] at hlive

/-- A global transaction is voted on, if the process is alive after its validation. -/
theorem judgeLocalConflict_votes {ops : Wcheck W} {p : Nat} {t : Transaction}
    {d : DbService C W} (ht : d.heap p = some t) (hg : t.needGlobalConflct = true)
    (hlive : (d.judgeLocalConflict ops p).crashed = false) :
    ∃ b, .sendGtm (createGtmMsg kJudgeConflit t.txid b) ∈ (d.judgeLocalConflict ops p).out := by
  unfold judgeLocalConflict at hlive ⊢
  rw [ht] at hlive ⊢
  dsimp only at hlive ⊢
  cases hcheck : localCheck ops t (d.writeToDiskAndSql t).wcheck with
  | none => simp [hcheck, crash] at hlive
  | some r =>
      rw [hcheck] at hlive
      dsimp only at hlive ⊢
      cases hr : r.2.2 with
      | true =>
          simp only [hr, if_true] at hlive ⊢
          exact ⟨true, localFail_votes ht hg hlive⟩
      | false =>
          refine ⟨false, ?_⟩
          simp [localPass, hg, judgeGlobalConflict, emit]

/-- Transaction `x` has been voted on, or its validation is queued. -/
def Voting (x : Int) (d : DbService C W) : Prop := 0 < (ballots x d.out).length + awaiting x d

theorem ballots_pos {x : Int} {out : List (Event C)} {b : Bool}
    (h : .sendGtm (createGtmMsg kJudgeConflit x b) ∈ out) : 0 < (ballots x out).length :=
  List.length_pos_of_mem
    (List.mem_filterMap.2 ⟨_, h, by simp [createGtmMsg]⟩ : b ∈ ballots x out)

theorem Voting.message {x : Int} {conn : C} {msg : RootMsg} {d d' : DbService C W}
    (h : Voting x d) (hwf : WellFormed d) (hstep : MessageStep conn msg d d')
    (hlive : d'.crashed = false) : Voting x d' := by
  have hJ := awaiting_messageStep hwf hstep hlive x
  obtain ⟨es, hout⟩ := hstep.out_extends
  have hB : (ballots x d.out).length ≤ (ballots x d'.out).length := by
    rw [← hout, ballots_append, List.length_append]
    exact Nat.le_add_right _ _
  unfold Voting at h ⊢
  omega

/-- A validation after which the process is alive has recorded its answer. -/
theorem judgeStep_judged {ops : Wcheck W} {p : Nat} {t : Transaction} {d d' : DbService C W}
    (hstep : JudgeStep ops p t d d') (hlive : d'.crashed = false) :
    ∃ ks c, .judged t ks c ∈ d'.out := by
  cases hstep with
  | stuck => simp at hlive
  | cacheStuck => simp at hlive
  | failLost => simp at hlive
  | vote w ks hc hg => exact ⟨ks, false, by simp⟩
  | cache w w' ks hc hg hw => exact ⟨ks, false, by simp⟩
  | fail w ks conn heap c vote hc hconn hheap hvote => exact ⟨ks, true, by simp⟩

/-- A validation that is queued leads to a vote, provided that it is one of a global
transaction. -/
theorem Voting.runTask {ops : Wcheck W} {x : Int} {i : Nat} {d : DbService C W}
    (h : Voting x d) (hwf : WellFormed d) (hlive : (d.runTask ops i).crashed = false)
    (hglobal : AllGlobal x (d.runTask ops i).out) : Voting x (d.runTask ops i) := by
  have hstep := runTask_step ops i d
  have hwf' : WellFormed { d with tasks := d.tasks.eraseIdx i } :=
    hwf.keep (fun _ hq => List.mem_of_mem_eraseIdx hq) _ _ _ _
  obtain ⟨es, hout⟩ := hstep.out_extends
  have hB : (ballots x d.out).length ≤ (ballots x (d.runTask ops i).out).length := by
    rw [← hout, ballots_append, List.length_append]
    exact Nat.le_add_right _ _
  have hkeep : awaiting x d ≤ awaiting x (d.runTask ops i) → Voting x (d.runTask ops i) := by
    intro hJ
    unfold Voting at h ⊢
    omega
  have htaken : ∀ {task : Task} {d' : DbService C W}, d.tasks[i]? = some task →
      d'.tasks = d.tasks.eraseIdx i → (∀ q, d'.heap q = d.heap q ∨ d'.heap q = none) →
        mayJudge x d.heap task = false → awaiting x d ≤ awaiting x d' := by
    intro task d' htask htasks hheap hjudge
    have hJ := awaiting_eraseIdx (x := x) htask htasks hheap
    rwa [hjudge] at hJ
  -- only the validation of `x` itself takes something away, and it votes
  have hvote : ∀ p t, d.tasks[i]? = some (.judgeLocalConflict p) → d.heap p = some t →
      JudgeStep ops p t { d with tasks := d.tasks.eraseIdx i } (d.runTask ops i) →
        t.txid = x → Voting x (d.runTask ops i) := by
    intro p t htask ht hjudge hx
    obtain ⟨ks, c, hmem⟩ := judgeStep_judged hjudge hlive
    have hg := hglobal t ks c hmem hx
    have heq : d.runTask ops i =
        { d with tasks := d.tasks.eraseIdx i }.judgeLocalConflict ops p := by
      rw [DbService.runTask, htask]
      rfl
    rw [heq] at hlive ⊢
    obtain ⟨b, hb⟩ := judgeLocalConflict_votes (d := { d with tasks := d.tasks.eraseIdx i })
      ht hg hlive
    rw [hx] at hb
    exact Nat.lt_add_right _ (ballots_pos hb)
  generalize d.runTask ops i = d' at *
  cases hstep with
  | none => exact hkeep (Nat.le_refl _)
  | getLsn txid htask => exact hkeep (htaken htask rfl (fun _ => Or.inl rfl) rfl)
  | dangling p htask hp => simp at hlive
  | judge p t htask ht s' hjudge =>
      by_cases hx : t.txid = x
      · exact hvote p t htask ht hjudge hx
      · obtain ⟨hheap, htasks, -⟩ := judgeStep_told (x := x) hwf' hjudge
        exact hkeep (htaken htask htasks hheap (by simp [mayJudge, ht, hx]))
  | ignore data htask hcmd => exact hkeep (htaken htask rfl (fun _ => Or.inl rfl) rfl)
  | solve data htask hcmd s' hsolve =>
      obtain ⟨hheap, htasks, -⟩ := solveStep_told (x := x) hwf' hsolve
      exact hkeep (htaken htask htasks hheap rfl)

end DbService

end Grit
