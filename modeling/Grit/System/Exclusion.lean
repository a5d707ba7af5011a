import Grit.DbService.Conflict
import Grit.System.Outcome

/-!
# The window of the local check never moves

The lsn that a DBTL hands out does not arrive in the reply, so that every transaction is
validated and cached with the lsn 0. No entry of the table is ever older than a validation:
nothing is purged, and a key that was written once is taken for good.
-/

namespace Grit

open Cmd DbService

namespace DbService

variable {C W : Type*}

/-- Every object has the lsn 0. -/
def AtZero (d : DbService C W) : Prop := ∀ q t, d.heap q = some t → t.lsn = 0

theorem AtZero.freed {d : DbService C W} (h : AtZero d) {heap : Nat → Option Transaction}
    {P : Nat → Prop} (hheap : ∀ q, heap q = d.heap q ∨ P q ∧ heap q = none) (q : Nat)
    (t : Transaction) (ht : heap q = some t) : t.lsn = 0 := by
  rcases hheap q with hsame | ⟨-, hnone⟩
  · exact h q t (hsame.symm.trans ht)
  · simp [hnone] at ht

theorem AtZero.update {d : DbService C W} (h : AtZero d) {q : Nat} {u : Transaction}
    (hu : u.lsn = 0) (q' : Nat) (t : Transaction)
    (ht : Function.update d.heap q (some u) q' = some t) : t.lsn = 0 := by
  by_cases hq : q' = q
  · subst hq
    rw [Function.update_self, Option.some.injEq] at ht
    rw [← ht, hu]
  · rw [Function.update_of_ne hq] at ht
    exact h q' t ht

theorem AtZero.retStep {status : Cmd} {y : Int} {d d' : DbService C W} (h : AtZero d)
    (hstep : RetStep status y d d') : AtZero d' := by
  cases hstep with
  | lost => exact h
  | sent conn heap c hconn hheap => exact h.freed hheap

/-- The objects stay at 0 if each lsn that arrives is 0. -/
theorem AtZero.messageStep {conn : C} {msg : RootMsg} {d d' : DbService C W} (h : AtZero d)
    (hlsn : ∀ m, msg = .dbtmMsg m → m.cmd = kLsn → m.lsn = 0)
    (hstep : MessageStep conn msg d d') (hlive : d'.crashed = false) : AtZero d' := by
  cases hstep with
  | skip => exact h
  | stuck _ hout hc => simp [hc] at hlive
  | collect data hmsg hcmd p t d₁ hopen rset wset =>
      cases hopen with
      | old p t hp ht =>
          refine h.update ?_
          simp [Transaction.collect, h p t ht]
      | new hnone =>
          intro q u hu
          dsimp only at hu
          rw [Function.update_idem] at hu
          exact h.update (by simp [Transaction.collect, Transaction.init]) q u hu
  | commitEarly data hmsg hcmd p t hp ht hle => exact h.update (by exact h p t ht)
  | commitReady data hmsg hcmd p t hp ht hlt => exact h.update (by exact h p t ht)
  | lsnEarly data hmsg hcmd p t hp ht hcommit => exact h.update (by exact hlsn data hmsg hcmd)
  | lsnReady data hmsg hcmd p t hp ht hcommit => exact h.update (by exact hlsn data hmsg hcmd)
  | decision data hmsg hcmd => exact h
  | result data hmsg hcmd d' hret => exact h.retStep hret

theorem AtZero.taskStep {ops : Wcheck W} {i : Nat} {d d' : DbService C W} (h : AtZero d)
    (hstep : TaskStep ops i d d') : AtZero d' := by
  cases hstep with
  | none => exact h
  | getLsn => exact h
  | dangling => exact h
  | judge p t htask ht d' hjudge =>
      cases hjudge with
      | fail w ks conn heap c vote hcheck hconn hheap => exact h.freed hheap
      | _ => exact h
  | ignore => exact h
  | solve data htask hcmd d' hsolve =>
      cases hsolve with
      | fail d' hd hret =>
          refine AtZero.retStep ?_ hret
          exact h
      | _ => exact h

/-! ### The table -/

/-- A transaction that wrote `k` has been cached. -/
def Written (k : String) (out : List (Event C)) : Prop :=
  ∃ u, .cacheRWSet u ∈ out ∧ k ∈ u.writeKeys

theorem written_append (k : String) (out es : List (Event C)) :
    Written k (out ++ es) ↔ Written k out ∨ Written k es := by
  simp only [Written, List.mem_append, or_and_right, exists_or]

/-- Every object has the lsn 0, and the table holds the keys that were written. -/
structure Exclusive (d : DbService C (List Info)) : Prop where
  atZero : AtZero d
  table : ∀ i, i ∈ d.wcheck ↔ i.lsn = 0 ∧ Written i.key d.out

/-- Steps that leave the table and cache nothing. -/
theorem Exclusive.keep {d d' : DbService C (List Info)} (h : Exclusive d) (hzero : AtZero d')
    (hw : ∀ i, i ∈ d'.wcheck ↔ i ∈ d.wcheck) {es : List (Event C)} (hout : d'.out = d.out ++ es)
    (hes : ∀ u, .cacheRWSet u ∉ es) : Exclusive d' := by
  refine ⟨hzero, ?_⟩
  intro i
  have hnone : ¬ Written i.key es := by
    rintro ⟨u, hu, -⟩
    exact hes u hu
  rw [hw, h.table, hout, written_append, or_iff_left hnone]

/-- Steps that cache one transaction. -/
theorem Exclusive.cached {d d' : DbService C (List Info)} (h : Exclusive d) (hzero : AtZero d')
    {t : Transaction} (ht : t.lsn = 0)
    (hw : ∀ i, i ∈ d'.wcheck ↔ i ∈ d.wcheck ∨ i.key ∈ t.writeKeys ∧ i.lsn = t.lsn)
    {es : List (Event C)} (hout : d'.out = d.out ++ es)
    (hes : ∀ u, .cacheRWSet u ∈ es ↔ u = t) : Exclusive d' := by
  refine ⟨hzero, ?_⟩
  intro i
  have hone : Written i.key es ↔ i.key ∈ t.writeKeys := by
    simp [Written, hes]
  rw [hw, h.table, hout, written_append, hone, ht]
  tauto

/-- A check with lsn 0 purges nothing, and it finds a conflict exactly when one of its keys has
been written. -/
theorem Exclusive.localCheck {d : DbService C (List Info)} (h : Exclusive d) {t : Transaction}
    (ht : t.lsn = 0) {w : List Info} {ks : List String} {c : Bool}
    (hcheck : localCheck Wcheck.contract t d.wcheck = some (w, ks, c)) :
    (∀ i, i ∈ w ↔ i ∈ d.wcheck) ∧ (c = true ↔ ∃ k ∈ t.keys, Written k d.out) := by
  obtain ⟨r, hr, hspec⟩ := localCheck_contract t d.wcheck
  rw [hcheck] at hr
  obtain rfl := Option.some.inj hr
  constructor
  · intro i
    rw [hspec.mem]
    refine and_iff_left_of_imp fun hi _ => ?_
    rw [ht, ((h.table i).1 hi).1]
  · rw [hspec.conflict, ht]
    constructor
    · rintro ⟨i, hi, hk, -⟩
      exact ⟨i.key, hk, ((h.table i).1 hi).2⟩
    · rintro ⟨k, hk, hwritten⟩
      exact ⟨⟨k, 0⟩, (h.table ⟨k, 0⟩).2 ⟨rfl, hwritten⟩, hk, Int.le_refl 0⟩

/-- A validation whose check returns reports a failure if there is a conflict, and caches the
transaction or votes for it if there is none. -/
theorem JudgeStep.answer {ops : Wcheck W} {p : Nat} {t : Transaction} {d d' : DbService C W}
    (hstep : JudgeStep ops p t d d') {w : W} {ks : List String} {c : Bool}
    (hcheck : localCheck ops t d.wcheck = some (w, ks, c)) :
    ∃ es, d'.out = d.out ++ es ∧ (.retResult kTranFail t.txid ∈ es ↔ c = true) ∧
      (.cacheRWSet t ∈ es ∨ .sendGtm (createGtmMsg kJudgeConflit t.txid) ∈ es ↔ c = false) := by
  cases hstep with
  | stuck h => simp [hcheck] at h
  | vote w ks h hg =>
      obtain ⟨rfl, rfl, rfl⟩ := by simpa [hcheck] using h
      exact ⟨_, rfl, by simp [prologue], by simp⟩
  | cacheStuck w ks h hg hw =>
      obtain ⟨rfl, rfl, rfl⟩ := by simpa [hcheck] using h
      exact ⟨_, rfl, by simp [prologue], by simp⟩
  | cache w w' ks h hg hw =>
      obtain ⟨rfl, rfl, rfl⟩ := by simpa [hcheck] using h
      exact ⟨_, rfl, by simp [prologue], by simp⟩
  | failLost w ks h hconn =>
      obtain ⟨rfl, rfl, rfl⟩ := by simpa [hcheck] using h
      exact ⟨_, rfl, by simp, by simp [prologue]⟩
  | fail w ks conn heap c vote h hconn hheap hvote =>
      obtain ⟨rfl, rfl, rfl⟩ := by simpa [hcheck] using h
      refine ⟨_, rfl, by simp, ?_⟩
      rcases hvote with rfl | ⟨-, rfl⟩
      · simp [prologue]
      · simp [prologue, createGtmMsg]

theorem Exclusive.judgeStep {p : Nat} {t : Transaction} {d d' : DbService C (List Info)}
    (h : Exclusive d) (ht : t.lsn = 0) (hzero : AtZero d')
    (hstep : JudgeStep Wcheck.contract p t d d') : Exclusive d' := by
  cases hstep with
  | stuck hcheck => exact h.keep hzero (fun i => Iff.rfl) rfl (by simp [prologue])
  | vote w ks hcheck hg =>
      exact h.keep hzero (h.localCheck ht hcheck).1 rfl (by simp [prologue])
  | cacheStuck w ks hcheck hg hw => simp [insertAll_contract] at hw
  | cache w w' ks hcheck hg hw =>
      refine h.cached hzero ht ?_ rfl (by simp [prologue])
      intro i
      rw [mem_insertAll t w w' hw, (h.localCheck ht hcheck).1]
  | failLost w ks hcheck hconn =>
      exact h.keep hzero (h.localCheck ht hcheck).1 rfl (by simp [prologue])
  | fail w ks conn heap c vote hcheck hconn hheap hvote =>
      refine h.keep hzero (h.localCheck ht hcheck).1 rfl ?_
      rcases hvote with rfl | ⟨-, rfl⟩
      · simp [prologue]
      · simp [prologue]

theorem Exclusive.retStep {status : Cmd} {y : Int} {d d' : DbService C (List Info)}
    (h : Exclusive d) (hstep : RetStep status y d d') : Exclusive d' := by
  have hzero := h.atZero.retStep hstep
  cases hstep with
  | lost => exact h.keep hzero (fun i => Iff.rfl) rfl (by simp)
  | sent => exact h.keep hzero (fun i => Iff.rfl) rfl (by simp)

theorem Exclusive.solveStep {data : DbtmMsg} {d d' : DbService C (List Info)}
    (h : Exclusive d) (hzero : AtZero d') (hstep : SolveStep Wcheck.contract data d d') :
    Exclusive d' := by
  cases hstep with
  | missing => exact h.keep hzero (fun i => Iff.rfl) (List.append_nil _).symm (by simp)
  | dangling => exact h.keep hzero (fun i => Iff.rfl) (List.append_nil _).symm (by simp)
  | cacheStuck p t hp ht hd hw => simp [insertAll_contract] at hw
  | cache p t w tail hp ht hd hw htail =>
      refine h.cached hzero (h.atZero p t ht) (mem_insertAll t _ w hw) rfl ?_
      rcases htail with ⟨rfl, -⟩ | rfl
      · simp
      · simp
  | fail d' hd hret =>
      refine Exclusive.retStep ?_ hret
      exact h.keep h.atZero (fun i => Iff.rfl) rfl (by simp)

theorem Exclusive.taskStep {i : Nat} {d d' : DbService C (List Info)} (h : Exclusive d)
    (hstep : TaskStep Wcheck.contract i d d') : Exclusive d' := by
  have hzero := h.atZero.taskStep hstep
  have herase : Exclusive { d with tasks := d.tasks.eraseIdx i } := ⟨h.atZero, h.table⟩
  cases hstep with
  | none => exact h
  | getLsn => exact h.keep hzero (fun i => Iff.rfl) rfl (by simp)
  | dangling => exact ⟨hzero, h.table⟩
  | judge p t htask ht d' hjudge => exact herase.judgeStep (h.atZero p t ht) hzero hjudge
  | ignore => exact herase
  | solve data htask hcmd d' hsolve => exact herase.solveStep hzero hsolve

theorem Exclusive.messageStep {conn : C} {msg : RootMsg} {d d' : DbService C (List Info)}
    (h : Exclusive d) (hlsn : ∀ m, msg = .dbtmMsg m → m.cmd = kLsn → m.lsn = 0)
    (hstep : MessageStep conn msg d d') (hlive : d'.crashed = false) : Exclusive d' := by
  have hzero := h.atZero.messageStep hlsn hstep hlive
  cases hstep with
  | skip => exact h
  | stuck _ hout hc => simp [hc] at hlive
  | collect data hmsg hcmd p t d₁ hopen rset wset =>
      refine ⟨hzero, ?_⟩
      cases hopen with
      | old => exact h.table
      | new => exact h.table
  | commitEarly => exact ⟨hzero, h.table⟩
  | commitReady => exact h.keep hzero (fun i => Iff.rfl) rfl (by simp)
  | lsnEarly => exact ⟨hzero, h.table⟩
  | lsnReady => exact h.keep hzero (fun i => Iff.rfl) rfl (by simp)
  | decision => exact ⟨hzero, h.table⟩
  | result data hmsg hcmd d' hret => exact h.retStep hret

end DbService

namespace Sys

variable {A P C W : Type*} [DecidableEq P]

/-- A step of the system for the DbService of `p`. -/
inductive Turn (ops : Wcheck W) (p : P) (s s' : Sys A P C W) : Prop where
  | elsewhere (hdbs : s'.dbs p = s.dbs p) : Turn ops p s s'
  | message (conn : C) (msg : RootMsg) (hlive : (s.dbs p).crashed = false)
      (hlsn : ∀ m, msg = .dbtmMsg m → m.cmd = kLsn → m.lsn = 0)
      (hstep : MessageStep conn msg (s.dbs p) (s'.dbs p)) : Turn ops p s s'
  | task (i : Nat) (hlive : (s.dbs p).crashed = false)
      (hstep : TaskStep ops i (s.dbs p) (s'.dbs p)) : Turn ops p s s'

theorem turn_setDbService {ops : Wcheck W} (p q : P) {s : Sys A P C W} {d : DbService C W}
    (h : q = p → Turn ops p s (s.setDbService p d)) : Turn ops p s (s.setDbService q d) := by
  by_cases hq : q = p
  · subst hq
    exact h rfl
  · exact .elsewhere (setDbService_dbs_of_ne _ (Ne.symm hq) _)

theorem turn_of_step {ops : Wcheck W} {s s' : Sys A P C W} {a : Act A P C} (h : Linked s)
    (hstep : Step ops s a s') (p : P) : Turn ops p s s' := by
  cases hstep with
  | entityService q conn m d hlive hstep =>
      refine turn_setDbService p q fun hq => ?_
      subst hq
      refine .message conn (.dbServiceMsg m) hlive ?_ (by rwa [setDbService_dbs_self])
      intro m' hm
      simp at hm
  | dbtmMsg i conn q m hnet d hlive hstep =>
      by_cases hq : q = p
      · subst hq
        refine .message conn _ hlive ?_ (by rwa [setDbService_dbs_self])
        intro m' hm hcmd
        obtain rfl := RootMsg.dbtmMsg.inj hm
        exact h.lsn q m (List.mem_of_getElem? hnet) hcmd
      · exact .elsewhere (setDbService_dbs_of_ne _ (Ne.symm hq) _)
  | task q i d hlive hstep =>
      refine turn_setDbService p q fun hq => ?_
      subst hq
      exact .task i hlive (by rwa [setDbService_dbs_self])
  | _ => exact .elsewhere rfl

/-- The state after a run on the table of the comments, which is empty at the start. -/
def exactRun (transInfo : String → List IpAndPort) (txid : BitVec 32) (useRocksDb : P → Bool)
    (l : List (Act A P C)) : Sys A P C (List Info) :=
  run Wcheck.contract (init transInfo txid (fun _ => []) useRocksDb) l

theorem exactRun_concat (transInfo : String → List IpAndPort) (txid : BitVec 32)
    (useRocksDb : P → Bool) (l : List (Act A P C)) (a : Act A P C) :
    exactRun transInfo txid useRocksDb (l ++ [a]) =
      (exactRun transInfo txid useRocksDb l).step Wcheck.contract a := run_concat _ _ l a

/-- While the DbService of `p` is alive, its table holds the keys that were written. -/
theorem exclusive_run (transInfo : String → List IpAndPort) (txid : BitVec 32)
    (useRocksDb : P → Bool) (p : P) (l : List (Act A P C)) :
    Linked (exactRun transInfo txid useRocksDb l) ∧
      (((exactRun transInfo txid useRocksDb l).dbs p).crashed = false →
        Exclusive ((exactRun transInfo txid useRocksDb l).dbs p)) := by
  induction l using List.reverseRecOn with
  | nil =>
      refine ⟨linked_init transInfo txid (fun _ => []) useRocksDb, fun _ => ⟨?_, ?_⟩⟩
      · intro q t ht
        simp [exactRun, run, init, DbService.init] at ht
      · intro i
        simp [exactRun, run, init, DbService.init, Written]
  | append_singleton l a ih =>
      obtain ⟨hlinked, hexclusive⟩ := ih
      rw [exactRun_concat]
      have hstep := step_step Wcheck.contract (exactRun transInfo txid useRocksDb l) a
      refine ⟨(view_of_step hlinked hstep p 0).1, ?_⟩
      intro hlive
      cases turn_of_step hlinked hstep p with
      | elsewhere hdbs =>
          rw [hdbs] at hlive ⊢
          exact hexclusive hlive
      | message conn msg hlive' hlsn hmsg =>
          exact (hexclusive hlive').messageStep hlsn hmsg hlive
      | task i hlive' htask => exact (hexclusive hlive').taskStep htask

/-- What the task at position `i` of `p` does. -/
def taskEvents (ops : Wcheck W) (p : P) (i : Nat) (s : Sys A P C W) : List (Event C) :=
  ((s.step ops (.task p i)).dbs p).out.drop (s.dbs p).out.length

theorem taskEvents_of_judge (ops : Wcheck W) {p : P} {i q : Nat} {t : Transaction}
    {s : Sys A P C W} (hlive : (s.dbs p).crashed = false)
    (htask : (s.dbs p).tasks[i]? = some (.judgeLocalConflict q))
    (ht : (s.dbs p).heap q = some t) :
    ∃ d, JudgeStep ops q t { s.dbs p with tasks := (s.dbs p).tasks.eraseIdx i } d ∧
      taskEvents ops p i s = d.out.drop (s.dbs p).out.length := by
  have hact : (s.dbs p).act ops (.task i) = (s.dbs p).runTask ops i := by
    rw [DbService.act, DbService.andThen, if_neg (by simp [hlive])]
  have hdbs : (s.step ops (.task p i)).dbs p = (s.dbs p).runTask ops i := by
    dsimp only [step]
    rw [setDbService_dbs_self, hact]
  have hstep := runTask_step ops i (s.dbs p)
  rw [taskEvents, hdbs]
  generalize (s.dbs p).runTask ops i = d at hstep ⊢
  cases hstep with
  | judge q' t' htask' ht' d hjudge =>
      obtain rfl := Task.judgeLocalConflict.inj (Option.some.inj (htask.symm.trans htask'))
      obtain rfl := Option.some.inj (ht.symm.trans ht')
      exact ⟨d, hjudge, rfl⟩
  | none h => simp [htask] at h
  | getLsn x h => simp [htask] at h
  | dangling q' h hq' =>
      obtain rfl := Task.judgeLocalConflict.inj (Option.some.inj (htask.symm.trans h))
      simp [ht] at hq'
  | ignore data h => simp [htask] at h
  | solve data h => simp [htask] at h

/-- In every run, a transaction is validated with the lsn `0`, and the validation fails exactly
when one of its keys, read or written, has been written by a transaction cached before, however
long ago; otherwise the transaction is cached or voted for. -/
theorem validation_iff (transInfo : String → List IpAndPort) (txid : BitVec 32)
    (useRocksDb : P → Bool) (p : P) (l : List (Act A P C)) (i q : Nat) (t : Transaction)
    (hlive : ((exactRun transInfo txid useRocksDb l).dbs p).crashed = false)
    (htask : ((exactRun transInfo txid useRocksDb l).dbs p).tasks[i]? =
      some (.judgeLocalConflict q))
    (ht : ((exactRun transInfo txid useRocksDb l).dbs p).heap q = some t) :
    t.lsn = 0 ∧ (.retResult kTranFail t.txid ∈
        taskEvents Wcheck.contract p i (exactRun transInfo txid useRocksDb l) ↔
      ∃ k ∈ t.keys, Written k ((exactRun transInfo txid useRocksDb l).dbs p).out) ∧
    (.cacheRWSet t ∈ taskEvents Wcheck.contract p i (exactRun transInfo txid useRocksDb l) ∨
        .sendGtm (createGtmMsg kJudgeConflit t.txid) ∈
          taskEvents Wcheck.contract p i (exactRun transInfo txid useRocksDb l) ↔
      ∀ k ∈ t.keys, ¬ Written k ((exactRun transInfo txid useRocksDb l).dbs p).out) := by
  have h := (exclusive_run transInfo txid useRocksDb p l).2 hlive
  generalize exactRun transInfo txid useRocksDb l = s at *
  obtain ⟨d, hjudge, hevents⟩ := taskEvents_of_judge Wcheck.contract hlive htask ht
  obtain ⟨⟨w, ks, c⟩, hcheck, -⟩ := localCheck_contract t (s.dbs p).wcheck
  have hzero : t.lsn = 0 := h.atZero q t ht
  obtain ⟨-, hconflict⟩ := h.localCheck hzero hcheck
  obtain ⟨es, hout, hfail, hpass⟩ := hjudge.answer hcheck
  refine ⟨hzero, ?_⟩
  rw [hevents, hout, List.drop_left, hfail, hpass, hconflict, ← Bool.not_eq_true, hconflict]
  simp only [not_exists, not_and, and_self]

/-- Transaction `5` has written `k` long before transaction `0`, which writes `k` too, is
validated: transaction `0` fails. -/
theorem validation_iff_conflictRun :
    .retResult kTranFail 0 ∈ taskEvents Wcheck.contract false 0
      (exactRun (fun _ => [⟨"a", 1⟩, ⟨"b", 2⟩]) 0 (fun _ => false) (conflictRun.take 18)) := by
  have h := validation_iff (fun _ => [⟨"a", 1⟩, ⟨"b", 2⟩]) 0 (fun _ => false) false
    (conflictRun.take 18) 0 1
    { Transaction.init 0 with
      writeSet := [⟨"k", "", "a", "v"⟩], needGlobalConflct := true, lsn := 0,
      alreadyCommit := true }
    (by decide) (by decide) (by decide)
  exact h.2.1.2 ⟨"k", by decide, { Transaction.init 5 with
    writeSet := [⟨"k", "", "a", "v"⟩], lsn := 0, alreadyCommit := true }, by decide, by decide⟩

end Sys

end Grit
