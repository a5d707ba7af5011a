import Grit.DbService.Dbtm

/-!
# What the functions of the DBTM can do

One inductive relation for each of `retResult`, `cacheRWSet`,
`judgeLocalConflict` and `solve` lists the states the function can end in,
with the fields it changes and the events it appends. Invariants of whole runs
are derived from these relations and not from the definitions.
-/

namespace Grit

open Cmd

namespace DbService

variable {C W : Type*}

/-! ### `retResult` -/

/-- The outcomes of `retResult status txid`: no connection is known for the
transaction, or the result is sent and the transaction that the DBTM holds for
`txid` is dropped. -/
inductive RetStep (status : Cmd) (txid : Int) (s : DbService C W) :
    DbService C W → Prop where
  | lost (h : s.table.find txid = none) :
      RetStep status txid s { s with
        table := s.table.touch txid
        out := s.out ++ [.retResult status txid]
        crashed := true }
  | sent (conn : C) (heap : Nat → Option Transaction) (c : Bool)
      (h : s.table.find txid = some conn)
      (hheap : ∀ q, heap q = s.heap q ∨
        s.dbtmTable.find txid = some q ∧ heap q = none) :
      RetStep status txid s { s with
        dbtmTable := s.dbtmTable.erase txid
        heap := heap
        out := s.out ++
          [.retResult status txid, .sendEs conn (createESMsg status txid)]
        crashed := c }

theorem retResult_step (status : Cmd) (txid : Int) (s : DbService C W) :
    RetStep status txid s (s.retResult status txid) := by
  unfold retResult
  simp only [emit, crash, free]
  cases hconn : s.table.find txid with
  | none => exact .lost hconn
  | some conn =>
      simp only [List.append_assoc, List.cons_append, List.nil_append]
      cases hp : s.dbtmTable.find txid with
      | none => exact .sent conn s.heap _ hconn fun q => Or.inl rfl
      | some p =>
          cases ht : s.heap p with
          | none => simpa [ht] using .sent conn s.heap true hconn fun q => Or.inl rfl
          | some t =>
              simp only [ht]
              refine .sent conn (Function.update s.heap p none) _ hconn fun q => ?_
              by_cases hq : q = p
              · subst hq
                exact Or.inr ⟨hp, by simp⟩
              · exact Or.inl (by simp [hq])

/-! ### `cacheRWSet` -/

/-- The outcomes of `cacheRWSet` on the transaction `t`: an insertion does not
return, or the write keys are inserted and the log is sent. -/
inductive CacheStep (ops : Wcheck W) (t : Transaction) (s : DbService C W) :
    DbService C W → Prop where
  | stuck (h : insertAll ops t.lsn t.writeSet s.wcheck = none) :
      CacheStep ops t s { s with
        out := s.out ++ [.cacheRWSet t]
        crashed := true }
  | sent (w : W) (h : insertAll ops t.lsn t.writeSet s.wcheck = some w) :
      CacheStep ops t s { s with
        wcheck := w
        out := s.out ++ [.cacheRWSet t, .sendDbtl (createDbtlMsg kLog t.txid
          (some (encodeSet t.writeSet)))] }

theorem cacheRWSet_step (ops : Wcheck W) {p : Nat} {t : Transaction} {s : DbService C W}
    (h : s.heap p = some t) : CacheStep ops t s (s.cacheRWSet ops p) := by
  unfold cacheRWSet
  simp only [h, emit, crash, sendLog, List.append_assoc, List.cons_append,
    List.nil_append]
  cases hw : insertAll ops t.lsn t.writeSet s.wcheck with
  | none => exact .stuck hw
  | some w => exact .sent w hw

/-! ### `judgeLocalConflict` -/

/-- The events of `writeToDiskAndSql`. -/
def prologue (t : Transaction) : List (Event C) :=
  [.writeFile t.txid (createDbtlMsg kData t.txid (some (encodeSet t.writeSet))),
    .sqlExec (.insert t.txid t.lsn (toString t.txid))]

/-- The outcomes of `judgeLocalConflict` on the transaction `t` at address
`p`: the check does not return, the transaction passes and is voted for or
cached, or it fails and, if it is a global one, is voted against. -/
inductive JudgeStep (ops : Wcheck W) (p : Nat) (t : Transaction)
    (s : DbService C W) : DbService C W → Prop where
  | stuck (h : localCheck ops t s.wcheck = none) :
      JudgeStep ops p t s { s with
        out := s.out ++ prologue t
        crashed := true }
  | vote (w : W) (ks : List String)
      (h : localCheck ops t s.wcheck = some (w, ks, false))
      (hg : t.needGlobalConflct = true) :
      JudgeStep ops p t s { s with
        wcheck := w
        dbtmTable := s.dbtmTable.insert t.txid p
        txidTrans := s.txidTrans.erase t.txid
        out := s.out ++ (prologue t ++ [.judged t ks false,
          .sqlExec (.updateNeedLocalConflict t.txid),
          .sendGtm (createGtmMsg kJudgeConflit t.txid)]) }
  | cacheStuck (w : W) (ks : List String)
      (h : localCheck ops t s.wcheck = some (w, ks, false))
      (hg : t.needGlobalConflct = false)
      (hw : insertAll ops t.lsn t.writeSet w = none) :
      JudgeStep ops p t s { s with
        wcheck := w
        dbtmTable := s.dbtmTable.insert t.txid p
        txidTrans := s.txidTrans.erase t.txid
        out := s.out ++ (prologue t ++ [.judged t ks false,
          .sqlExec (.updateNeedLocalConflict t.txid), .cacheRWSet t])
        crashed := true }
  | cache (w w' : W) (ks : List String)
      (h : localCheck ops t s.wcheck = some (w, ks, false))
      (hg : t.needGlobalConflct = false)
      (hw : insertAll ops t.lsn t.writeSet w = some w') :
      JudgeStep ops p t s { s with
        wcheck := w'
        dbtmTable := s.dbtmTable.insert t.txid p
        txidTrans := s.txidTrans.erase t.txid
        out := s.out ++ (prologue t ++ [.judged t ks false,
          .sqlExec (.updateNeedLocalConflict t.txid), .cacheRWSet t,
          .sendDbtl (createDbtlMsg kLog t.txid (some (encodeSet t.writeSet)))]) }
  | failLost (w : W) (ks : List String)
      (h : localCheck ops t s.wcheck = some (w, ks, true))
      (hconn : s.table.find t.txid = none) :
      JudgeStep ops p t s { s with
        wcheck := w
        table := s.table.touch t.txid
        out := s.out ++ (prologue t ++
          [.judged t ks true, .retResult kTranFail t.txid])
        crashed := true }
  | fail (w : W) (ks : List String) (conn : C)
      (heap : Nat → Option Transaction) (c : Bool) (vote : List (Event C))
      (h : localCheck ops t s.wcheck = some (w, ks, true))
      (hconn : s.table.find t.txid = some conn)
      (hheap : ∀ q, heap q = s.heap q ∨
        s.dbtmTable.find t.txid = some q ∧ heap q = none)
      (hvote : vote = [] ∨ t.needGlobalConflct = true ∧
        vote = [.sendGtm (createGtmMsg kJudgeConflit t.txid true)]) :
      JudgeStep ops p t s { s with
        wcheck := w
        dbtmTable := s.dbtmTable.erase t.txid
        heap := heap
        out := s.out ++ (prologue t ++ .judged t ks true ::
          .retResult kTranFail t.txid ::
          .sendEs conn (createESMsg kTranFail t.txid) :: vote)
        crashed := c }

/-- The pass branch, after the check has answered. -/
theorem localPass_step {ops : Wcheck W} {p : Nat} {t : Transaction} {s : DbService C W}
    {w : W} {ks : List String} (h : s.heap p = some t)
    (hc : localCheck ops t s.wcheck = some (w, ks, false)) :
    JudgeStep ops p t s (localPass ops p t { s with
      wcheck := w
      out := s.out ++ (prologue t ++ [.judged t ks false]) }) := by
  unfold localPass
  by_cases hg : t.needGlobalConflct = true
  · have hs := JudgeStep.vote (p := p) w ks hc hg
    simpa [hg, emit, judgeGlobalConflict] using hs
  · have hg' : t.needGlobalConflct = false := by simpa using hg
    simp only [hg', Bool.false_eq_true, if_false, emit, List.append_assoc,
      List.cons_append, List.nil_append]
    generalize hs2 : ({ s with
      wcheck := w
      dbtmTable := s.dbtmTable.insert t.txid p
      txidTrans := s.txidTrans.erase t.txid
      out := s.out ++ (prologue t ++ [.judged t ks false,
        .sqlExec (.updateNeedLocalConflict t.txid)]) } : DbService C W) = s2
    have hheap : s2.heap p = some t := by
      rw [← hs2]
      exact h
    have hcache := cacheRWSet_step ops hheap
    generalize s2.cacheRWSet ops p = s3 at hcache
    cases hcache with
    | stuck hw =>
        subst hs2
        simpa using JudgeStep.cacheStuck (p := p) w ks hc hg' hw
    | sent w' hw =>
        subst hs2
        simpa using JudgeStep.cache (p := p) w w' ks hc hg' hw

/-- The conflict branch, after the check has answered. -/
theorem localFail_step {ops : Wcheck W} {p : Nat} {t : Transaction} {s : DbService C W}
    {w : W} {ks : List String} (h : s.heap p = some t)
    (hc : localCheck ops t s.wcheck = some (w, ks, true)) :
    JudgeStep ops p t s (localFail p t { s with
      wcheck := w
      out := s.out ++ (prologue t ++ [.judged t ks true]) }) := by
  unfold localFail
  generalize hs1 : ({ s with
    wcheck := w
    out := s.out ++ (prologue t ++ [.judged t ks true]) } : DbService C W) = s1
  have hret := retResult_step kTranFail t.txid s1
  generalize s1.retResult kTranFail t.txid = s2 at hret
  cases hret with
  | lost hconn =>
      subst hs1
      simpa [andThen] using JudgeStep.failLost (p := p) w ks hc hconn
  | sent conn heap c hconn hheap =>
      subst hs1
      have hmk := fun v => JudgeStep.fail (p := p) w ks conn heap c v hc hconn hheap
      cases c with
      | true =>
          have hs := hmk [] (Or.inl rfl)
          simpa [andThen] using hs
      | false =>
          simp only [andThen, Bool.false_eq_true, if_false]
          rcases hheap p with hp | ⟨-, hp⟩
          · rw [hp, h]
            by_cases hg : t.needGlobalConflct = true
            · have hs := hmk _ (Or.inr ⟨hg, rfl⟩)
              simpa [hg, emit] using hs
            · have hs := hmk [] (Or.inl rfl)
              simpa [hg] using hs
          · rw [hp]
            have hs := JudgeStep.fail (p := p) w ks conn heap true [] hc hconn
              hheap (Or.inl rfl)
            simpa [crash] using hs

theorem judgeLocalConflict_step (ops : Wcheck W) {p : Nat} {t : Transaction}
    {s : DbService C W} (h : s.heap p = some t) :
    JudgeStep ops p t s (s.judgeLocalConflict ops p) := by
  unfold judgeLocalConflict
  rw [h]
  dsimp only
  have hw : (s.writeToDiskAndSql t).wcheck = s.wcheck := rfl
  rw [hw]
  cases hc : localCheck ops t s.wcheck with
  | none =>
      have hs := JudgeStep.stuck (p := p) hc
      simpa [writeToDiskAndSql, emit, crash, prologue] using hs
  | some r =>
      obtain ⟨w, ks, c⟩ := r
      cases c with
      | false =>
          have hs := localPass_step h hc
          simpa [writeToDiskAndSql, emit, prologue] using hs
      | true =>
          have hs := localFail_step h hc
          simpa [writeToDiskAndSql, emit, prologue] using hs

/-! ### `solve` -/

/-- The outcomes of `solve` on a decision of the GTM: the DBTM holds nothing
for a decision without conflict, it caches what it holds, or it reports the
failure. -/
inductive SolveStep (ops : Wcheck W) (data : DbtmMsg) (s : DbService C W) :
    DbService C W → Prop where
  | missing (h : s.dbtmTable.find data.txid = none)
      (hd : data.isGlobalConflict = false) :
      SolveStep ops data s { s with
        dbtmTable := s.dbtmTable.touch data.txid
        crashed := true }
  | dangling (p : Nat) (h : s.dbtmTable.find data.txid = some p)
      (hp : s.heap p = none) (hd : data.isGlobalConflict = false) :
      SolveStep ops data s { s with crashed := true }
  | cacheStuck (p : Nat) (t : Transaction)
      (h : s.dbtmTable.find data.txid = some p) (hp : s.heap p = some t)
      (hd : data.isGlobalConflict = false)
      (hw : insertAll ops t.lsn t.writeSet s.wcheck = none) :
      SolveStep ops data s { s with
        out := s.out ++ [.cacheRWSet t]
        crashed := true }
  | cache (p : Nat) (t : Transaction) (w : W) (tail : List (Event C))
      (h : s.dbtmTable.find data.txid = some p) (hp : s.heap p = some t)
      (hd : data.isGlobalConflict = false)
      (hw : insertAll ops t.lsn t.writeSet s.wcheck = some w)
      (htail : tail = [] ∧ s.crashed = true ∨
        tail = [.sqlExec (.updateNeedGlobalConflict data.txid)]) :
      SolveStep ops data s { s with
        wcheck := w
        out := s.out ++ .cacheRWSet t :: .sendDbtl (createDbtlMsg kLog t.txid
          (some (encodeSet t.writeSet))) :: tail }
  | fail (s' : DbService C W) (hd : data.isGlobalConflict = true)
      (h : RetStep kTranFail data.txid { s with
        out := s.out ++ [.sqlExec (.delete data.txid), .removeFile data.txid] } s') :
      SolveStep ops data s s'

theorem solve_step (ops : Wcheck W) {data : DbtmMsg}
    (hcmd : data.cmd = kJudgeConflit) (s : DbService C W) :
    SolveStep ops data s (s.solve ops data) := by
  unfold solve
  rw [hcmd]
  cases hd : data.isGlobalConflict with
  | true =>
      refine .fail _ hd ?_
      have hret := retResult_step kTranFail data.txid (s.sqlDelete data.txid)
      simpa [sqlDelete, emit] using hret
  | false =>
      simp only [Bool.not_false, if_true]
      cases hp : s.dbtmTable.find data.txid with
      | none => exact .missing hp hd
      | some p =>
          cases ht : s.heap p with
          | none =>
              have hs : s.cacheRWSet ops p = s.crash := by simp [cacheRWSet, ht]
              simpa [hs, andThen, crash] using SolveStep.dangling p hp ht hd
          | some t =>
              have hcache := cacheRWSet_step ops ht
              dsimp only
              generalize s.cacheRWSet ops p = s' at hcache ⊢
              cases hcache with
              | stuck hw =>
                  simpa [andThen] using SolveStep.cacheStuck p t hp ht hd hw
              | sent w hw =>
                  have hmk := fun tail => SolveStep.cache p t w tail hp ht hd hw
                  by_cases hcr : s.crashed = true
                  · have hs := hmk [] (Or.inl ⟨rfl, hcr⟩)
                    simpa [andThen, hcr] using hs
                  · have hs := hmk _ (Or.inr rfl)
                    simpa [andThen, hcr, emit] using hs

theorem solve_of_ne (ops : Wcheck W) {data : DbtmMsg}
    (hcmd : data.cmd ≠ kJudgeConflit) (s : DbService C W) :
    s.solve ops data = s := by
  unfold solve
  split
  · contradiction
  · rfl

end DbService

end Grit
