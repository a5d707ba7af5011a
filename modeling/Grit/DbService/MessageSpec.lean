import Grit.DbService.OnMessage
import Grit.DbService.DbtmSpec

/-!
# What a DbService process can do in one step

`MessageStep` lists the outcomes of `onMessage` and `TaskStep` those of a task
of the thread pool, in the manner of the relations for the DBTM. A handler that
stops half-way (`stuck`) has sent nothing and returned no result.
-/

namespace Grit

open Cmd

/-- The transaction `t` after a `kData` message: its sets have grown and its
lsn is requested. -/
def Transaction.collect (t : Transaction) (rset wset : List Data) : Transaction :=
  { t with
    readSet := t.readSet ++ rset
    writeSet := t.writeSet ++ wset
    lsn := if t.lsn = -1 then 0 else t.lsn }

namespace DbService

variable {C W : Type*}

/-! ### Messages -/

/-- The transaction of `txid` before its data is added: the object `t` at `p`
that the map holds, or a new one. -/
inductive Opened (txid : Int) (s : DbService C W) :
    Nat → Transaction → DbService C W → Prop where
  | old (p : Nat) (t : Transaction) (h : s.txidTrans.find txid = some p)
      (ht : s.heap p = some t) : Opened txid s p t s
  | new (h : s.txidTrans txid = none) :
      Opened txid s s.next (Transaction.init txid) { s with
        heap := Function.update s.heap s.next (some (Transaction.init txid))
        txidTrans := s.txidTrans.insert txid s.next
        next := s.next + 1 }

theorem findOrCreate_opened {txid : Int} {s : DbService C W} {p : Nat} {t : Transaction}
    (h : (s.findOrCreate txid).txidTrans.find txid = some p)
    (ht : (s.findOrCreate txid).heap p = some t) :
    Opened txid s p t (s.findOrCreate txid) := by
  unfold findOrCreate at h ht ⊢
  cases hx : s.txidTrans txid with
  | some o =>
      simp only [hx] at h ht ⊢
      exact .old p t h ht
  | none =>
      simp only [hx, PtrMap.find_insert_self, Option.some.injEq] at h ht ⊢
      subst h
      simp only [Function.update_self, Option.some.injEq] at ht
      subst ht
      exact .new hx

/-- The outcomes of `onMessage`. -/
inductive MessageStep (conn : C) (msg : RootMsg) (s : DbService C W) :
    DbService C W → Prop where
  | skip (h : ∀ data, msg = .dbServiceMsg data → data.cmd ≠ kData ∧ data.cmd ≠ kCommit)
      (h' : ∀ data, msg = .dbtmMsg data → data.cmd ≠ kJudgeConflit ∧ data.cmd ≠ kLsn ∧
        data.cmd ≠ kTranSuccess ∧ data.cmd ≠ kTranFail) : MessageStep conn msg s s
  | stuck (s' : DbService C W) (hout : s'.out = s.out) (hc : s'.crashed = true) :
      MessageStep conn msg s s'
  | collect (data : DbServiceMsg) (hmsg : msg = .dbServiceMsg data)
      (hcmd : data.cmd = kData) (p : Nat) (t : Transaction) (s₁ : DbService C W)
      (hopen : Opened data.txid s p t s₁) (rset wset : List Data) :
      MessageStep conn msg s { s₁ with
        table := s₁.table.insert t.txid conn
        heap := Function.update s₁.heap p (some (t.collect rset wset))
        tasks := s₁.tasks ++ if t.lsn = -1 then [.getLsn data.txid] else [] }
  | commitEarly (data : DbServiceMsg) (hmsg : msg = .dbServiceMsg data)
      (hcmd : data.cmd = kCommit) (p : Nat) (t : Transaction)
      (hp : s.txidTrans.find data.txid = some p) (ht : s.heap p = some t)
      (hlsn : ¬ 0 < t.lsn) :
      MessageStep conn msg s { s with
        heap := Function.update s.heap p (some { t with
          needGlobalConflct := data.needGlobalConflict
          alreadyCommit := true }) }
  | commitReady (data : DbServiceMsg) (hmsg : msg = .dbServiceMsg data)
      (hcmd : data.cmd = kCommit) (p : Nat) (t : Transaction)
      (hp : s.txidTrans.find data.txid = some p) (ht : s.heap p = some t)
      (hlsn : 0 < t.lsn) :
      MessageStep conn msg s { s with
        heap := Function.update s.heap p (some { t with
          needGlobalConflct := data.needGlobalConflict })
        tasks := s.tasks ++ [.judgeLocalConflict p]
        out := s.out ++ [.enqueue { t with
          needGlobalConflct := data.needGlobalConflict }] }
  | lsnEarly (data : DbtmMsg) (hmsg : msg = .dbtmMsg data) (hcmd : data.cmd = kLsn)
      (p : Nat) (t : Transaction) (hp : s.txidTrans.find data.txid = some p)
      (ht : s.heap p = some t) (hcommit : t.alreadyCommit = false) :
      MessageStep conn msg s { s with
        heap := Function.update s.heap p (some { t with lsn := data.lsn }) }
  | lsnReady (data : DbtmMsg) (hmsg : msg = .dbtmMsg data) (hcmd : data.cmd = kLsn)
      (p : Nat) (t : Transaction) (hp : s.txidTrans.find data.txid = some p)
      (ht : s.heap p = some t) (hcommit : t.alreadyCommit = true) :
      MessageStep conn msg s { s with
        heap := Function.update s.heap p (some { t with lsn := data.lsn })
        tasks := s.tasks ++ [.judgeLocalConflict p]
        out := s.out ++ [.enqueue { t with lsn := data.lsn }] }
  | decision (data : DbtmMsg) (hmsg : msg = .dbtmMsg data)
      (hcmd : data.cmd = kJudgeConflit) :
      MessageStep conn msg s { s with tasks := s.tasks ++ [.solve data] }
  | result (data : DbtmMsg) (hmsg : msg = .dbtmMsg data)
      (hcmd : data.cmd = kTranSuccess ∨ data.cmd = kTranFail) (s' : DbService C W)
      (h : RetStep data.cmd data.txid s s') : MessageStep conn msg s s'

theorem getReadWriteSet_cases (conn : C) (data : DbServiceMsg) (s : DbService C W) :
    (s.getReadWriteSet conn data).out = s.out ∧
        (s.getReadWriteSet conn data).crashed = true ∨
      ∃ p t s₁ rset wset, Opened data.txid s p t s₁ ∧
        decodeSet data.readSet = some rset ∧ decodeSet data.writeSet = some wset ∧
        s.getReadWriteSet conn data = { s₁ with
          table := s₁.table.insert t.txid conn
          heap := Function.update s₁.heap p (some { t with
            readSet := t.readSet ++ rset
            writeSet := t.writeSet ++ wset }) } := by
  have hout : (s.findOrCreate data.txid).out = s.out := by
    unfold findOrCreate
    split <;> rfl
  unfold getReadWriteSet withTrans
  cases hp : (s.findOrCreate data.txid).txidTrans.find data.txid with
  | none => exact Or.inl ⟨hout, rfl⟩
  | some p =>
      cases ht : (s.findOrCreate data.txid).heap p with
      | none =>
          simp only [ht]
          exact Or.inl ⟨hout, rfl⟩
      | some t =>
          simp only [ht]
          cases hr : decodeSet data.readSet with
          | none => exact Or.inl ⟨hout, rfl⟩
          | some rset =>
              cases hw : decodeSet data.writeSet with
              | none => exact Or.inl ⟨hout, rfl⟩
              | some wset =>
                  exact Or.inr ⟨p, t, _, rset, wset, findOrCreate_opened hp ht, rfl, rfl, rfl⟩

theorem opened_find {txid : Int} {s s₁ : DbService C W} {p : Nat} {t : Transaction}
    (h : Opened txid s p t s₁) : s₁.txidTrans.find txid = some p ∧
      s₁.crashed = s.crashed ∧ s₁.out = s.out := by
  cases h with
  | old p t h ht => exact ⟨h, rfl, rfl⟩
  | new h => exact ⟨PtrMap.find_insert_self _ _ _, rfl, rfl⟩

theorem onData_step (conn : C) {data : DbServiceMsg} (hcmd : data.cmd = kData)
    {s : DbService C W} (hs : s.crashed = false) :
    MessageStep conn (.dbServiceMsg data) s (s.onData conn data) := by
  unfold onData
  rcases getReadWriteSet_cases conn data s with ⟨hout, hcr⟩ |
    ⟨p, t, s₁, rset, wset, hopen, -, -, heq⟩
  · rw [andThen, if_pos hcr]
    exact .stuck _ hout hcr
  · obtain ⟨hp, hcr, -⟩ := opened_find hopen
    have hstep : MessageStep conn (.dbServiceMsg data) s _ :=
      .collect data rfl hcmd p t s₁ hopen rset wset
    rw [heq, andThen, if_neg (by simp [hcr, hs]), withTrans]
    simp only [hp, Function.update_self]
    by_cases hlsn : t.lsn = -1
    · simpa [hlsn, store, push, Transaction.collect] using hstep
    · simpa [hlsn, Transaction.collect] using hstep

theorem withTrans_stuck (txid : Int)
    (f : Nat → Transaction → DbService C W → DbService C W) (s : DbService C W) :
    ((s.withTrans txid f).out = s.out ∧ (s.withTrans txid f).crashed = true) ∨
      ∃ p t, s.txidTrans.find txid = some p ∧ s.heap p = some t ∧
        s.withTrans txid f = f p t s := by
  unfold withTrans
  cases hp : s.txidTrans.find txid with
  | none => exact Or.inl ⟨rfl, rfl⟩
  | some p =>
      cases ht : s.heap p with
      | none =>
          simp only [ht]
          exact Or.inl ⟨rfl, rfl⟩
      | some t =>
          simp only [ht]
          exact Or.inr ⟨p, t, rfl, ht, rfl⟩

theorem onCommit_step (conn : C) {data : DbServiceMsg} (hcmd : data.cmd = kCommit)
    (s : DbService C W) :
    MessageStep conn (.dbServiceMsg data) s (s.onCommit data) := by
  unfold onCommit
  rcases withTrans_stuck data.txid _ s with ⟨hout, hcr⟩ | ⟨p, t, hp, ht, heq⟩
  · exact .stuck _ hout hcr
  · rw [heq]
    by_cases hlsn : 0 < t.lsn
    · simp only [hlsn, if_true]
      exact .commitReady data rfl hcmd p t hp ht hlsn
    · simp only [hlsn, if_false]
      exact .commitEarly data rfl hcmd p t hp ht hlsn

theorem onLsn_step (conn : C) {data : DbtmMsg} (hcmd : data.cmd = kLsn)
    (s : DbService C W) : MessageStep conn (.dbtmMsg data) s (s.onLsn data) := by
  unfold onLsn
  rcases withTrans_stuck data.txid _ s with ⟨hout, hcr⟩ | ⟨p, t, hp, ht, heq⟩
  · exact .stuck _ hout hcr
  · rw [heq]
    cases hcommit : t.alreadyCommit with
    | true =>
        have hstep : MessageStep conn (.dbtmMsg data) s _ :=
          .lsnReady data rfl hcmd p t hp ht hcommit
        simpa [hcommit, store, enqueueJudge, push, emit] using hstep
    | false =>
        have hstep : MessageStep conn (.dbtmMsg data) s _ :=
          .lsnEarly data rfl hcmd p t hp ht hcommit
        simpa [hcommit, store] using hstep

theorem onMessage_step (conn : C) (msg : RootMsg) {s : DbService C W}
    (hs : s.crashed = false) : MessageStep conn msg s (s.onMessage conn msg) := by
  cases msg with
  | dbServiceMsg data =>
      unfold onMessage
      dsimp only
      split
      · rename_i hcmd
        exact onData_step conn hcmd hs
      · rename_i hcmd
        exact onCommit_step conn hcmd s
      · rename_i hdata hcommit
        refine .skip ?_ (by simp)
        intro data' heq
        cases heq
        exact ⟨hdata, hcommit⟩
  | dbtmMsg data =>
      unfold onMessage
      dsimp only
      split
      · rename_i hcmd
        exact .decision data rfl hcmd
      · rename_i hcmd
        exact onLsn_step conn hcmd s
      · rename_i hcmd
        rw [← hcmd]
        exact .result data rfl (Or.inl hcmd) _ (retResult_step _ _ s)
      · rename_i hcmd
        rw [← hcmd]
        exact .result data rfl (Or.inr hcmd) _ (retResult_step _ _ s)
      · rename_i h₁ h₂ h₃ h₄
        refine .skip (by simp) ?_
        intro data' heq
        cases heq
        exact ⟨h₁, h₂, h₃, h₄⟩
  | gtmMsg data => exact .skip (by simp) (by simp)
  | appMsg data => exact .skip (by simp) (by simp)
  | dbtlMsg data => exact .skip (by simp) (by simp)
  | esMsg data => exact .skip (by simp) (by simp)
  | logPlayerMsg data => exact .skip (by simp) (by simp)

/-! ### Tasks -/

/-- The outcomes of running the task at position `i`. -/
inductive TaskStep (ops : Wcheck W) (i : Nat) (s : DbService C W) :
    DbService C W → Prop where
  | none (h : s.tasks[i]? = none) : TaskStep ops i s s
  | getLsn (txid : Int) (h : s.tasks[i]? = some (.getLsn txid)) :
      TaskStep ops i s { s with
        tasks := s.tasks.eraseIdx i
        out := s.out ++ [.sendDbtl (createDbtlMsg kLsn txid)] }
  | dangling (p : Nat) (h : s.tasks[i]? = some (.judgeLocalConflict p))
      (hp : s.heap p = none) :
      TaskStep ops i s { s with tasks := s.tasks.eraseIdx i, crashed := true }
  | judge (p : Nat) (t : Transaction) (h : s.tasks[i]? = some (.judgeLocalConflict p))
      (ht : s.heap p = some t) (s' : DbService C W)
      (hstep : JudgeStep ops p t { s with tasks := s.tasks.eraseIdx i } s') :
      TaskStep ops i s s'
  | ignore (data : DbtmMsg) (h : s.tasks[i]? = some (.solve data))
      (hcmd : data.cmd ≠ kJudgeConflit) :
      TaskStep ops i s { s with tasks := s.tasks.eraseIdx i }
  | solve (data : DbtmMsg) (h : s.tasks[i]? = some (.solve data))
      (hcmd : data.cmd = kJudgeConflit) (s' : DbService C W)
      (hstep : SolveStep ops data { s with tasks := s.tasks.eraseIdx i } s') :
      TaskStep ops i s s'

theorem runTask_step (ops : Wcheck W) (i : Nat) (s : DbService C W) :
    TaskStep ops i s (s.runTask ops i) := by
  unfold runTask
  cases h : s.tasks[i]? with
  | none => exact .none h
  | some task =>
      cases task with
      | getLsn txid => exact .getLsn txid h
      | judgeLocalConflict p =>
          cases ht : s.heap p with
          | none =>
              have hstep : TaskStep ops i s _ := .dangling p h ht
              simpa [exec, judgeLocalConflict, ht, crash] using hstep
          | some t => exact .judge p t h ht _ (judgeLocalConflict_step ops ht)
      | solve data =>
          by_cases hcmd : data.cmd = kJudgeConflit
          · exact .solve data h hcmd _ (solve_step ops hcmd _)
          · dsimp only [exec]
            rw [solve_of_ne ops hcmd]
            exact .ignore data h hcmd

/-! ### The output only grows -/

theorem RetStep.out_extends {status : Cmd} {txid : Int} {s s' : DbService C W}
    (h : RetStep status txid s s') : s.out <+: s'.out := by
  cases h with
  | lost => exact List.prefix_append _ _
  | sent => exact List.prefix_append _ _

theorem MessageStep.out_extends {conn : C} {msg : RootMsg} {s s' : DbService C W}
    (h : MessageStep conn msg s s') : s.out <+: s'.out := by
  cases h with
  | skip => exact List.prefix_refl _
  | stuck _ hout hc => exact hout ▸ List.prefix_refl _
  | collect data hmsg hcmd p t s₁ hopen rset wset =>
      exact (opened_find hopen).2.2 ▸ List.prefix_refl _
  | commitEarly => exact List.prefix_refl _
  | commitReady => exact List.prefix_append _ _
  | lsnEarly => exact List.prefix_refl _
  | lsnReady => exact List.prefix_append _ _
  | decision => exact List.prefix_refl _
  | result data hmsg hcmd s' hret => exact hret.out_extends

theorem TaskStep.out_extends {ops : Wcheck W} {i : Nat} {s s' : DbService C W}
    (h : TaskStep ops i s s') : s.out <+: s'.out := by
  cases h with
  | none => exact List.prefix_refl _
  | getLsn => exact List.prefix_append _ _
  | dangling => exact List.prefix_refl _
  | judge p t htask ht s' hjudge =>
      cases hjudge with
      | stuck => exact List.prefix_append _ _
      | vote => exact List.prefix_append _ _
      | cacheStuck => exact List.prefix_append _ _
      | cache => exact List.prefix_append _ _
      | failLost => exact List.prefix_append _ _
      | fail => exact List.prefix_append _ _
  | ignore => exact List.prefix_refl _
  | solve data htask hcmd s' hsolve =>
      cases hsolve with
      | missing => exact List.prefix_refl _
      | dangling => exact List.prefix_refl _
      | cacheStuck => exact List.prefix_append _ _
      | cache => exact List.prefix_append _ _
      | fail s' hd hret => exact (List.prefix_append _ _).trans hret.out_extends

/-! ### Runs -/

/-- What drives a DbService process: a message that is handled, or a task that
a worker takes. -/
inductive Act (C : Type*) where
  | message (conn : C) (msg : RootMsg)
  | task (i : Nat)

def act (ops : Wcheck W) (s : DbService C W) (a : Act C) : DbService C W :=
  s.andThen fun s =>
    match a with
    | .message conn msg => s.onMessage conn msg
    | .task i => s.runTask ops i

def acts (ops : Wcheck W) (s : DbService C W) (l : List (Act C)) : DbService C W :=
  l.foldl (act ops) s

theorem acts_concat (ops : Wcheck W) (s : DbService C W) (l : List (Act C))
    (a : Act C) : acts ops s (l ++ [a]) = act ops (acts ops s l) a := by
  simp [acts]

theorem live_of_act {ops : Wcheck W} {s : DbService C W} {a : Act C}
    (h : (act ops s a).crashed = false) : s.crashed = false := by
  by_contra hcr
  rw [act, andThen, if_pos (by simpa using hcr)] at h
  exact hcr h

end DbService

end Grit
