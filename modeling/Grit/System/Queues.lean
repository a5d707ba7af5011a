import Grit.Dbtl.Pooled
import Grit.System.Basic

/-!
# The queues of the processes

A handler of a DbService or of a DBTL does not look at the tasks that are queued; it appends some.
A task neither looks at them nor changes them. A step of the system is therefore the same with the
queues taken out, up to the tasks that it appends.
-/

namespace Grit

open Cmd DbService

namespace DbService

variable {C W : Type*}

def withTasks (q : List Task) (d : DbService C W) : DbService C W := { d with tasks := q }

/-- `f` neither reads nor changes the queue. -/
def Frames (f : DbService C W → DbService C W) : Prop :=
  ∀ d q, f (d.withTasks q) = (f d).withTasks q

/-- `f` does not read the queue and appends to it. -/
def Appends (f : DbService C W → DbService C W) : Prop :=
  ∀ d, ∃ ts, ∀ q, f (d.withTasks q) = (f d).withTasks (q ++ ts)

theorem Frames.appends {f : DbService C W → DbService C W} (h : Frames f) : Appends f :=
  fun d => ⟨[], fun q => by rw [h d q, List.append_nil]⟩

theorem Frames.comp {f g : DbService C W → DbService C W} (hf : Frames f) (hg : Appends g) :
    Appends fun d => g (f d) := by
  intro d
  obtain ⟨ts, hts⟩ := hg (f d)
  refine ⟨ts, fun q => ?_⟩
  dsimp only
  rw [hf d q, hts q]

theorem Frames.andThen {f g : DbService C W → DbService C W} (hf : Frames f) (hg : Frames g) :
    Frames fun d => (f d).andThen g := by
  intro d q
  dsimp only
  rw [hf d q, DbService.andThen, DbService.andThen]
  by_cases hc : (f d).crashed = true
  · rw [if_pos hc]
    exact if_pos hc
  · rw [if_neg hc, ← hg (f d) q]
    exact if_neg hc

theorem Appends.andThen {f g : DbService C W → DbService C W} (hf : Appends f)
    (hg : Appends g) : Appends fun d => (f d).andThen g := by
  intro d
  obtain ⟨ts, hts⟩ := hf d
  by_cases hc : (f d).crashed = true
  · refine ⟨ts, fun q => ?_⟩
    dsimp only
    rw [hts q, DbService.andThen, DbService.andThen, if_pos hc]
    exact if_pos hc
  · obtain ⟨ts', hts'⟩ := hg (f d)
    refine ⟨ts ++ ts', fun q => ?_⟩
    dsimp only
    rw [hts q, DbService.andThen, DbService.andThen, if_neg hc, ← List.append_assoc,
      ← hts' (q ++ ts)]
    exact if_neg hc

/-- A statement on the transaction of `txid`. -/
theorem Appends.withTrans {txid : Int} {f : Nat → Transaction → DbService C W → DbService C W}
    (hf : ∀ p t, Appends (f p t)) : Appends (withTrans txid f) := by
  intro d
  cases hp : d.txidTrans.find txid with
  | none =>
      refine ⟨[], fun q => ?_⟩
      simp [DbService.withTrans, withTasks, hp, crash]
  | some p =>
      cases ht : d.heap p with
      | none =>
          refine ⟨[], fun q => ?_⟩
          simp [DbService.withTrans, withTasks, hp, ht, crash]
      | some t =>
          obtain ⟨ts, hts⟩ := hf p t d
          refine ⟨ts, fun q => ?_⟩
          have hq : DbService.withTrans txid f (d.withTasks q) = f p t (d.withTasks q) := by
            simp [DbService.withTrans, withTasks, hp, ht]
          have hd : DbService.withTrans txid f d = f p t d := by
            simp [DbService.withTrans, hp, ht]
          rw [hq, hd, hts q]

/-! ### Tasks -/

theorem frames_emit (e : Event C) : Frames (emit e : DbService C W → DbService C W) :=
  fun _ _ => rfl

theorem frames_free (p : Option Nat) : Frames (free p : DbService C W → DbService C W) := by
  intro d q
  cases p with
  | none => rfl
  | some p =>
      cases hp : d.heap p with
      | none => simp [free, withTasks, hp, crash]
      | some t => simp [free, withTasks, hp]

theorem frames_retResult (status : Cmd) (x : Int) :
    Frames (retResult status x : DbService C W → DbService C W) := by
  intro d q
  cases hconn : d.table.find x with
  | none => simp [retResult, withTasks, emit, hconn, crash]
  | some conn =>
      have hfree := frames_free (d.dbtmTable.find x) { d with
        out := d.out ++ [.retResult status x] ++ [.sendEs conn (createESMsg status x)]
        dbtmTable := d.dbtmTable.erase x } q
      simp only [retResult, withTasks, emit, hconn] at hfree ⊢
      exact hfree

theorem frames_cacheRWSet (ops : Wcheck W) (p : Nat) :
    Frames (cacheRWSet ops p : DbService C W → DbService C W) := by
  intro d q
  cases hp : d.heap p with
  | none => simp [cacheRWSet, withTasks, hp, crash]
  | some t =>
      cases hw : insertAll ops t.lsn t.writeSet d.wcheck with
      | none => simp [cacheRWSet, withTasks, hp, hw, emit, crash]
      | some w => simp [cacheRWSet, withTasks, hp, hw, emit, sendLog]

theorem frames_localPass (ops : Wcheck W) (p : Nat) (t : Transaction) :
    Frames (localPass ops p t : DbService C W → DbService C W) := by
  intro d q
  have hcache := frames_cacheRWSet ops p ({ d with
    dbtmTable := d.dbtmTable.insert t.txid p
    txidTrans := d.txidTrans.erase t.txid }.emit
      (.sqlExec (.updateNeedLocalConflict t.txid))) q
  unfold localPass
  split
  · rfl
  · exact hcache

theorem frames_localFail (p : Nat) (t : Transaction) :
    Frames (localFail p t : DbService C W → DbService C W) := by
  refine (frames_retResult kTranFail t.txid).andThen ?_
  intro d q
  cases hp : d.heap p with
  | none => simp [withTasks, hp, crash]
  | some u =>
      by_cases hglobal : u.needGlobalConflct = true
      · simp [withTasks, hp, hglobal, emit]
      · simp [withTasks, hp, hglobal]

theorem frames_judgeLocalConflict (ops : Wcheck W) (p : Nat) :
    Frames (judgeLocalConflict ops p : DbService C W → DbService C W) := by
  intro d q
  cases hp : d.heap p with
  | none => simp [judgeLocalConflict, withTasks, hp, crash]
  | some t =>
      cases hcheck : localCheck ops t d.wcheck with
      | none => simp [judgeLocalConflict, withTasks, hp, writeToDiskAndSql, emit, hcheck, crash]
      | some r =>
          have hpass := frames_localPass ops p t ({ d.writeToDiskAndSql t with
            wcheck := r.1 }.emit (.judged t r.2.1 r.2.2)) q
          have hfail := frames_localFail p t ({ d.writeToDiskAndSql t with
            wcheck := r.1 }.emit (.judged t r.2.1 r.2.2)) q
          simp only [judgeLocalConflict, withTasks, hp, writeToDiskAndSql, emit, hcheck]
            at hpass hfail ⊢
          split
          · exact hfail
          · exact hpass

theorem frames_solve (ops : Wcheck W) (data : DbtmMsg) :
    Frames (solve ops data : DbService C W → DbService C W) := by
  intro d q
  unfold solve
  split
  · split
    · cases hp : d.dbtmTable.find data.txid with
      | none => simp [withTasks, hp, crash]
      | some p =>
          have hcache := (frames_cacheRWSet ops p).andThen
            (frames_emit (.sqlExec (.updateNeedGlobalConflict data.txid))) d q
          simp only [withTasks, hp] at hcache ⊢
          exact hcache
    · exact frames_retResult kTranFail data.txid (d.sqlDelete data.txid) q
  · rfl

theorem frames_exec (ops : Wcheck W) (t : Task) :
    Frames (exec ops t : DbService C W → DbService C W) := by
  cases t with
  | getLsn txid => exact frames_emit _
  | judgeLocalConflict p => exact frames_judgeLocalConflict ops p
  | solve data => exact frames_solve ops data

/-! ### Handlers -/

theorem frames_findOrCreate (txid : Int) :
    Frames (findOrCreate txid : DbService C W → DbService C W) := by
  intro d q
  cases hx : d.txidTrans txid with
  | none => simp [findOrCreate, withTasks, hx]
  | some o => simp [findOrCreate, withTasks, hx]

theorem appends_getReadWriteSet (conn : C) (data : DbServiceMsg) :
    Appends (getReadWriteSet conn data : DbService C W → DbService C W) := by
  refine (frames_findOrCreate data.txid).comp (Appends.withTrans fun p t => Frames.appends ?_)
  intro d q
  dsimp only
  cases decodeSet data.readSet with
  | none => rfl
  | some rset =>
      cases decodeSet data.writeSet with
      | none => rfl
      | some wset => rfl

theorem appends_onData (conn : C) (data : DbServiceMsg) :
    Appends (onData conn data : DbService C W → DbService C W) := by
  refine (appends_getReadWriteSet conn data).andThen (Appends.withTrans fun p t => ?_)
  by_cases hlsn : t.lsn = -1
  · intro d
    exact ⟨[.getLsn data.txid], fun q => by simp [hlsn, withTasks, store, push]⟩
  · intro d
    exact ⟨[], fun q => by simp [hlsn]⟩

theorem appends_onCommit (data : DbServiceMsg) :
    Appends (onCommit data : DbService C W → DbService C W) := by
  refine Appends.withTrans fun p t => ?_
  by_cases hlsn : 0 < t.lsn
  · intro d
    exact ⟨[.judgeLocalConflict p], fun q => by
      simp [hlsn, withTasks, store, enqueueJudge, push, emit]⟩
  · intro d
    exact ⟨[], fun q => by simp [hlsn, withTasks, store]⟩

theorem appends_onLsn (data : DbtmMsg) :
    Appends (onLsn data : DbService C W → DbService C W) := by
  refine Appends.withTrans fun p t => ?_
  by_cases hcommit : t.alreadyCommit = true
  · intro d
    exact ⟨[.judgeLocalConflict p], fun q => by
      simp [hcommit, withTasks, store, enqueueJudge, push, emit]⟩
  · intro d
    exact ⟨[], fun q => by simp [hcommit, withTasks, store]⟩

theorem appends_onMessage (conn : C) (msg : RootMsg) :
    Appends (onMessage conn msg : DbService C W → DbService C W) := by
  have hskip : Appends fun d : DbService C W => d := fun d => ⟨[], fun q => by simp⟩
  unfold onMessage
  cases msg with
  | dbServiceMsg data =>
      cases hcmd : data.cmd with
      | kData => simpa only [hcmd] using appends_onData conn data
      | kCommit => simpa only [hcmd] using appends_onCommit data
      | _ => simpa only [hcmd] using hskip
  | dbtmMsg data =>
      cases hcmd : data.cmd with
      | kJudgeConflit =>
          simp only [hcmd]
          exact fun d => ⟨[.solve data], fun q => rfl⟩
      | kLsn => simpa only [hcmd] using appends_onLsn data
      | kTranSuccess => simpa only [hcmd] using (frames_retResult kTranSuccess data.txid).appends
      | kTranFail => simpa only [hcmd] using (frames_retResult kTranFail data.txid).appends
      | _ => simpa only [hcmd] using hskip
  | _ => exact hskip

/-- A handler and its effect with the queue taken out. -/
theorem act_message_split (ops : Wcheck W) (conn : C) (msg : RootMsg) (d : DbService C W) :
    (d.act ops (.message conn msg)).withTasks [] =
        ((d.withTasks []).act ops (.message conn msg)).withTasks [] ∧
      (d.act ops (.message conn msg)).tasks =
        d.tasks ++ ((d.withTasks []).act ops (.message conn msg)).tasks := by
  have happends : Appends fun d : DbService C W => d.act ops (.message conn msg) :=
    Appends.andThen (fun d => ⟨[], fun q => by simp⟩) (appends_onMessage conn msg)
  obtain ⟨ts, hts⟩ := happends d
  have hself : (d.act ops (.message conn msg)).tasks = d.tasks ++ ts :=
    congrArg DbService.tasks (hts d.tasks)
  have hempty : (d.withTasks []).act ops (.message conn msg) =
      (d.act ops (.message conn msg)).withTasks ts := hts []
  rw [hempty]
  exact ⟨rfl, hself⟩

end DbService

namespace Dbtl

variable {C : Type*}

def withTasks (q : List (DbtlTask C)) (d : Dbtl C) : Dbtl C := { d with tasks := q }

theorem writeItems_withTasks (txid : Int) (l : List FlatData) (d : Dbtl C)
    (q : List (DbtlTask C)) :
    writeItems txid l (d.withTasks q) = (writeItems txid l d).withTasks q := by
  induction l generalizing d with
  | nil => rfl
  | cons item l ih =>
      unfold writeItems
      cases decodeLog item with
      | none => rfl
      | some log =>
          let d₁ := d.emit (.write (toString txid)
            (log.key ++ "#" ++ log.attr ++ ":" ++ log.value ++ "@"))
          exact ih { d₁ with
            logTable := Function.update d₁.logTable txid (d₁.logTable txid ++ [log]) }

/-- A task neither reads nor changes the queue. -/
theorem exec_withTasks (t : DbtlTask C) (d : Dbtl C) (q : List (DbtlTask C)) :
    (d.withTasks q).exec t = (d.exec t).withTasks q := by
  cases t with
  | writeToDisk txid data conn =>
      cases data with
      | none => rfl
      | some l =>
          have hitems := writeItems_withTasks txid l (d.emit (.openFile (toString txid))) q
          simp only [exec, writeToDisk]
          rw [show (d.withTasks q).emit (.openFile (toString txid)) =
            (d.emit (.openFile (toString txid))).withTasks q from rfl, hitems]
          generalize writeItems txid l (d.emit (.openFile (toString txid))) = d₁
          by_cases hc : d₁.crashed = true
          · rw [if_pos hc]
            exact if_pos hc
          · rw [if_neg hc]
            exact if_neg hc
  | writeToDiskByRocksDb txid data conn =>
      simp only [exec, writeToDiskByRocksDb]
      cases data.bind fun l => l.mapM decodeLog with
      | none => rfl
      | some logs => rfl

/-- A handler and its effect with the queue taken out. -/
theorem onMessage_split (conn : C) (msg : RootMsg) (d : Dbtl C) :
    (d.onMessage conn msg).withTasks [] =
        ((d.withTasks []).onMessage conn msg).withTasks [] ∧
      (d.onMessage conn msg).tasks = d.tasks ++ ((d.withTasks []).onMessage conn msg).tasks := by
  cases msg with
  | dbtlMsg data =>
      cases hcmd : data.cmd with
      | kLog =>
          simp only [onMessage, hcmd]
          rw [solve_log conn hcmd, solve_log conn hcmd]
          exact ⟨rfl, rfl⟩
      | kLsn =>
          simp only [onMessage, hcmd, solve]
          exact ⟨rfl, (List.append_nil _).symm⟩
      | _ =>
          simp only [onMessage, hcmd]
          exact ⟨rfl, (List.append_nil _).symm⟩
  | _ => exact ⟨rfl, (List.append_nil _).symm⟩

end Dbtl

namespace Sys

variable {A P C W : Type*}

/-- The system without its queues. -/
def cleared (s : Sys A P C W) : Sys A P C W :=
  { s with dbs := fun p => (s.dbs p).withTasks [], dbtl := fun p => (s.dbtl p).withTasks [] }

variable [DecidableEq P]

theorem cleared_setDbService (s : Sys A P C W) (p : P) (d : DbService C W) :
    (s.setDbService p d).cleared = s.cleared.setDbService p (d.withTasks []) := by
  have hdbs : (fun q => (Function.update s.dbs p d q).withTasks []) =
      Function.update (fun q => (s.dbs q).withTasks []) p (d.withTasks []) :=
    funext (Function.apply_update (fun _ d => d.withTasks []) s.dbs p d)
  unfold cleared setDbService
  dsimp only
  rw [hdbs]
  rfl

theorem cleared_setDbtl (s : Sys A P C W) (p : P) (d : Dbtl P) :
    (s.setDbtl p d).cleared = s.cleared.setDbtl p (d.withTasks []) := by
  have hdbtl : (fun q => (Function.update s.dbtl p d q).withTasks []) =
      Function.update (fun q => (s.dbtl q).withTasks []) p (d.withTasks []) :=
    funext (Function.apply_update (fun _ d => d.withTasks []) s.dbtl p d)
  unfold cleared setDbtl
  dsimp only
  rw [hdbtl]
  rfl

/-- A handler runs: the step of a worker is none. -/
def isHandler : Act A P C → Bool
  | .task _ _ => false
  | .dbtlTask _ _ => false
  | _ => true

/-- `s'` is what `t'` is without the queues, and has the tasks queued since `t`. -/
structure Queued (t t' s' : Sys A P C W) : Prop where
  cleared : t'.cleared = s'.cleared
  dbs : ∀ p, (t'.dbs p).tasks = (t.dbs p).tasks ++ (s'.dbs p).tasks
  dbtl : ∀ p, (t'.dbtl p).tasks = (t.dbtl p).tasks ++ (s'.dbtl p).tasks

omit [DecidableEq P] in
/-- Nothing is queued. -/
theorem queued_of_eq {t t' : Sys A P C W} (hdbs : t'.dbs = t.dbs) (hdbtl : t'.dbtl = t.dbtl) :
    Queued t t' t'.cleared where
  cleared := rfl
  dbs p := by
    rw [hdbs]
    exact (List.append_nil _).symm
  dbtl p := by
    rw [hdbtl]
    exact (List.append_nil _).symm

theorem queued_setDbService (t : Sys A P C W) (p : P) {d d' : DbService C W}
    (hd : d.withTasks [] = d'.withTasks []) (htasks : d.tasks = (t.dbs p).tasks ++ d'.tasks) :
    Queued t (t.setDbService p d) (t.cleared.setDbService p d') where
  cleared := by
    rw [cleared_setDbService, cleared_setDbService, hd]
    rfl
  dbs q := by
    by_cases hq : q = p
    · subst hq
      rw [setDbService_dbs_self, setDbService_dbs_self, htasks]
    · rw [setDbService_dbs_of_ne _ hq, setDbService_dbs_of_ne _ hq]
      exact (List.append_nil _).symm
  dbtl q := (List.append_nil _).symm

theorem queued_setDbtl (t : Sys A P C W) (p : P) {d d' : Dbtl P}
    (hd : d.withTasks [] = d'.withTasks []) (htasks : d.tasks = (t.dbtl p).tasks ++ d'.tasks) :
    Queued t (t.setDbtl p d) (t.cleared.setDbtl p d') where
  cleared := by
    rw [cleared_setDbtl, cleared_setDbtl, hd]
    rfl
  dbs q := (List.append_nil _).symm
  dbtl q := by
    by_cases hq : q = p
    · subst hq
      rw [setDbtl_dbtl_self, setDbtl_dbtl_self, htasks]
    · rw [setDbtl_dbtl_of_ne _ hq, setDbtl_dbtl_of_ne _ hq]
      exact (List.append_nil _).symm

theorem queued_receive (ops : Wcheck W) (conn : C) (t : Sys A P C W) (packet : Packet P) :
    Queued t (t.receive ops conn packet) (t.cleared.receive ops conn packet) := by
  cases packet with
  | toGtm p m => exact queued_of_eq rfl rfl
  | toDbService p m =>
      obtain ⟨hd, htasks⟩ := act_message_split ops conn (.dbtmMsg m) (t.dbs p)
      exact queued_setDbService t p hd htasks
  | toDbtl p m =>
      obtain ⟨hd, htasks⟩ := Dbtl.onMessage_split p (.dbtlMsg m) (t.dbtl p)
      dsimp only [receive]
      by_cases hc : (t.dbtl p).crashed = true
      · rw [if_pos hc, if_pos (show (t.cleared.dbtl p).crashed = true from hc)]
        exact queued_of_eq rfl rfl
      · rw [if_neg hc, if_neg (show ¬ (t.cleared.dbtl p).crashed = true from hc)]
        exact queued_setDbtl t p hd htasks

/-- A handler does the same with the queues taken out, and queues the same tasks. -/
theorem queued_step (ops : Wcheck W) (t : Sys A P C W) {a : Act A P C}
    (ha : isHandler a = true) : Queued t (t.step ops a) (t.cleared.step ops a) := by
  cases a with
  | getTxid a transType => exact queued_of_eq rfl rfl
  | entityService p conn m =>
      obtain ⟨hd, htasks⟩ := act_message_split ops conn (.dbServiceMsg m) (t.dbs p)
      exact queued_setDbService t p hd htasks
  | deliver i conn =>
      cases hnet : t.net[i]? with
      | none =>
          have hstep : ∀ s : Sys A P C W, s.net = t.net → s.step ops (.deliver i conn) = s := by
            intro s hs
            dsimp only [step]
            rw [hs, hnet]
          rw [hstep t rfl, hstep t.cleared rfl]
          exact queued_of_eq rfl rfl
      | some packet =>
          have hstep : ∀ s : Sys A P C W, s.net = t.net → s.step ops (.deliver i conn) =
              { s with net := s.net.eraseIdx i }.receive ops conn packet := by
            intro s hs
            dsimp only [step]
            rw [hs, hnet]
          have hqueued := queued_receive ops conn { t with net := t.net.eraseIdx i } packet
          rw [hstep t rfl, hstep t.cleared rfl]
          exact ⟨hqueued.cleared, hqueued.dbs, hqueued.dbtl⟩
  | task p i => exact absurd ha (by simp [isHandler])
  | dbtlTask p i => exact absurd ha (by simp [isHandler])

end Sys

end Grit
