import Grit.Dbtl.Log
import Grit.ThreadPool.Wakeup

/-!
# The log service on its thread pool

The constructor `Dbtl::Dbtl` makes a pool of one thread, and `solve` queues the logs there, while
it hands out the lsns itself. The pool is the one with the condition variable. Up to the lsns, which
may come anywhere between, the log service does what it would do if it wrote each log when it
arrives; and when the pool has come to rest, it has done so for all of them. This is so as long as
a queued task still sees the bytes of its message.
-/

namespace Grit

open Cmd

namespace Dbtl

variable {C : Type*}

def isLsn : DbtlEvent C → Bool
  | .send _ m => m.cmd = kLsn
  | _ => false

/-- The log service without the lsns. -/
def logView (d : Dbtl C) : Dbtl C :=
  { d with applyLsn := 0, tasks := [], out := d.out.filter fun e => !isLsn e }

/-- The logs are written one after the other. -/
def execAll (ts : List (DbtlTask C)) (d : Dbtl C) : Dbtl C := ts.foldl (fun d t => d.exec t) d

theorem execAll_append (ts ts' : List (DbtlTask C)) (d : Dbtl C) :
    execAll (ts ++ ts') d = execAll ts' (execAll ts d) := List.foldl_append

theorem logView_emit {e : DbtlEvent C} (h : isLsn e = false) (d : Dbtl C) :
    (d.emit e).logView = d.logView.emit e := by
  simp [emit, logView, List.filter_append, h]

theorem logView_retResult (cmd : Cmd) (hcmd : cmd ≠ kLsn) (txid lsn : Int) (conn : C)
    (d : Dbtl C) : (d.retResult cmd txid lsn conn).logView =
      d.logView.retResult cmd txid lsn conn := by
  unfold retResult
  refine logView_emit ?_ d
  split
  · simp [isLsn, createDbtmMsg, hcmd]
  · simp [isLsn, createDbtmMsg, hcmd]

theorem logView_writeItems (txid : Int) (l : List FlatData) (d : Dbtl C) :
    (writeItems txid l d).logView = writeItems txid l d.logView := by
  induction l generalizing d with
  | nil => rfl
  | cons item l ih =>
      unfold writeItems
      cases decodeLog item with
      | none => rfl
      | some log =>
          dsimp only
          rw [ih]
          simp [logView, emit, isLsn, List.filter_append]

/-- Writing a log does not depend on the lsns. -/
theorem logView_exec (t : DbtlTask C) (d : Dbtl C) : (d.exec t).logView = d.logView.exec t := by
  cases t with
  | writeToDisk txid data conn =>
      cases data with
      | none => simp [exec, writeToDisk, logView, emit, isLsn, List.filter_append]
      | some l =>
          have hopen := logView_emit (e := .openFile (toString txid)) rfl d
          have hitems := logView_writeItems txid l (d.emit (.openFile (toString txid)))
          rw [hopen] at hitems
          simp only [exec, writeToDisk]
          rw [← hitems]
          generalize writeItems txid l (d.emit (.openFile (toString txid))) = d₁
          by_cases hc : d₁.crashed = true
          · rw [if_pos hc, if_pos (by exact hc)]
          · rw [if_neg hc, if_neg (by exact hc), logView_retResult _ (by simp),
              logView_emit rfl, logView_emit rfl]
  | writeToDiskByRocksDb txid data conn =>
      simp only [exec, writeToDiskByRocksDb]
      cases data.bind fun l => l.mapM decodeLog with
      | none => rfl
      | some logs =>
          dsimp only
          rw [logView_retResult _ (by simp), logView_emit rfl]

theorem logView_execAll (ts : List (DbtlTask C)) (d : Dbtl C) :
    (execAll ts d).logView = execAll ts d.logView := by
  induction ts generalizing d with
  | nil => rfl
  | cons t ts ih =>
      have hrest := ih (d.exec t)
      rw [logView_exec] at hrest
      exact hrest

theorem writeItems_frame (txid : Int) (l : List FlatData) (d : Dbtl C) :
    (writeItems txid l d).tasks = d.tasks ∧ (writeItems txid l d).useRocksDb = d.useRocksDb := by
  induction l generalizing d with
  | nil => exact ⟨rfl, rfl⟩
  | cons item l ih =>
      unfold writeItems
      cases decodeLog item with
      | none => exact ⟨rfl, rfl⟩
      | some log => exact ih _

/-- A task queues nothing. -/
theorem exec_frame (t : DbtlTask C) (d : Dbtl C) :
    (d.exec t).tasks = d.tasks ∧ (d.exec t).useRocksDb = d.useRocksDb := by
  cases t with
  | writeToDisk txid data conn =>
      cases data with
      | none => exact ⟨rfl, rfl⟩
      | some l =>
          have hframe := writeItems_frame txid l (d.emit (.openFile (toString txid)))
          simp only [exec, writeToDisk]
          split
          · exact hframe
          · exact hframe
  | writeToDiskByRocksDb txid data conn =>
      simp only [exec, writeToDiskByRocksDb]
      split
      · exact ⟨rfl, rfl⟩
      · exact ⟨rfl, rfl⟩

theorem execAll_frame (ts : List (DbtlTask C)) (d : Dbtl C) :
    (execAll ts d).tasks = d.tasks ∧ (execAll ts d).useRocksDb = d.useRocksDb := by
  induction ts generalizing d with
  | nil => exact ⟨rfl, rfl⟩
  | cons t ts ih =>
      obtain ⟨htasks, hmode⟩ := exec_frame t d
      obtain ⟨htasks', hmode'⟩ := ih (d.exec t)
      exact ⟨htasks'.trans htasks, hmode'.trans hmode⟩

end Dbtl

/-- The log service with its pool; the queue of the pool takes the place of `tasks`. -/
structure DbtlServer (C : Type*) where
  dbtl : Dbtl C
  pool : CondPool (DbtlTask C)

namespace DbtlServer

variable {C : Type*}

inductive Act (C : Type*) where
  | message (conn : C) (msg : RootMsg)
  | notifyOne (i : Nat)
  | wake (i : Nat)
  | work (i : Nat)

def init (useRocksDb : Bool) : DbtlServer C :=
  { dbtl := Dbtl.init useRocksDb, pool := CondPool.init 1 }

/-- What a handler has queued goes to the pool. -/
def handle (d : Dbtl C) (s : DbtlServer C) : DbtlServer C :=
  { dbtl := { d with tasks := [] }, pool := d.tasks.foldl (fun p t => p.enqueue t) s.pool }

/-- The pool takes a step; the task that is executed in it, if there is one, is run. -/
def setPool (p : CondPool (DbtlTask C)) (s : DbtlServer C) : DbtlServer C :=
  { dbtl := s.dbtl.execAll (p.executed.drop s.pool.executed.length), pool := p }

/-- A process that has ended does nothing. -/
def step (s : DbtlServer C) (a : Act C) : DbtlServer C :=
  if s.dbtl.crashed then s
  else
    match a with
    | .message conn msg => s.handle (s.dbtl.onMessage conn msg)
    | .notifyOne i => s.setPool (s.pool.notifyOne i)
    | .wake i => s.setPool (s.pool.wake i)
    | .work i => s.setPool (s.pool.work i)

def run (useRocksDb : Bool) (l : List (Act C)) : DbtlServer C := l.foldl step (init useRocksDb)

theorem run_concat (useRocksDb : Bool) (l : List (Act C)) (a : Act C) :
    run useRocksDb (l ++ [a]) = (run useRocksDb l).step a := List.foldl_concat ..

/-- The log that arrives with a message. -/
def logOf (useRocksDb : Bool) : Act C → Option (DbtlTask C)
  | .message conn (.dbtlMsg data) =>
      if data.cmd = kLog then some (Dbtl.logTask useRocksDb data.txid data.data conn) else none
  | _ => none

/-- The logs in the order of their arrival. -/
def arrivals (useRocksDb : Bool) (l : List (Act C)) : List (DbtlTask C) :=
  l.filterMap (logOf useRocksDb)

/-- After the messages and steps `l`. -/
structure Serial (useRocksDb : Bool) (l : List (Act C)) (s : DbtlServer C) : Prop where
  fifo : s.pool.Fifo
  heard : s.pool.Heard
  running : s.pool.stop = false
  queue : s.dbtl.tasks = []
  mode : s.dbtl.useRocksDb = useRocksDb
  arrived : s.pool.enqueued <+: arrivals useRocksDb l
  all : s.dbtl.crashed = false → s.pool.enqueued = arrivals useRocksDb l
  view : s.dbtl.logView = (Dbtl.init useRocksDb).execAll s.pool.executed

theorem serial_init (useRocksDb : Bool) : Serial useRocksDb [] (init useRocksDb : DbtlServer C) :=
  ⟨CondPool.fifo_init, CondPool.heard_init 1, rfl, rfl, rfl, List.prefix_refl _, fun _ => rfl, rfl⟩

theorem onMessage_cases (conn : C) (msg : RootMsg) {d : Dbtl C} (htasks : d.tasks = []) :
    (d.onMessage conn msg).logView = d.logView ∧
      (d.onMessage conn msg).useRocksDb = d.useRocksDb ∧
      (d.onMessage conn msg).crashed = d.crashed ∧
      (d.onMessage conn msg).tasks = (logOf d.useRocksDb (.message conn msg)).toList := by
  cases msg with
  | dbtlMsg data =>
      by_cases hlog : data.cmd = kLog
      · have hsolve : d.onMessage conn (.dbtlMsg data) = d.solve conn data := by
          simp [Dbtl.onMessage, hlog]
        rw [hsolve, Dbtl.solve_log conn hlog]
        exact ⟨rfl, rfl, rfl, by simp [htasks, logOf, hlog]⟩
      · by_cases hlsn : data.cmd = kLsn
        · have hsolve : d.onMessage conn (.dbtlMsg data) =
              { d with applyLsn := d.applyLsn + 1 }.retResult kLsn data.txid d.applyLsn conn := by
            simp [Dbtl.onMessage, Dbtl.solve, hlsn]
          rw [hsolve]
          refine ⟨?_, rfl, rfl, by simp [Dbtl.retResult, Dbtl.emit, htasks, logOf, hlog]⟩
          unfold Dbtl.retResult
          dsimp only
          split
          · simp [Dbtl.logView, Dbtl.emit, List.filter_append, Dbtl.isLsn, createDbtmMsg]
          · simp [Dbtl.logView, Dbtl.emit, List.filter_append, Dbtl.isLsn, createDbtmMsg]
        · have hskip : d.onMessage conn (.dbtlMsg data) = d := by
            unfold Dbtl.onMessage
            dsimp only
            split
            · exact absurd (by assumption) hlog
            · exact absurd (by assumption) hlsn
            · rfl
          rw [hskip]
          exact ⟨rfl, rfl, rfl, by simp [htasks, logOf, hlog]⟩
  | _ => exact ⟨rfl, rfl, rfl, htasks⟩

theorem arrivals_concat (useRocksDb : Bool) (l : List (Act C)) (a : Act C) :
    arrivals useRocksDb (l ++ [a]) = arrivals useRocksDb l ++ (logOf useRocksDb a).toList := by
  rw [arrivals, List.filterMap_append]
  cases h : logOf useRocksDb a with
  | none => simp [arrivals, h]
  | some t => simp [arrivals, h]

/-- The messages: a log is queued. -/
theorem Serial.message {useRocksDb : Bool} {l : List (Act C)} {s : DbtlServer C}
    (h : Serial useRocksDb l s) (hlive : s.dbtl.crashed = false) (conn : C) (msg : RootMsg) :
    Serial useRocksDb (l ++ [.message conn msg]) (s.handle (s.dbtl.onMessage conn msg)) := by
  obtain ⟨hview, hmode, hcrashed, htasks⟩ := onMessage_cases conn msg h.queue
  have hview' : ({ s.dbtl.onMessage conn msg with tasks := [] } : Dbtl C).logView =
      s.dbtl.logView := hview
  have harrived := h.all hlive
  rw [h.mode] at htasks hmode
  rw [handle, htasks]
  cases hlog : logOf useRocksDb (.message conn msg) with
  | none =>
      have hsame : arrivals useRocksDb (l ++ [.message conn msg]) = arrivals useRocksDb l := by
        rw [arrivals_concat, hlog, Option.toList_none, List.append_nil]
      refine ⟨h.fifo, h.heard, h.running, rfl, hmode, ?_, ?_, hview'.trans h.view⟩
      · rw [hsame]
        exact h.arrived
      · intro _
        rw [hsame]
        exact harrived
  | some t =>
      have hmore : arrivals useRocksDb (l ++ [.message conn msg]) =
          arrivals useRocksDb l ++ [t] := by
        rw [arrivals_concat, hlog, Option.toList_some]
      have hstep := CondPool.step_stepOf s.pool (.enqueue t)
      have henqueue : s.pool.enqueue t = { s.pool with
          tasks := s.pool.tasks ++ [t]
          notices := s.pool.notices + 1
          enqueued := s.pool.enqueued ++ [t] } := by
        simp [CondPool.enqueue, h.running]
      rw [CondPool.step] at hstep
      have hfifo := hstep.fifo h.fifo
      have hheard := hstep.heard h.heard
      simp only [Option.toList_some, List.foldl_cons, List.foldl_nil]
      rw [henqueue] at hfifo hheard ⊢
      refine ⟨hfifo, hheard, h.running, rfl, hmode, ?_, ?_, hview'.trans h.view⟩
      · exact ⟨[], by rw [List.append_nil, hmore, ← harrived]⟩
      · intro _
        rw [hmore, ← harrived]

/-- The steps of the pool that queue nothing. -/
theorem Serial.setPool {useRocksDb : Bool} {l : List (Act C)} {s : DbtlServer C}
    (h : Serial useRocksDb l s) (hlive : s.dbtl.crashed = false) {a : Act C}
    (ha : logOf useRocksDb a = none) {p : CondPool (DbtlTask C)}
    (hstep : CondPool.StepOf s.pool p) (henqueued : p.enqueued = s.pool.enqueued)
    (hstop : p.stop = s.pool.stop) : Serial useRocksDb (l ++ [a]) (s.setPool p) := by
  have hsame : arrivals useRocksDb (l ++ [a]) = arrivals useRocksDb l := by
    rw [arrivals_concat, ha, Option.toList_none, List.append_nil]
  obtain ⟨es, hexecuted⟩ := hstep.executed_prefix
  have hdrop : p.executed.drop s.pool.executed.length = es := by
    rw [← hexecuted, List.drop_left]
  obtain ⟨htasks, hmode⟩ := s.dbtl.execAll_frame es
  rw [DbtlServer.setPool, hdrop]
  refine ⟨hstep.fifo h.fifo, hstep.heard h.heard, hstop.trans h.running, htasks.trans h.queue,
    hmode.trans h.mode, ?_, ?_, ?_⟩
  · dsimp only
    rw [hsame, henqueued]
    exact h.arrived
  · intro _
    dsimp only
    rw [hsame, henqueued]
    exact h.all hlive
  · dsimp only
    rw [Dbtl.logView_execAll, h.view, ← Dbtl.execAll_append, hexecuted]

theorem Serial.step {useRocksDb : Bool} {l : List (Act C)} {s : DbtlServer C}
    (h : Serial useRocksDb l s) (a : Act C) : Serial useRocksDb (l ++ [a]) (s.step a) := by
  unfold DbtlServer.step
  split
  · rename_i hc
    have hmore : arrivals useRocksDb l <+: arrivals useRocksDb (l ++ [a]) := by
      rw [arrivals_concat]
      exact List.prefix_append _ _
    exact ⟨h.fifo, h.heard, h.running, h.queue, h.mode, h.arrived.trans hmore,
      fun hlive => absurd hc (by simp [hlive]), h.view⟩
  · rename_i hc
    have hlive : s.dbtl.crashed = false := by simpa using hc
    cases a with
    | message conn msg => exact h.message hlive conn msg
    | notifyOne i =>
        refine h.setPool hlive rfl (CondPool.step_stepOf s.pool (.notifyOne i)) ?_ ?_
        · unfold CondPool.notifyOne
          split_ifs <;> rfl
        · unfold CondPool.notifyOne
          split_ifs <;> rfl
    | wake i =>
        refine h.setPool hlive rfl (CondPool.step_stepOf s.pool (.wake i)) ?_ ?_
        · unfold CondPool.wake
          split_ifs <;> rfl
        · unfold CondPool.wake
          split_ifs <;> rfl
    | work i =>
        obtain ⟨henqueued, hstop, -⟩ := CondPool.work_frame i s.pool
        exact h.setPool hlive rfl (CondPool.work_step i s.pool) henqueued hstop

theorem serial_run (useRocksDb : Bool) (l : List (Act C)) :
    Serial useRocksDb l (run useRocksDb l) := by
  induction l using List.reverseRecOn with
  | nil => exact serial_init useRocksDb
  | append_singleton l a ih =>
      rw [run_concat]
      exact ih.step a

/-- With the data of each task as it was when it was queued: in every run the log service has done,
apart from handing out lsns, what it does when it writes the first logs that have arrived one after
the other; all of them, if the pool is idle and the process has not ended. -/
theorem logView_run (useRocksDb : Bool) (l : List (Act C)) :
    ∃ k, (run useRocksDb l).dbtl.logView =
        (Dbtl.init useRocksDb).execAll ((arrivals useRocksDb l).take k) ∧
      ((run useRocksDb l).dbtl.crashed = false → (run useRocksDb l).pool.Idle →
        k = (arrivals useRocksDb l).length) := by
  have h := serial_run useRocksDb l
  have htaken := h.fifo.taken
  have henqueued := h.fifo.enqueued
  have hexecuted : (run useRocksDb l).pool.executed <+: (run useRocksDb l).pool.enqueued := by
    rw [henqueued, htaken, List.append_assoc]
    exact List.prefix_append _ _
  have htake := List.prefix_iff_eq_take.1 (hexecuted.trans h.arrived)
  refine ⟨(run useRocksDb l).pool.executed.length, ?_, ?_⟩
  · rw [← htake]
    exact h.view
  · intro hlive hidle
    obtain ⟨htasks, hheld⟩ := hidle.asleep h.heard h.fifo.single Nat.one_pos h.running
    rw [← h.all hlive, henqueued, htaken, htasks, hheld, List.append_nil, List.append_nil]

end DbtlServer

end Grit
