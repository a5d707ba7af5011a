import Mathlib.Logic.Function.Basic
import Grit.Message.Basic

/-!
# The log service

The functions of `dbtl.cc` and the message handler of `dbtlmain.cc`. The results
of the file and database calls are only logged by the source and never change
what it does next, so these calls are events here. `playLog` starts the
`LogPlayer`, which talks to other processes only; it is an event too, and a
`LogPlayerMsg` is taken by it without an effect on this state. A message is
taken to keep its bytes until its task has run.

`retResult` passes the lsn as the third argument of `CreateDbtmMsg`, which is the
field `isGlobalConflict`.
-/

namespace Grit

open Cmd

/-- The tasks that `solve` queues, with the data as it is then. The source binds a pointer
into the buffer of `onMessage`, whose bytes are taken to be there still when a worker runs
the task. -/
inductive DbtlTask (C : Type*) where
  | writeToDisk (txid : Int) (data : Option (List FlatData)) (conn : C)
  | writeToDiskByRocksDb (txid : Int) (data : Option (List FlatData)) (conn : C)

inductive DbtlEvent (C : Type*) where
  | send (conn : C) (m : DbtmMsg)
  | openFile (name : String)
  | write (name : String) (text : String)
  | closeFile (name : String)
  | playLog (txid : Int)
  | rocksWrite (batch : List (String × String))

/-- `struct LogInfo`; `attr` is its field `attribute`. -/
structure LogInfo where
  key : String
  attr : String
  value : String
deriving DecidableEq, Repr

/-- A DBTL process with connections of type `C`. -/
structure Dbtl (C : Type*) where
  useRocksDb : Bool
  applyLsn : Int
  tasks : List (DbtlTask C)
  logTable : Int → List LogInfo
  out : List (DbtlEvent C)
  crashed : Bool

namespace Dbtl

variable {C : Type*}

/-- A new process. The counter is never assigned; it is taken to start at `0`. -/
def init (useRocksDb : Bool) : Dbtl C :=
  { useRocksDb, applyLsn := 0, tasks := [], logTable := fun _ => [], out := [],
    crashed := false }

def emit (e : DbtlEvent C) (s : Dbtl C) : Dbtl C := { s with out := s.out ++ [e] }

/-- `retResult`; an lsn that is a nonzero integer reads as `true`. -/
def retResult (cmd : Cmd) (txid lsn : Int) (conn : C) (s : Dbtl C) : Dbtl C :=
  let dbtm :=
    if lsn = -1 then createDbtmMsg cmd txid
    else createDbtmMsg cmd txid (decide (lsn ≠ 0))
  s.emit (.send conn dbtm)

/-- The strings of an item; `none` when one was not set. -/
def decodeLog (d : FlatData) : Option LogInfo :=
  d.key.bind fun k => d.attr.bind fun a => d.value.map fun v => ⟨k, a, v⟩

/-- The loop of `writeToDisk`. -/
def writeItems (txid : Int) : List FlatData → Dbtl C → Dbtl C
  | [], s => s
  | d :: rest, s =>
      match decodeLog d with
      | none => { s with crashed := true }
      | some log =>
          let s := s.emit (.write (toString txid)
            (log.key ++ "#" ++ log.attr ++ ":" ++ log.value ++ "@"))
          writeItems txid rest { s with
            logTable := Function.update s.logTable txid (s.logTable txid ++ [log]) }

def writeToDisk (txid : Int) (data : Option (List FlatData)) (conn : C) (s : Dbtl C) :
    Dbtl C :=
  let s := s.emit (.openFile (toString txid))
  match data with
  | none => { s with crashed := true }
  | some l =>
      let s := writeItems txid l s
      if s.crashed then s
      else ((s.emit (.closeFile (toString txid))).emit (.playLog txid)).retResult
        kTranSuccess txid (-1) conn

def writeToDiskByRocksDb (txid : Int) (data : Option (List FlatData)) (conn : C)
    (s : Dbtl C) : Dbtl C :=
  match data.bind fun l => l.mapM decodeLog with
  | none => { s with crashed := true }
  | some logs =>
      (s.emit (.rocksWrite (logs.map fun log =>
        (log.key, log.attr ++ ":" ++ log.value ++ "@")))).retResult
          kTranSuccess txid (-1) conn

def solve (conn : C) (dbtl : DbtlMsg) (s : Dbtl C) : Dbtl C :=
  match dbtl.cmd with
  | kLog =>
      if s.useRocksDb then
        { s with tasks := s.tasks ++ [.writeToDiskByRocksDb dbtl.txid dbtl.data conn] }
      else { s with tasks := s.tasks ++ [.writeToDisk dbtl.txid dbtl.data conn] }
  | kLsn =>
      { s with applyLsn := s.applyLsn + 1 }.retResult kLsn dbtl.txid s.applyLsn conn
  | _ => s

def onMessage (conn : C) (msg : RootMsg) (s : Dbtl C) : Dbtl C :=
  match msg with
  | .dbtlMsg data =>
      match data.cmd with
      | kLog => s.solve conn data
      | kLsn => s.solve conn data
      | _ => s
  | _ => s

def exec (t : DbtlTask C) (s : Dbtl C) : Dbtl C :=
  match t with
  | .writeToDisk txid data conn => s.writeToDisk txid data conn
  | .writeToDiskByRocksDb txid data conn => s.writeToDiskByRocksDb txid data conn

/-- A worker takes the task at position `i` and runs it. -/
def runTask (i : Nat) (s : Dbtl C) : Dbtl C :=
  match s.tasks[i]? with
  | none => s
  | some t => { s with tasks := s.tasks.eraseIdx i }.exec t

/-! ### What a DBTL process can do in one step -/

/-- The messages among the events. -/
def sends (es : List (DbtlEvent C)) : List (C × DbtmMsg) :=
  es.filterMap fun e =>
    match e with
    | .send conn m => some (conn, m)
    | _ => none

end Dbtl

namespace DbtlTask

variable {C : Type*}

def txid : DbtlTask C → Int
  | .writeToDisk txid _ _ => txid
  | .writeToDiskByRocksDb txid _ _ => txid

def conn : DbtlTask C → C
  | .writeToDisk _ _ conn => conn
  | .writeToDiskByRocksDb _ _ conn => conn

def data : DbtlTask C → Option (List FlatData)
  | .writeToDisk _ data _ => data
  | .writeToDiskByRocksDb _ data _ => data

end DbtlTask

namespace Dbtl

variable {C : Type*}

/-- The outcomes of `onMessage`: the message is ignored, a log is queued, or an
lsn is handed out. The lsn does not reach the field `lsn` of the reply. -/
inductive MessageStep (conn : C) (msg : RootMsg) (s : Dbtl C) : Dbtl C → Prop where
  | skip : MessageStep conn msg s s
  | log (data : DbtlMsg) (hmsg : msg = .dbtlMsg data) (hcmd : data.cmd = kLog)
      (t : DbtlTask C) (htxid : t.txid = data.txid) (hconn : t.conn = conn)
      (hdata : t.data = data.data) :
      MessageStep conn msg s { s with tasks := s.tasks ++ [t] }
  | lsn (data : DbtlMsg) (hmsg : msg = .dbtlMsg data) (hcmd : data.cmd = kLsn)
      (b : Bool) :
      MessageStep conn msg s { s with
        applyLsn := s.applyLsn + 1
        out := s.out ++ [.send conn (createDbtmMsg kLsn data.txid b)] }

theorem MessageStep.sent {conn : C} {msg : RootMsg} {s s' : Dbtl C}
    (h : MessageStep conn msg s s') :
    ∃ es, s'.out = s.out ++ es ∧ ∀ v ∈ sends es, v.2.cmd = kLsn := by
  cases h with
  | skip => exact ⟨[], by simp, by simp [sends]⟩
  | log => exact ⟨[], by simp, by simp [sends]⟩
  | lsn data hmsg hcmd b => exact ⟨_, rfl, by simp [sends, createDbtmMsg]⟩

theorem onMessage_step (conn : C) (msg : RootMsg) (s : Dbtl C) :
    MessageStep conn msg s (s.onMessage conn msg) := by
  unfold onMessage
  split
  · rename_i data
    split
    · rename_i hcmd
      rw [solve, hcmd]
      dsimp only
      split
      · exact .log data rfl hcmd _ rfl rfl rfl
      · exact .log data rfl hcmd _ rfl rfl rfl
    · rename_i hcmd
      rw [solve, hcmd]
      dsimp only [retResult, emit]
      split
      · exact .lsn data rfl hcmd false
      · exact .lsn data rfl hcmd _
    · exact .skip
  · exact .skip

/-- The outcomes of running the task at position `i`: the queue is empty there,
a null pointer is followed, or the transaction is reported as a success. -/
inductive TaskStep (i : Nat) (s : Dbtl C) : Dbtl C → Prop where
  | none (h : s.tasks[i]? = none) : TaskStep i s s
  | stuck (t : DbtlTask C) (h : s.tasks[i]? = some t) (s' : Dbtl C)
      (es : List (DbtlEvent C)) (htasks : s'.tasks = s.tasks.eraseIdx i)
      (hout : s'.out = s.out ++ es) (hes : sends es = []) : TaskStep i s s'
  | done (t : DbtlTask C) (h : s.tasks[i]? = some t) (s' : Dbtl C)
      (es : List (DbtlEvent C)) (htasks : s'.tasks = s.tasks.eraseIdx i)
      (hout : s'.out = s.out ++ es)
      (hes : sends es = [(t.conn, createDbtmMsg kTranSuccess t.txid)]) : TaskStep i s s'

theorem TaskStep.sent {i : Nat} {s s' : Dbtl C} (h : TaskStep i s s') :
    ∃ es, s'.out = s.out ++ es ∧ ∀ v ∈ sends es, v.2.cmd = kTranSuccess := by
  cases h with
  | none => exact ⟨[], by simp, by simp [sends]⟩
  | stuck t ht s' es htasks hout hes => exact ⟨es, hout, by simp [hes]⟩
  | done t ht s' es htasks hout hes => exact ⟨es, hout, by simp [hes, createDbtmMsg]⟩

theorem writeItems_out (txid : Int) (l : List FlatData) (s : Dbtl C) :
    (writeItems txid l s).tasks = s.tasks ∧
      ∃ es, (writeItems txid l s).out = s.out ++ es ∧ sends es = [] := by
  induction l generalizing s with
  | nil => exact ⟨rfl, [], by simp [writeItems], rfl⟩
  | cons d rest ih =>
      unfold writeItems
      cases decodeLog d with
      | none => exact ⟨rfl, [], by simp, rfl⟩
      | some log =>
          dsimp only
          generalize hs : ({ s.emit (.write (toString txid)
            (log.key ++ "#" ++ log.attr ++ ":" ++ log.value ++ "@")) with
              logTable := _ } : Dbtl C) = s₁
          obtain ⟨htasks, es, hout, hes⟩ := ih s₁
          subst hs
          refine ⟨htasks, .write (toString txid)
            (log.key ++ "#" ++ log.attr ++ ":" ++ log.value ++ "@") :: es, ?_, ?_⟩
          · rw [hout]
            simp [emit]
          · simpa [sends] using hes

theorem runTask_step (i : Nat) (s : Dbtl C) : TaskStep i s (s.runTask i) := by
  unfold runTask
  cases h : s.tasks[i]? with
  | none => exact .none h
  | some t =>
      cases t with
      | writeToDisk txid data conn =>
          dsimp only [exec, writeToDisk]
          cases data with
          | none => exact .stuck _ h _ _ rfl rfl (by simp [sends])
          | some l =>
              dsimp only
              generalize hs : ({ s with tasks := s.tasks.eraseIdx i }.emit
                (.openFile (toString txid)) : Dbtl C) = s₁
              obtain ⟨htasks, es, hout, hes⟩ := writeItems_out txid l s₁
              generalize writeItems txid l s₁ = s₂ at htasks hout
              subst hs
              have hout' : s₂.out = s.out ++ .openFile (toString txid) :: es := by
                rw [hout]
                simp [emit]
              split
              · exact .stuck _ h _ _ htasks hout' (by simpa [sends] using hes)
              · refine .done _ h _ (.openFile (toString txid) :: es ++
                  [.closeFile (toString txid), .playLog txid,
                    .send conn (createDbtmMsg kTranSuccess txid)]) htasks ?_ ?_
                · simp [retResult, emit, hout']
                · simp only [sends] at hes
                  simp [sends, hes, DbtlTask.conn, DbtlTask.txid]
      | writeToDiskByRocksDb txid data conn =>
          dsimp only [exec, writeToDiskByRocksDb]
          split
          · exact .stuck _ h _ [] rfl (by simp) rfl
          · rename_i logs hlogs
            refine .done _ h _ [.rocksWrite (logs.map fun log =>
              (log.key, log.attr ++ ":" ++ log.value ++ "@")),
                .send conn (createDbtmMsg kTranSuccess txid)] rfl ?_ ?_
            · simp [retResult, emit]
            · simp [sends, DbtlTask.conn, DbtlTask.txid]

end Dbtl

end Grit
