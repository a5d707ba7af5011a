import Grit.DbService.Dbtm

/-!
# The message handler of `dbservicemain.cc` and the thread pool

`onMessage` is one call of the handler on a decoded message, `runTask` is one
task taken from the thread pool. With several workers the tasks may overlap, so
any queued task may be the next one to run.
-/

namespace Grit

open Cmd

namespace DbService

variable {C W : Type*}

/-- The items of a read or write set as `getReadWriteSet` decodes them; `none`
when a string or the vector was not set. -/
def decodeData (d : FlatData) : Option Data :=
  d.key.bind fun k => d.attr.bind fun a => d.value.map fun v => ⟨k, "", a, v⟩

def decodeSet (l : Option (List FlatData)) : Option (List Data) :=
  l.bind fun l => l.mapM decodeData

/-- The transaction of `data.txid`, created when the map has no such key. -/
def findOrCreate (txid : Int) (s : DbService C W) : DbService C W :=
  match s.txidTrans txid with
  | some _ => s
  | none =>
      { s with
        heap := Function.update s.heap s.next (some (Transaction.init txid))
        txidTrans := s.txidTrans.insert txid s.next
        next := s.next + 1 }

def getReadWriteSet (conn : C) (data : DbServiceMsg) (s : DbService C W) :
    DbService C W :=
  (s.findOrCreate data.txid).withTrans data.txid fun p tran s =>
    let s := { s with table := s.table.insert tran.txid conn }
    match decodeSet data.readSet with
    | none => s.crash
    | some rset =>
        match decodeSet data.writeSet with
        | none => s.crash
        | some wset => s.store p { tran with
            readSet := tran.readSet ++ rset
            writeSet := tran.writeSet ++ wset }

/-- Queueing `judgeLocalConflict` for the transaction `t` at address `p`. -/
def enqueueJudge (p : Nat) (t : Transaction) (s : DbService C W) :
    DbService C W :=
  (s.push (.judgeLocalConflict p)).emit (.enqueue t)

/-- The case `kData` of `onMessage`. -/
def onData (conn : C) (data : DbServiceMsg) (s : DbService C W) :
    DbService C W :=
  (s.getReadWriteSet conn data).andThen <|
    withTrans data.txid fun p t s =>
      if t.lsn = -1 then
        (s.store p { t with lsn := 0 }).push (.getLsn data.txid)
      else s

/-- The case `kCommit` of `onMessage`. -/
def onCommit (data : DbServiceMsg) (s : DbService C W) : DbService C W :=
  s.withTrans data.txid fun p t s =>
    let t := { t with needGlobalConflct := data.needGlobalConflict }
    if 0 < t.lsn then (s.store p t).enqueueJudge p t
    else s.store p { t with alreadyCommit := true }

/-- The case `kLsn` of `onMessage`. -/
def onLsn (data : DbtmMsg) (s : DbService C W) : DbService C W :=
  s.withTrans data.txid fun p t s =>
    let t := { t with lsn := data.lsn }
    if t.alreadyCommit then (s.store p t).enqueueJudge p t
    else s.store p t

def onMessage (conn : C) (msg : RootMsg) (s : DbService C W) :
    DbService C W :=
  match msg with
  | .dbServiceMsg data =>
      match data.cmd with
      | kData => s.onData conn data
      | kCommit => s.onCommit data
      | _ => s
  | .dbtmMsg data =>
      match data.cmd with
      | kJudgeConflit => s.push (.solve data)
      | kLsn => s.onLsn data
      | kTranSuccess => s.retResult kTranSuccess data.txid
      | kTranFail => s.retResult kTranFail data.txid
      | _ => s
  | _ => s

def exec (ops : Wcheck W) (t : Task) (s : DbService C W) : DbService C W :=
  match t with
  | .getLsn txid => s.getLsn txid
  | .judgeLocalConflict p => s.judgeLocalConflict ops p
  | .solve data => s.solve ops data

/-- A worker takes the task at position `i` and runs it. -/
def runTask (ops : Wcheck W) (i : Nat) (s : DbService C W) : DbService C W :=
  match s.tasks[i]? with
  | none => s
  | some t => { s with tasks := s.tasks.eraseIdx i }.exec ops t

end DbService

end Grit
