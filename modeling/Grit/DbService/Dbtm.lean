import Grit.DbService.State

/-!
# The DBTM

The functions of `dbtm.cc`, with `DbService::retResult`, as operations on the
process state. `ops` is the conflict table. `localCheck` is the part of
`judgeLocalConflict` that looks at the conflict table: the two loops over the
read set and the write set; it also returns the keys that were purged, in the
order of the calls.
-/

namespace Grit

open Cmd

namespace DbService

variable {C W : Type*}

/-- The items of a set as `writeToDiskAndSql` and `sendLog` encode them. -/
def encodeSet (l : List Data) : List FlatData :=
  l.map fun d => createData (some d.key) (some d.attr) (some d.value)

/-- `DbService::retResult`. -/
def retResult (status : Cmd) (txid : Int) (s : DbService C W) : DbService C W :=
  let s := s.emit (.retResult status txid)
  match s.table.find txid with
  | none => { s with table := s.table.touch txid }.crash
  | some conn =>
      let s := s.emit (.sendEs conn (createESMsg status txid))
      let tran := s.dbtmTable.find txid
      { s with dbtmTable := s.dbtmTable.erase txid }.free tran

def getLsn (txid : Int) (s : DbService C W) : DbService C W :=
  s.emit (.sendDbtl (createDbtlMsg kLsn txid))

def judgeGlobalConflict (txid : Int) (s : DbService C W) : DbService C W :=
  s.emit (.sendGtm (createGtmMsg kJudgeConflit txid))

def sendLog (tran : Transaction) (s : DbService C W) : DbService C W :=
  s.emit (.sendDbtl (createDbtlMsg kLog tran.txid (some (encodeSet tran.writeSet))))

def sqlDelete (txid : Int) (s : DbService C W) : DbService C W :=
  (s.emit (.sqlExec (.delete txid))).emit (.removeFile txid)

def writeToDiskAndSql (tran : Transaction) (s : DbService C W) : DbService C W :=
  let msg := createDbtlMsg kData tran.txid (some (encodeSet tran.writeSet))
  (s.emit (.writeFile tran.txid msg)).emit
    (.sqlExec (.insert tran.txid tran.lsn (toString tran.txid)))

/-- The insertions of `cacheRWSet`. -/
def insertAll (ops : Wcheck W) (lsn : Int) : List Data → W → Option W
  | [], w => some w
  | it :: rest, w => (ops.insert w it.key lsn).bind (insertAll ops lsn rest)

/-- `cacheRWSet` on the transaction at address `p`. -/
def cacheRWSet (ops : Wcheck W) (p : Nat) (s : DbService C W) : DbService C W :=
  match s.heap p with
  | none => s.crash
  | some tran =>
      let s := s.emit (.cacheRWSet tran)
      match insertAll ops tran.lsn tran.writeSet s.wcheck with
      | none => s.crash
      | some w => { s with wcheck := w }.sendLog tran

/-- One of the two loops of `judgeLocalConflict`. -/
def checkSet (ops : Wcheck W) (lsn : Int) :
    List Data → W → Option (W × List String × Bool)
  | [], w => some (w, [], false)
  | it :: rest, w =>
      (ops.delLessThan w it.key lsn).bind fun w' =>
        if ops.exist w' it.key then some (w', [it.key], true)
        else (checkSet ops lsn rest w').map fun r => (r.1, it.key :: r.2.1, r.2.2)

@[simp] theorem checkSet_nil (ops : Wcheck W) (lsn : Int) (w : W) :
    checkSet ops lsn [] w = some (w, [], false) := rfl

/-- The two loops of `judgeLocalConflict`: the new table, the keys purged and
`haveConflict`. -/
def localCheck (ops : Wcheck W) (tran : Transaction) (w : W) :
    Option (W × List String × Bool) :=
  (checkSet ops tran.lsn tran.readSet w).bind fun r =>
    if r.2.2 then some r
    else (checkSet ops tran.lsn tran.writeSet r.1).map fun r' =>
      (r'.1, r.2.1 ++ r'.2.1, r'.2.2)

/-- The pass branch of `judgeLocalConflict`. -/
def localPass (ops : Wcheck W) (p : Nat) (tran : Transaction)
    (s : DbService C W) : DbService C W :=
  let s := { s with
    dbtmTable := s.dbtmTable.insert tran.txid p
    txidTrans := s.txidTrans.erase tran.txid }
  let s := s.emit (.sqlExec (.updateNeedLocalConflict tran.txid))
  if tran.needGlobalConflct then s.judgeGlobalConflict tran.txid
  else s.cacheRWSet ops p

/-- The conflict branch of `judgeLocalConflict`. The transaction is read again
after `retResult`, which may have freed it. -/
def localFail (p : Nat) (tran : Transaction) (s : DbService C W) :
    DbService C W :=
  (s.retResult kTranFail tran.txid).andThen fun s =>
    match s.heap p with
    | none => s.crash
    | some tran =>
        if tran.needGlobalConflct then
          s.emit (.sendGtm (createGtmMsg kJudgeConflit tran.txid true))
        else s

/-- `judgeLocalConflict` on the transaction at address `p`. -/
def judgeLocalConflict (ops : Wcheck W) (p : Nat) (s : DbService C W) :
    DbService C W :=
  match s.heap p with
  | none => s.crash
  | some tran =>
      let s := s.writeToDiskAndSql tran
      match localCheck ops tran s.wcheck with
      | none => s.crash
      | some r =>
          let s := { s with wcheck := r.1 }.emit (.judged tran r.2.1 r.2.2)
          if r.2.2 then s.localFail p tran else s.localPass ops p tran

/-- `Dbtm::solve`. -/
def solve (ops : Wcheck W) (data : DbtmMsg) (s : DbService C W) :
    DbService C W :=
  match data.cmd with
  | kJudgeConflit =>
      if !data.isGlobalConflict then
        match s.dbtmTable.find data.txid with
        | none => { s with dbtmTable := s.dbtmTable.touch data.txid }.crash
        | some p =>
            (s.cacheRWSet ops p).andThen
              (emit (.sqlExec (.updateNeedGlobalConflict data.txid)))
      else (s.sqlDelete data.txid).retResult kTranFail data.txid
  | _ => s

end DbService

end Grit
