import Grit.Library.Stores
import Grit.Message.Basic
import Grit.Hash.Wcheck

/-!
# The state of a DbService process

One record holds the fields of `DbService` and of its `Dbtm`. The transactions
live on a heap and are shared by address between `txidTrans`, the table of the
DBTM and the queued tasks; an address is never used twice. Following a null or
a freed pointer ends the process: it sets `crashed`, and what the handler has
done up to there stays done.

`out` records, in order, what a handler does that is visible outside: the
messages it sends, the statements and file operations it issues, the tasks it
queues, and the calls that the results of this development are about.
-/

namespace Grit

/-- `struct Data` of `dbservice.h`; `attr` is its field `attribute`. -/
structure Data where
  key : String
  label : String
  attr : String
  value : String
deriving DecidableEq, Repr

/-- `struct transaction`: `lsn` is `-1` before the lsn is requested, `0` after
that, and the lsn once it has been received. -/
structure Transaction where
  txid : Int
  readSet : List Data
  writeSet : List Data
  needGlobalConflct : Bool
  lsn : Int
  alreadyCommit : Bool
deriving DecidableEq, Repr

namespace Transaction

/-- A new transaction. -/
def init (txid : Int) : Transaction :=
  { txid, readSet := [], writeSet := [], needGlobalConflct := false,
    lsn := -1, alreadyCommit := false }

def readKeys (t : Transaction) : List String := t.readSet.map Data.key

def writeKeys (t : Transaction) : List String := t.writeSet.map Data.key

/-- The keys in the order in which the local check visits them. -/
def keys (t : Transaction) : List String := t.readKeys ++ t.writeKeys

end Transaction

/-- The tasks that `onMessage` queues for the thread pool. A transaction is
queued by its address; a message is taken to keep its bytes until its task has
run. -/
inductive Task where
  | getLsn (txid : Int)
  | judgeLocalConflict (tran : Nat)
  | solve (data : DbtmMsg)
deriving DecidableEq, Repr

/-- The statements of the DBTM on the table `transInfo`. -/
inductive Sql where
  | insert (txid lsn : Int) (fileName : String)
  | delete (txid : Int)
  | updateNeedLocalConflict (txid : Int)
  | updateNeedGlobalConflict (txid : Int)
deriving DecidableEq, Repr

/-- What a handler of a DbService process does that is visible outside, with
ES connections of type `C`. -/
inductive Event (C : Type*) where
  | sendGtm (m : GtmMsg)
  | sendDbtl (m : DbtlMsg)
  | sendEs (conn : C) (m : ESMsg)
  | sqlExec (sql : Sql)
  | writeFile (txid : Int) (m : DbtlMsg)
  | removeFile (txid : Int)
  | enqueue (tran : Transaction)
  | judged (tran : Transaction) (checked : List String) (haveConflict : Bool)
  | cacheRWSet (tran : Transaction)
  | retResult (status : Cmd) (txid : Int)
deriving DecidableEq, Repr

/-- A DbService process with ES connections of type `C` and a conflict table
of type `W`. -/
structure DbService (C W : Type*) where
  table : PtrMap Int C
  txidTrans : PtrMap Int Nat
  tasks : List Task
  dbtmTable : PtrMap Int Nat
  wcheck : W
  heap : Nat → Option Transaction
  next : Nat
  out : List (Event C)
  crashed : Bool

namespace DbService

variable {C W : Type*}

def init (w : W) : DbService C W :=
  { table := PtrMap.empty, txidTrans := PtrMap.empty, tasks := [],
    dbtmTable := PtrMap.empty, wcheck := w, heap := fun _ => none, next := 0,
    out := [], crashed := false }

/-- A null or freed pointer is followed. -/
def crash (s : DbService C W) : DbService C W := { s with crashed := true }

def emit (e : Event C) (s : DbService C W) : DbService C W :=
  { s with out := s.out ++ [e] }

/-- The next statement of a handler runs only if the process has not ended. -/
def andThen (s : DbService C W) (f : DbService C W → DbService C W) :
    DbService C W :=
  if s.crashed then s else f s

/-- `threadPool_->enqueue`. -/
def push (t : Task) (s : DbService C W) : DbService C W :=
  { s with tasks := s.tasks ++ [t] }

/-- An assignment to fields of the transaction at address `p`. -/
def store (p : Nat) (t : Transaction) (s : DbService C W) : DbService C W :=
  { s with heap := Function.update s.heap p (some t) }

/-- `delete` of a pointer, which may be null. -/
def free (p : Option Nat) (s : DbService C W) : DbService C W :=
  match p with
  | none => s
  | some p =>
      match s.heap p with
      | none => s.crash
      | some _ => { s with heap := Function.update s.heap p none }

/-- `txidTrans_[txid]->…`: the statement `f` on the transaction that the map
holds for `txid`. -/
def withTrans (txid : Int) (f : Nat → Transaction → DbService C W → DbService C W)
    (s : DbService C W) : DbService C W :=
  match s.txidTrans.find txid with
  | none => { s with txidTrans := s.txidTrans.touch txid }.crash
  | some p =>
      match s.heap p with
      | none => s.crash
      | some t => f p t s

end DbService

end Grit
