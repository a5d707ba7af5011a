import Grit.Library.Stores
import Grit.Message.Basic

/-!
# The global transaction manager

The functions of `gtm.cc` and the message handler of `gtmmain.cc`, as
operations on the state of the GTM. The counter `txid_` is an `int` that wraps
around, and its initial value is a parameter, since the source never assigns one.
`transInfo` is total: a type that the configuration does not name reads as the
empty list, which is also what `transInfo_[transType]` creates for it.

`out` records the messages sent, oldest first, each with its connection.
Following the null pointer that `table_[txid]` returns for an unknown
transaction ends the process.
-/

namespace Grit

open Cmd

/-- `struct txidInfo`, with connections of type `C`. -/
structure TxidInfo (C : Type*) where
  serverNum : Int
  connList : List C
  isConflict : Bool
deriving DecidableEq, Repr

namespace TxidInfo

variable {C : Type*}

def init (num : Int) : TxidInfo C :=
  { serverNum := num, connList := [], isConflict := false }

/-- The update of an entry by one vote. -/
def vote (conn : C) (isLocalConflict : Bool) (info : TxidInfo C) : TxidInfo C :=
  { serverNum := info.serverNum - 1
    connList := info.connList ++ [conn]
    isConflict := info.isConflict || isLocalConflict }

end TxidInfo

/-- A GTM process. -/
structure Gtm (C : Type*) where
  txid : BitVec 32
  transInfo : String → List IpAndPort
  table : PtrMap Int (TxidInfo C)
  out : List (C × RootMsg)
  crashed : Bool

namespace Gtm

variable {C : Type*}

def init (transInfo : String → List IpAndPort) (txid : BitVec 32) : Gtm C :=
  { txid, transInfo, table := PtrMap.empty, out := [], crashed := false }

/-- The answer to `kGetTxid`: the transaction id and the participants. -/
def txidReply (txid : Int) (list : List IpAndPort) : RootMsg :=
  .appMsg (createAppMsg kTxid txid (some list))

/-- The decision on a transaction. -/
def decision (txid : Int) (isConflict : Bool) : RootMsg :=
  .dbtmMsg (createDbtmMsg kJudgeConflit txid isConflict)

def getTxid (conn : C) (transType : String) (g : Gtm C) : Gtm C :=
  let list := g.transInfo transType
  { g with
    table :=
      if list.length > 1 then g.table.insert g.txid.toInt (TxidInfo.init list.length)
      else g.table
    txid := g.txid + 1
    out := g.out ++ [(conn, txidReply g.txid.toInt list)] }

def judgeConflict (conn : C) (data : GtmMsg) (g : Gtm C) : Gtm C :=
  match g.table.find data.txid with
  | none => { g with table := g.table.touch data.txid, crashed := true }
  | some info =>
      let info := info.vote conn data.isLocalConflict
      if info.serverNum = 0 then
        { g with
          table := g.table.erase data.txid
          out := g.out ++ info.connList.map fun conn =>
            (conn, decision data.txid info.isConflict) }
      else { g with table := g.table.insert data.txid info }

/-- The message handler. It reads every message as a `GtmMsg`, and no peer
sends it another table. -/
def onMessage (conn : C) (msg : RootMsg) (g : Gtm C) : Gtm C :=
  match msg with
  | .gtmMsg data =>
      match data.cmd with
      | kGetTxid =>
          match data.transType with
          | none => { g with crashed := true }
          | some transType => g.getTxid conn transType
      | kJudgeConflit => g.judgeConflict conn data
      | _ => g
  | _ => g

/-! ### The counter -/

/-- The id of the transaction with the number `k`, if the counter starts with `first`. -/
def idOf (first : BitVec 32) (k : Nat) : Int := (first + BitVec.ofNat 32 k).toInt

/-- Two readings of the counter. -/
theorem readings_eq_iff (t : BitVec 32) (n n' : Nat) :
    t + BitVec.ofNat 32 n = t + BitVec.ofNat 32 n' ↔ n % 4294967296 = n' % 4294967296 := by
  rw [BitVec.add_right_inj, ← BitVec.toNat_inj, BitVec.toNat_ofNat, BitVec.toNat_ofNat]

theorem idOf_eq_iff (first : BitVec 32) (j k : Nat) :
    idOf first j = idOf first k ↔ j % 4294967296 = k % 4294967296 :=
  BitVec.toInt_inj.trans (readings_eq_iff first j k)

/-! ### Runs -/

/-- A message as it arrives at the GTM. -/
structure Arrival (C : Type*) where
  conn : C
  msg : RootMsg

/-- A GTM that has ended takes no further message. -/
def receive (g : Gtm C) (a : Arrival C) : Gtm C :=
  if g.crashed then g else g.onMessage a.conn a.msg

def run (g : Gtm C) (l : List (Arrival C)) : Gtm C := l.foldl receive g

end Gtm

end Grit
