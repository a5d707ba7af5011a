import Mathlib.Logic.Function.Basic

/-!
# Commands and messages

The commands of `headerCmd.h` and the tables of `net.fbs`. A FlatBuffers field
of a scalar type that was not set reads as its default, so it is a plain field
here; an offset field (a string or a vector) that was not set reads as null, so
it is an `Option`. The `create` functions take their arguments in the order of
the generated header, with its defaults.
-/

namespace Grit

/-- The command constants of `headerCmd.h`, which are pairwise distinct. Any
other integer in a `cmd` field is `other`. -/
inductive Cmd where
  | kGetTxid
  | kTxid
  | kAdd
  | kChange
  | kDelete
  | kSearch
  | kCommit
  | kData
  | kTranSuccess
  | kTranFail
  | kJudgeConflit
  | kLsn
  | kExecTranSucc
  | kExecTranFail
  | kLog
  | other (code : Int)
deriving DecidableEq, Repr

structure GtmMsg where
  cmd : Cmd
  txid : Int
  isLocalConflict : Bool
  transType : Option String
deriving DecidableEq, Repr

structure IpAndPort where
  ip : String
  port : Int
deriving DecidableEq, Repr

structure AppMsg where
  cmd : Cmd
  txid : Int
  list : Option (List IpAndPort)
deriving DecidableEq, Repr

structure ESMsg where
  cmd : Cmd
  txid : Int
  needGlobalConflict : Bool
  type : Int
  key : Option String
  attr : Option String
  val : Option String
deriving DecidableEq, Repr

/-- The table `Data` of `net.fbs`, as it travels in a message; `attr` is its
field `attribute`. -/
structure FlatData where
  key : Option String
  attr : Option String
  value : Option String
deriving DecidableEq, Repr

structure DbServiceMsg where
  cmd : Cmd
  txid : Int
  needGlobalConflict : Bool
  readSet : Option (List FlatData)
  writeSet : Option (List FlatData)
deriving DecidableEq, Repr

/-- The items of the read set; a vector that was not set has none. -/
def DbServiceMsg.reads (d : DbServiceMsg) : List FlatData := d.readSet.getD []

def DbServiceMsg.writes (d : DbServiceMsg) : List FlatData := d.writeSet.getD []

structure DbtlMsg where
  cmd : Cmd
  txid : Int
  data : Option (List FlatData)
deriving DecidableEq, Repr

structure DbtmMsg where
  cmd : Cmd
  txid : Int
  isGlobalConflict : Bool
  lsn : Int
deriving DecidableEq, Repr

structure DbMsg where
  txid : Int
  writeSet : Option (List FlatData)
deriving DecidableEq, Repr

structure LogPlayerMsg where
  cmd : Cmd
  txid : Int
  id : Int
deriving DecidableEq, Repr

/-- The union `Msg` of `net.fbs`, restricted to the tables that a modelled
server receives. -/
inductive RootMsg where
  | gtmMsg (m : GtmMsg)
  | appMsg (m : AppMsg)
  | dbServiceMsg (m : DbServiceMsg)
  | dbtlMsg (m : DbtlMsg)
  | esMsg (m : ESMsg)
  | dbtmMsg (m : DbtmMsg)
  | logPlayerMsg (m : LogPlayerMsg)
deriving DecidableEq, Repr

def createGtmMsg (cmd : Cmd) (txid : Int) (isLocalConflict : Bool := false)
    (transType : Option String := none) : GtmMsg :=
  { cmd, txid, isLocalConflict, transType }

def createAppMsg (cmd : Cmd) (txid : Int)
    (list : Option (List IpAndPort) := none) : AppMsg :=
  { cmd, txid, list }

def createESMsg (cmd : Cmd) (txid : Int) (needGlobalConflict : Bool := false)
    (type : Int := 0) (key : Option String := none)
    (attr : Option String := none) (val : Option String := none) : ESMsg :=
  { cmd, txid, needGlobalConflict, type, key, attr, val }

def createData (key : Option String) (attr : Option String := none)
    (value : Option String := none) : FlatData :=
  { key, attr, value }

def createDbServiceMsg (cmd : Cmd) (txid : Int)
    (needGlobalConflict : Bool := false)
    (readSet : Option (List FlatData) := none)
    (writeSet : Option (List FlatData) := none) : DbServiceMsg :=
  { cmd, txid, needGlobalConflict, readSet, writeSet }

def createDbtlMsg (cmd : Cmd) (txid : Int)
    (data : Option (List FlatData) := none) : DbtlMsg :=
  { cmd, txid, data }

def createDbtmMsg (cmd : Cmd) (txid : Int) (isGlobalConflict : Bool := false)
    (lsn : Int := 0) : DbtmMsg :=
  { cmd, txid, isGlobalConflict, lsn }

def createDbMsg (txid : Int) (writeSet : Option (List FlatData) := none) : DbMsg :=
  { txid, writeSet }

/-- A vector that is decoded item by item is encoded to itself. -/
theorem map_of_mapM {α β : Type*} {decode : α → Option β} {encode : β → α}
    (hcodec : ∀ a b, decode a = some b → encode b = a) {l : List α} {l' : List β}
    (h : l.mapM decode = some l') : l'.map encode = l := by
  induction l generalizing l' with
  | nil =>
      have hnil : l' = [] := by simpa using h.symm
      subst hnil
      rfl
  | cons a l ih =>
      simp only [List.mapM_cons, Option.bind_eq_bind, Option.bind_eq_some_iff] at h
      obtain ⟨b, hb, rest, hrest, heq⟩ := h
      obtain rfl := Option.some.inj heq
      rw [List.map_cons, hcodec a b hb, ih hrest]

end Grit
