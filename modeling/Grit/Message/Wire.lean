import Grit.Library.FlatObjects
import Grit.Message.Basic

/-!
# The messages as bytes

The builders and accessors of `net_generated.h`, and the sequence of calls with which the
components build a message: the strings and vectors it refers to, its table, the table
`RootMsg` around it, `Finish`. A message that was built is read back as it was, also when
the bytes of the next message follow in the same buffer.
-/

namespace Grit.Wire

open Bytes FlatBuffers

/-- The commands as the integers of `headerCmd.h`. -/
def code : Cmd → Int
  | .kGetTxid => 101
  | .kTxid => 103
  | .kAdd => 104
  | .kChange => 105
  | .kDelete => 106
  | .kSearch => 107
  | .kCommit => 108
  | .kData => 109
  | .kTranSuccess => 110
  | .kTranFail => 111
  | .kJudgeConflit => 112
  | .kLsn => 113
  | .kExecTranSucc => 114
  | .kExecTranFail => 115
  | .kLog => 116
  | .other n => n

def cmdOf (n : Int) : Cmd :=
  if n = 101 then .kGetTxid
  else if n = 103 then .kTxid
  else if n = 104 then .kAdd
  else if n = 105 then .kChange
  else if n = 106 then .kDelete
  else if n = 107 then .kSearch
  else if n = 108 then .kCommit
  else if n = 109 then .kData
  else if n = 110 then .kTranSuccess
  else if n = 111 then .kTranFail
  else if n = 112 then .kJudgeConflit
  else if n = 113 then .kLsn
  else if n = 114 then .kExecTranSucc
  else if n = 115 then .kExecTranFail
  else if n = 116 then .kLog
  else .other n

/-- The tables that a component sends, those to the storage servers included. -/
inductive Msg where
  | server (m : RootMsg)
  | dbMsg (m : DbMsg)
deriving DecidableEq, Repr

/-! ### Builders -/

def int32 (field : Nat) (value : Int) : Add := .element 4 field (unsigned 4 value) 0

def bool (field : Nat) (value : Bool) : Add := .element 1 field value.toNat 0

def createGtmMsg (cmd : Cmd) (txid : Int) (isLocalConflict : Bool) (transType : Nat) :
    Build Nat :=
  table [.offset 10 transType, int32 6 txid, int32 4 (code cmd), bool 8 isLocalConflict]

def createIpAndPort (ip : Nat) (port : Int) : Build Nat :=
  table [int32 6 port, .offset 4 ip]

def createAppMsg (cmd : Cmd) (txid : Int) (list : Nat) : Build Nat :=
  table [.offset 8 list, int32 6 txid, int32 4 (code cmd)]

def createESMsg (cmd : Cmd) (txid : Int) (needGlobalConflict : Bool) (type : Int)
    (key attr val : Nat) : Build Nat :=
  table [.offset 16 val, .offset 14 attr, .offset 12 key, int32 10 type, int32 6 txid,
    int32 4 (code cmd), bool 8 needGlobalConflict]

def createData (key attr value : Nat) : Build Nat :=
  table [.offset 8 value, .offset 6 attr, .offset 4 key]

def createDbMsg (txid : Int) (writeSet : Nat) : Build Nat :=
  table [.offset 6 writeSet, int32 4 txid]

def createDbServiceMsg (cmd : Cmd) (txid : Int) (needGlobalConflict : Bool)
    (readSet writeSet : Nat) : Build Nat :=
  table [.offset 12 writeSet, .offset 10 readSet, int32 6 txid, int32 4 (code cmd),
    bool 8 needGlobalConflict]

def createDbtlMsg (cmd : Cmd) (txid : Int) (data : Nat) : Build Nat :=
  table [.offset 8 data, int32 6 txid, int32 4 (code cmd)]

def createDbtmMsg (cmd : Cmd) (txid : Int) (isGlobalConflict : Bool) (lsn : Int) : Build Nat :=
  table [int32 10 lsn, int32 6 txid, int32 4 (code cmd), bool 8 isGlobalConflict]

def createLogPlayerMsg (cmd : Cmd) (txid id : Int) : Build Nat :=
  table [int32 8 id, int32 6 txid, int32 4 (code cmd)]

def createRootMsg (anyType any : Nat) : Build Nat :=
  table [.offset 6 any, .element 1 4 anyType 0]

/-- The bytes of a string. -/
def bytes (s : String) : List UInt8 := s.toByteArray.data.toList

/-- An argument that is left out is the null offset. -/
def optional {α : Type} (create : α → Build Nat) : Option α → Build Nat
  | none => pure 0
  | some a => create a

def createString (s : String) : Build Nat := FlatBuffers.createString (bytes s)

/-- The loop that builds the items of a vector, with the strings of each before its table. -/
def createAll {α : Type} (create : α → Build Nat) : List α → Build (List Nat)
  | [] => pure []
  | a :: l => do
      let o ← create a
      let offs ← createAll create l
      return o :: offs

def createVector {α : Type} (create : α → Build Nat) (l : List α) : Build Nat := do
  let offs ← createAll create l
  FlatBuffers.createVector offs

def data (d : FlatData) : Build Nat := do
  let key ← optional createString d.key
  let attr ← optional createString d.attr
  let value ← optional createString d.value
  createData key attr value

def ipAndPort (server : IpAndPort) : Build Nat := do
  let ip ← createString server.ip
  createIpAndPort ip server.port

/-- The table of a message, after everything it refers to. -/
def object : Msg → Build Nat
  | .server (.gtmMsg m) => do
      let transType ← optional createString m.transType
      createGtmMsg m.cmd m.txid m.isLocalConflict transType
  | .server (.appMsg m) => do
      let list ← optional (createVector ipAndPort) m.list
      createAppMsg m.cmd m.txid list
  | .server (.dbServiceMsg m) => do
      let readSet ← optional (createVector data) m.readSet
      let writeSet ← optional (createVector data) m.writeSet
      createDbServiceMsg m.cmd m.txid m.needGlobalConflict readSet writeSet
  | .server (.dbtlMsg m) => do
      let data ← optional (createVector data) m.data
      createDbtlMsg m.cmd m.txid data
  | .server (.esMsg m) => do
      let key ← optional createString m.key
      let attr ← optional createString m.attr
      let val ← optional createString m.val
      createESMsg m.cmd m.txid m.needGlobalConflict m.type key attr val
  | .server (.dbtmMsg m) => createDbtmMsg m.cmd m.txid m.isGlobalConflict m.lsn
  | .server (.logPlayerMsg m) => createLogPlayerMsg m.cmd m.txid m.id
  | .dbMsg m => do
      let writeSet ← optional (createVector data) m.writeSet
      createDbMsg m.txid writeSet

/-- The enumeration `Msg` of `net_generated.h`. -/
def tag : Msg → Nat
  | .server (.gtmMsg _) => 1
  | .server (.appMsg _) => 2
  | .server (.dbServiceMsg _) => 3
  | .server (.dbtlMsg _) => 4
  | .server (.esMsg _) => 6
  | .server (.dbtmMsg _) => 7
  | .dbMsg _ => 8
  | .server (.logPlayerMsg _) => 9

def build (m : Msg) : Build Unit := do
  let any ← object m
  let root ← createRootMsg (tag m) any
  finish root

/-- The bytes of a message, unless an assertion of the builder fails. -/
def encode (asserts : Bool) (m : Msg) : Option (List UInt8) :=
  (build m asserts Builder.init).map fun result => result.2.buf

/-! ### Accessors -/

def getInt32 (field : Nat) : Reader Int := fun bs p => do
  let word ← getField 4 field 0 bs p
  some (signed 4 word)

def getBool (field : Nat) : Reader Bool := fun bs p => do
  let byte ← getField 1 field 0 bs p
  some (byte != 0)

def getCmd : Reader Cmd := fun bs p => do
  let n ← getInt32 4 bs p
  some (cmdOf n)

def getString : Reader String := fun bs p => do
  let str ← string bs p
  String.fromUTF8? ⟨str.toArray⟩

def readGtmMsg : Reader GtmMsg := fun bs p => do
  let cmd ← getCmd bs p
  let txid ← getInt32 6 bs p
  let isLocalConflict ← getBool 8 bs p
  let transType ← getPointer 10 getString bs p
  some { cmd, txid, isLocalConflict, transType }

/-- The address is used without a check for null. -/
def readIpAndPort : Reader IpAndPort := fun bs p => do
  let ip ← getPointer 4 getString bs p
  let port ← getInt32 6 bs p
  ip.map fun ip => { ip, port }

def readAppMsg : Reader AppMsg := fun bs p => do
  let cmd ← getCmd bs p
  let txid ← getInt32 6 bs p
  let list ← getPointer 8 (vector readIpAndPort) bs p
  some { cmd, txid, list }

def readESMsg : Reader ESMsg := fun bs p => do
  let cmd ← getCmd bs p
  let txid ← getInt32 6 bs p
  let needGlobalConflict ← getBool 8 bs p
  let type ← getInt32 10 bs p
  let key ← getPointer 12 getString bs p
  let attr ← getPointer 14 getString bs p
  let val ← getPointer 16 getString bs p
  some { cmd, txid, needGlobalConflict, type, key, attr, val }

def readData : Reader FlatData := fun bs p => do
  let key ← getPointer 4 getString bs p
  let attr ← getPointer 6 getString bs p
  let value ← getPointer 8 getString bs p
  some { key, attr, value }

def readDbMsg : Reader DbMsg := fun bs p => do
  let txid ← getInt32 4 bs p
  let writeSet ← getPointer 6 (vector readData) bs p
  some { txid, writeSet }

def readDbServiceMsg : Reader DbServiceMsg := fun bs p => do
  let cmd ← getCmd bs p
  let txid ← getInt32 6 bs p
  let needGlobalConflict ← getBool 8 bs p
  let readSet ← getPointer 10 (vector readData) bs p
  let writeSet ← getPointer 12 (vector readData) bs p
  some { cmd, txid, needGlobalConflict, readSet, writeSet }

def readDbtlMsg : Reader DbtlMsg := fun bs p => do
  let cmd ← getCmd bs p
  let txid ← getInt32 6 bs p
  let data ← getPointer 8 (vector readData) bs p
  some { cmd, txid, data }

def readDbtmMsg : Reader DbtmMsg := fun bs p => do
  let cmd ← getCmd bs p
  let txid ← getInt32 6 bs p
  let isGlobalConflict ← getBool 8 bs p
  let lsn ← getInt32 10 bs p
  some { cmd, txid, isGlobalConflict, lsn }

def readLogPlayerMsg : Reader LogPlayerMsg := fun bs p => do
  let cmd ← getCmd bs p
  let txid ← getInt32 6 bs p
  let id ← getInt32 8 bs p
  some { cmd, txid, id }

/-- The field `any` as a table of one type, which is used without a check for null. -/
def getAny {α : Type} (read : Reader α) (wrap : α → Msg) : Reader Msg := fun bs p => do
  let any ← getPointer 6 read bs p
  any.map wrap

/-- The accessor of `any` that goes with its type. -/
def getAnyAs (anyType : Nat) : Reader Msg :=
  match anyType with
  | 1 => getAny readGtmMsg fun m => .server (.gtmMsg m)
  | 2 => getAny readAppMsg fun m => .server (.appMsg m)
  | 3 => getAny readDbServiceMsg fun m => .server (.dbServiceMsg m)
  | 4 => getAny readDbtlMsg fun m => .server (.dbtlMsg m)
  | 6 => getAny readESMsg fun m => .server (.esMsg m)
  | 7 => getAny readDbtmMsg fun m => .server (.dbtmMsg m)
  | 8 => getAny readDbMsg .dbMsg
  | 9 => getAny readLogPlayerMsg fun m => .server (.logPlayerMsg m)
  | _ => fun _ _ => none

def readRootMsg : Reader Msg := fun bs p => do
  let anyType ← getField 1 4 0 bs p
  getAnyAs anyType bs p

/-- The message at the beginning of a buffer. -/
def decode (bs : List UInt8) : Option Msg := getRoot readRootMsg bs

end Grit.Wire
