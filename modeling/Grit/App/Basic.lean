import Grit.Message.Basic

/-!
# The application

The functions of `app.cc`, as operations on the state of an application with
connections of type `C` to entity services. `out` records what the application does,
oldest first: the requests to the GTM, the clients that `connect2ES` creates and the
messages to entity services. An uncaught exception (`stoi`, `substr`), a null pointer and
`front()` of an empty list end the process.

Strings are lists of characters. The value of `cmd` in `add` after an unknown command
word is not defined by the source and is a parameter, as is the first value of `txid_`.
-/

namespace Grit

open Cmd

/-- What an application does. -/
inductive AppEvent (C : Type*) where
  | sendGtm (m : GtmMsg)
  | connect (address : IpAndPort)
  | sendEs (conn : C) (m : ESMsg)
deriving DecidableEq, Repr

/-- An application process; `gtmConn` tells whether `gtmConn_` has been set. -/
structure App (C : Type*) where
  gtmConn : Bool
  txid : Int
  connList : List C
  out : List (AppEvent C)
  crashed : Bool

namespace App

/-! ### The statement parser -/

/-- The loop `while (pos2 < len && str[pos2] != ' ') pos2++`, which makes fewer steps
than the string has characters. -/
def scanLoop (str : List Char) : Nat → Nat → Nat
  | 0, pos => pos
  | fuel + 1, pos =>
      match str[pos]? with
      | none => pos
      | some c => if c ≠ ' ' then scanLoop str fuel (pos + 1) else pos

def scan (str : List Char) (pos : Nat) : Nat := scanLoop str str.length pos

/-- `std::string::substr`, which throws if the position is beyond the end. -/
def substr (str : List Char) (pos len : Nat) : Option (List Char) :=
  if pos ≤ str.length then some ((str.drop pos).take len) else none

/-- The characters that `c_str()` shows to `strcmp`. -/
def cStr (str : List Char) : List Char := str.takeWhile fun c => c ≠ '\x00'

def isSpace (c : Char) : Bool := c ∈ [' ', '\t', '\n', '\x0b', '\x0c', '\r']

/-- The sign that `stoi` accepts, and what follows it. -/
def sign : List Char → Int × List Char
  | '-' :: str => (-1, str)
  | '+' :: str => (1, str)
  | str => (1, str)

def digits (str : List Char) : Int :=
  str.foldl (fun n c => 10 * n + (c.toNat - '0'.toNat : Nat)) 0

/-- `std::stoi`, which throws if there is no number or it is not an `int`. -/
def stoi (str : List Char) : Option Int :=
  let signed := sign (str.dropWhile isSpace)
  let number := signed.2.takeWhile Char.isDigit
  let value := signed.1 * digits number
  if number = [] then none
  else if -2147483648 ≤ value ∧ value ≤ 2147483647 then some value
  else none

/-- The command of the first word; `cmd` is what the variable holds before. -/
def command (cmd : Cmd) (type : List Char) : Cmd :=
  if cStr type = "add".toList then kAdd
  else if cStr type = "delete".toList then kDelete
  else if cStr type = "Change".toList then kChange
  else if cStr type = "Search".toList then kSearch
  else cmd

/-- The field at `pos1`, and the position after the blank that ends it. -/
def field (str : List Char) (pos1 : Nat) : Option (List Char × Nat) :=
  let pos2 := scan str pos1
  (substr str pos1 (pos2 - pos1)).map fun s => (s, pos2 + 1)

/-- The message that `add` builds for a statement. -/
def statement (cmd : Cmd) (txid : Int) (str : List Char) : Option ESMsg := do
  let (type, pos1) ← field str 0
  let cmd := command cmd type
  let (typ, pos1) ← field str pos1
  let typ ← stoi typ
  let (key, pos1) ← field str pos1
  if cmd = kAdd ∨ cmd = kChange then
    let (attr, pos1) ← field str pos1
    let (val, _) ← field str pos1
    return createESMsg cmd txid false typ (some (String.ofList key))
      (some (String.ofList attr)) (some (String.ofList val))
  else
    return createESMsg cmd txid false typ (some (String.ofList key))

/-- The characters up to the first blank. -/
def firstWord (str : List Char) : List Char := str.takeWhile fun c => c ≠ ' '

theorem scanLoop_eq (str : List Char) (fuel pos : Nat) (h : str.length ≤ pos + fuel) :
    scanLoop str fuel pos = pos + (firstWord (str.drop pos)).length := by
  induction fuel generalizing pos with
  | zero =>
      have hle : str.length ≤ pos := h
      rw [scanLoop, List.drop_eq_nil_of_le hle]
      rfl
  | succ fuel ih =>
      unfold scanLoop
      cases hc : str[pos]? with
      | none =>
          have hle : str.length ≤ pos := List.getElem?_eq_none_iff.1 hc
          rw [List.drop_eq_nil_of_le hle]
          rfl
      | some c =>
          obtain ⟨hlt, rfl⟩ := List.getElem?_eq_some_iff.1 hc
          rw [List.drop_eq_getElem_cons hlt]
          by_cases hblank : str[pos] = ' '
          · simp [firstWord, hblank]
          · have hcons : firstWord (str[pos] :: str.drop (pos + 1)) =
                str[pos] :: firstWord (str.drop (pos + 1)) := by
              exact List.takeWhile_cons_of_pos (by simpa using hblank)
            dsimp only
            rw [if_pos hblank, ih (pos + 1) (by omega), hcons, List.length_cons]
            omega

/-- The first field is the first word. -/
theorem field_zero (str : List Char) :
    field str 0 = some (firstWord str, (firstWord str).length + 1) := by
  have hscan : scan str 0 = (firstWord str).length := by
    rw [scan, scanLoop_eq str str.length 0 (by omega), List.drop_zero, Nat.zero_add]
  have htake : str.take (firstWord str).length = firstWord str :=
    (List.prefix_iff_eq_take.1 (List.takeWhile_prefix _)).symm
  simp [field, hscan, substr, htake]

/-- The fields of a statement: the command of its first word, the transaction id, a key,
and the attribute and the value just for the commands `kAdd` and `kChange`. -/
structure IsStatement (cmd : Cmd) (txid : Int) (str : List Char) (m : ESMsg) : Prop where
  cmd : m.cmd = command cmd (firstWord str)
  txid : m.txid = txid
  key : ∃ key, m.key = some key
  carried : m.cmd = kAdd ∨ m.cmd = kChange → ∃ attr val, m.attr = some attr ∧ m.val = some val
  bare : ¬ (m.cmd = kAdd ∨ m.cmd = kChange) → m.attr = none ∧ m.val = none

theorem isStatement_of_statement {cmd : Cmd} {txid : Int} {str : List Char} {m : ESMsg}
    (h : statement cmd txid str = some m) : IsStatement cmd txid str m := by
  simp only [statement, field_zero, Option.bind_eq_bind, Option.bind_some,
    Option.bind_eq_some_iff] at h
  obtain ⟨⟨typ, pos₂⟩, -, n, -, ⟨key, pos₃⟩, -, h⟩ := h
  split at h
  · rename_i hcmd
    simp only [Option.bind_eq_some_iff] at h
    obtain ⟨⟨attr, pos₄⟩, -, ⟨val, pos₅⟩, -, h⟩ := h
    obtain rfl := Option.some.inj h
    exact ⟨rfl, rfl, ⟨_, rfl⟩, fun _ => ⟨_, _, rfl, rfl⟩, fun hno => absurd hcmd hno⟩
  · rename_i hcmd
    obtain rfl := Option.some.inj h
    exact ⟨rfl, rfl, ⟨_, rfl⟩, fun hyes => absurd hyes hcmd, fun _ => ⟨rfl, rfl⟩⟩

/-! ### The application -/

variable {C : Type*}

def init (txid : Int) : App C :=
  { gtmConn := false, txid, connList := [], out := [], crashed := false }

def onGtmConnection (a : App C) : App C := { a with gtmConn := true }

def connect2ES (data : Option (List IpAndPort)) (a : App C) : App C :=
  match data with
  | none => { a with crashed := true }
  | some list => { a with out := a.out ++ list.map AppEvent.connect }

/-- The handler of messages of the GTM, which reads every message as an `AppMsg`. -/
def onMessage (msg : RootMsg) (a : App C) : App C :=
  match msg with
  | .appMsg data =>
      match data.cmd with
      | kTxid => { a with txid := data.txid }.connect2ES data.list
      | _ => a
  | _ => a

/-- The callback of a connection to an entity service. The network library calls it when
the connection is established and when it is closed. -/
def onESConnection (conn : C) (a : App C) : App C :=
  { a with connList := a.connList ++ [conn] }

/-- A statement is sent over the first connection. -/
def add (cmd : Cmd) (str : String) (a : App C) : App C :=
  match statement cmd a.txid str.toList with
  | none => { a with crashed := true }
  | some m =>
      match a.connList with
      | [] => { a with crashed := true }
      | conn :: _ => { a with out := a.out ++ [.sendEs conn m] }

/-- The message that `commit` builds. -/
def commitMsg (a : App C) : ESMsg :=
  createESMsg kCommit a.txid (if a.connList.length = 1 then false else true)

def commit (a : App C) : App C :=
  { a with out := a.out ++ a.connList.map fun conn => .sendEs conn a.commitMsg }

def startTran (type : String) (a : App C) : App C :=
  if a.gtmConn then
    { a with out := a.out ++ [.sendGtm (createGtmMsg kGetTxid 0 false (some type))] }
  else { a with crashed := true }

/-- An application that has ended does nothing more. -/
def whenLive (f : App C → App C) (a : App C) : App C := if a.crashed then a else f a

end App

end Grit
