import Grit.Library.Stores
import Grit.Message.Basic

/-!
# The entity service

The functions of `es.cc` and the message handler of `esmain.cc`, as operations on the
state of an entity service with connections of type `C`. A field of a message that was
not set reads as null, and following a null pointer ends the process, as does sending
over the connection to the DbService before it is set.
-/

namespace Grit

open Cmd

/-- What an entity service sends. -/
inductive EsEvent (C : Type*) where
  | sendDbs (m : DbServiceMsg)
  | sendApp (conn : C) (m : AppMsg)
deriving DecidableEq, Repr

/-- An entity service process; `dbsConn` tells whether `dbsConn_` has been set. -/
structure ES (C : Type*) where
  table : PtrMap Int C
  dbsConn : Bool
  out : List (EsEvent C)
  crashed : Bool

namespace ES

variable {C : Type*}

def init (dbsConn : Bool) : ES C :=
  { table := PtrMap.empty, dbsConn, out := [], crashed := false }

def onDbsConnection (s : ES C) : ES C := { s with dbsConn := true }

/-- `dbsConn_->send`. -/
def sendDbs (m : DbServiceMsg) (s : ES C) : ES C :=
  if s.dbsConn then { s with out := s.out ++ [.sendDbs m] } else { s with crashed := true }

def forward (data : ESMsg) (s : ES C) : ES C :=
  s.sendDbs (createDbServiceMsg kCommit data.txid data.needGlobalConflict)

/-- The message that `solve` builds for a statement. -/
def translate (msg : ESMsg) : Option DbServiceMsg := do
  let key ← msg.key
  if msg.cmd = kAdd ∨ msg.cmd = kDelete then
    let attr ← msg.attr
    let val ← msg.val
    return createDbServiceMsg kData msg.txid false none
      (some [createData (some key) (some attr) (some val)])
  else
    return createDbServiceMsg kData msg.txid false (some [createData (some key)]) none

/-- `solve` with the translation of statements as a parameter; `none` is a translation
that ends the process. -/
def solveBy (translate : ESMsg → Option DbServiceMsg) (msg : ESMsg) (s : ES C) : ES C :=
  match translate msg with
  | none => { s with crashed := true }
  | some m => s.sendDbs m

def solve (msg : ESMsg) (s : ES C) : ES C := s.solveBy translate msg

def retResult (status : Cmd) (txid : Int) (s : ES C) : ES C :=
  match s.table.find txid with
  | none => { s with table := s.table.touch txid, crashed := true }
  | some conn => { s with out := s.out ++ [.sendApp conn (createAppMsg status txid)] }

/-- The message handler, which reads every message as an `ESMsg`. -/
def onMessageBy (translate : ESMsg → Option DbServiceMsg) (conn : C) (msg : RootMsg)
    (s : ES C) : ES C :=
  match msg with
  | .esMsg data =>
      let s := { s with table := s.table.insert data.txid conn }
      match data.cmd with
      | kAdd => s.solveBy translate data
      | kDelete => s.solveBy translate data
      | kChange => s.solveBy translate data
      | kSearch => s.solveBy translate data
      | kCommit => s.forward data
      | _ => s
  | _ => s

def onMessage (conn : C) (msg : RootMsg) (s : ES C) : ES C := s.onMessageBy translate conn msg

/-! ### What a message leads to -/

/-- The commands of statements. -/
def accepts (cmd : Cmd) : Bool := cmd ∈ [kAdd, kDelete, kChange, kSearch]

/-- The outcomes of a message: the process ends, a statement is passed on as data, a
commit is passed on, or nothing is sent. -/
inductive MessageStep (translate : ESMsg → Option DbServiceMsg) (m : ESMsg) (s : ES C) :
    ES C → Prop where
  | stuck (s' : ES C) (hc : s'.crashed = true) (hout : s'.out = s.out) :
      MessageStep translate m s s'
  | data (hcmd : accepts m.cmd = true) (d : DbServiceMsg) (hd : translate m = some d)
      (s' : ES C) (hc : s'.crashed = s.crashed) (hout : s'.out = s.out ++ [.sendDbs d]) :
      MessageStep translate m s s'
  | commit (hcmd : m.cmd = kCommit) (s' : ES C) (hc : s'.crashed = s.crashed)
      (hout : s'.out = s.out ++
        [.sendDbs (createDbServiceMsg kCommit m.txid m.needGlobalConflict)]) :
      MessageStep translate m s s'
  | skip (hcmd : accepts m.cmd = false) (hcommit : m.cmd ≠ kCommit) (s' : ES C)
      (hc : s'.crashed = s.crashed) (hout : s'.out = s.out) : MessageStep translate m s s'

theorem sendDbs_cases (m : DbServiceMsg) (s : ES C) :
    ((s.sendDbs m).crashed = true ∧ (s.sendDbs m).out = s.out) ∨
      ((s.sendDbs m).crashed = s.crashed ∧ (s.sendDbs m).out = s.out ++ [.sendDbs m]) := by
  unfold sendDbs
  split
  · exact Or.inr ⟨rfl, rfl⟩
  · exact Or.inl ⟨rfl, rfl⟩

theorem solveBy_step (translate : ESMsg → Option DbServiceMsg) {m : ESMsg}
    (hcmd : accepts m.cmd = true) (table : PtrMap Int C) (s : ES C) :
    MessageStep translate m s ({ s with table := table }.solveBy translate m) := by
  unfold solveBy
  cases hd : translate m with
  | none => exact .stuck _ rfl rfl
  | some d =>
      rcases sendDbs_cases d { s with table := table } with ⟨hc, hout⟩ | ⟨hc, hout⟩
      · exact .stuck _ hc hout
      · exact .data hcmd d hd _ hc hout

theorem onMessageBy_step (translate : ESMsg → Option DbServiceMsg) (conn : C) (m : ESMsg)
    (s : ES C) : MessageStep translate m s (s.onMessageBy translate conn (.esMsg m)) := by
  unfold onMessageBy
  dsimp only
  split
  · rename_i hcmd
    exact solveBy_step translate (by rw [hcmd]; rfl) _ s
  · rename_i hcmd
    exact solveBy_step translate (by rw [hcmd]; rfl) _ s
  · rename_i hcmd
    exact solveBy_step translate (by rw [hcmd]; rfl) _ s
  · rename_i hcmd
    exact solveBy_step translate (by rw [hcmd]; rfl) _ s
  · rename_i hcmd
    rcases sendDbs_cases (createDbServiceMsg kCommit m.txid m.needGlobalConflict)
      { s with table := s.table.insert m.txid conn } with ⟨hc, hout⟩ | ⟨hc, hout⟩
    · exact .stuck _ hc hout
    · exact .commit hcmd _ hc hout
  · rename_i h₁ h₂ h₃ h₄ h₅
    have hno : accepts m.cmd = false := by
      simp only [accepts, List.mem_cons, List.not_mem_nil, or_false, decide_eq_false_iff_not,
        not_or]
      exact ⟨h₁, h₂, h₃, h₄⟩
    exact .skip hno h₅ _ rfl rfl

end ES

end Grit
