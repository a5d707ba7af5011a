import Grit.App.Basic
import Grit.Gtm.Step

/-!
# Who takes part in a transaction

One application and the GTM. The GTM answers a request with the participants of the
transaction and keeps an entry for it if there are several; the application asks the
entity services it is connected to for the commit, and asks for a global validation
unless it holds exactly one connection. `commit_agrees_iff` tells when the two agree.
-/

namespace Grit

open Cmd

namespace Gtm

variable {C : Type*}

/-- The participants that the GTM has returned for a transaction id, for each time that it has
handed out the id. -/
def returnedLists (x : Int) (out : List (C × RootMsg)) : List (List IpAndPort) :=
  out.filterMap fun m =>
    match m.2 with
    | .appMsg data => if data.cmd = kTxid ∧ data.txid = x then data.list else none
    | _ => none

/-- The participants that it has returned last. -/
def returned (x : Int) (out : List (C × RootMsg)) : List IpAndPort :=
  (returnedLists x out).getLastD []

theorem returnedLists_append (x : Int) (out ms : List (C × RootMsg)) :
    returnedLists x (out ++ ms) = returnedLists x out ++ returnedLists x ms :=
  List.filterMap_append

theorem returnedLists_txidReply (x i : Int) (conn : C) (list : List IpAndPort) :
    returnedLists x [(conn, txidReply i list)] = if i = x then [list] else [] := by
  by_cases h : i = x
  · simp [returnedLists, txidReply, createAppMsg, h]
  · simp [returnedLists, txidReply, createAppMsg, h]

theorem returnedLists_decision (x i : Int) (b : Bool) (conns : List C) :
    returnedLists x (conns.map fun conn => (conn, decision i b)) = [] := by
  simp [returnedLists, decision]

/-- The entry of `x` is one that has just been made, for the participants that were returned. -/
def HasNewEntry (x : Int) (g : Gtm C) : Prop :=
  g.table.find x = some (TxidInfo.init (returned x g.out).length)

/-- Each entry is one of several participants. -/
def Several (g : Gtm C) : Prop :=
  ∀ x info, g.table.find x = some info → 2 ≤ info.serverNum + info.connList.length

theorem Several.step {a : Arrival C} {g g' : Gtm C} (h : Several g) (hstep : Step a g g') :
    Several g' := by
  cases hstep with
  | skip => exact h
  | untyped => exact h
  | register list hv =>
      intro x info hx
      dsimp only at hx
      split at hx
      · rename_i hmany
        rw [PtrMap.find_insert] at hx
        split at hx
        · rw [← Option.some.inj hx]
          simp only [TxidInfo.init, List.length_nil]
          omega
        · exact h x info hx
      · exact h x info hx
  | unknown i v hv hfind =>
      intro x info hx
      rw [PtrMap.find_touch] at hx
      exact h x info hx
  | count i v info hv hfind hn =>
      intro x info' hx
      rw [PtrMap.find_insert] at hx
      split at hx
      · have hold := h i info hfind
        rw [← Option.some.inj hx]
        simp only [TxidInfo.vote, List.length_append, List.length_singleton]
        omega
      · exact h x info' hx
  | close i v info hv hfind hn =>
      intro x info' hx
      rw [PtrMap.find_erase] at hx
      split at hx
      · cases hx
      · exact h x info' hx

theorem HasNewEntry.several {g : Gtm C} (h : Several g) {x : Int} (hnew : HasNewEntry x g) :
    1 < (returned x g.out).length := by
  have htwo := h x _ hnew
  simp only [TxidInfo.init, List.length_nil] at htwo
  omega

/-- A step that hands out an id makes an entry if there are several participants. -/
theorem Step.hasNewEntry {a : Arrival C} {g g' : Gtm C} (hstep : Step a g g') (x : Int) :
    returnedLists x g'.out = returnedLists x g.out ∨
      (1 < (returned x g'.out).length → HasNewEntry x g') := by
  cases hstep with
  | register list hv =>
      by_cases hx : g.txid.toInt = x
      · refine Or.inr fun hmany => ?_
        have hlast : returned x (g.out ++ [(a.conn, txidReply g.txid.toInt list)]) = list := by
          rw [returned, returnedLists_append, returnedLists_txidReply, if_pos hx]
          simp
        rw [HasNewEntry]
        rw [hlast] at hmany ⊢
        dsimp only
        rw [if_pos hmany, hx, PtrMap.find_insert_self]
      · refine Or.inl ?_
        rw [returnedLists_append, returnedLists_txidReply, if_neg hx, List.append_nil]
  | close i v info hv hfind hn =>
      refine Or.inl ?_
      rw [returnedLists_append, returnedLists_decision, List.append_nil]
  | _ => exact Or.inl rfl

end Gtm

/-! ### The application and the GTM -/

namespace App

variable {C : Type*}

/-- The messages by which `commit` commits the transaction, with their receivers. -/
def commitsSent (a : App C) : List (C × ESMsg) :=
  (a.commit.out.drop a.out.length).filterMap fun e =>
    match e with
    | .sendEs conn m => if m.cmd = kCommit ∧ m.txid = a.txid then some (conn, m) else none
    | _ => none

theorem commitsSent_eq (a : App C) :
    a.commitsSent = a.connList.map fun conn => (conn, a.commitMsg) := by
  rw [commitsSent, commit, List.drop_left, List.filterMap_map, ← List.filterMap_eq_map]
  congr 1
  funext conn
  simp [commitMsg, createESMsg]

/-! ### What changes the connections -/

theorem connList_onMessage (msg : RootMsg) (a : App C) :
    (a.onMessage msg).connList = a.connList := by
  unfold onMessage
  split
  · split
    · unfold connect2ES
      split
      · rfl
      · rfl
    · rfl
  · rfl

theorem connList_add (cmd : Cmd) (str : String) (a : App C) :
    (a.add cmd str).connList = a.connList := by
  unfold add
  split
  · rfl
  · split
    · rfl
    · rfl

theorem connList_startTran (type : String) (a : App C) :
    (a.startTran type).connList = a.connList := by
  unfold startTran
  split
  · rfl
  · rfl

theorem connList_whenLive {f : App C → App C} (hf : ∀ a, (f a).connList = a.connList)
    (a : App C) : (a.whenLive f).connList = a.connList := by
  unfold whenLive
  split
  · rfl
  · exact hf a

end App

/-- A connection to an entity service: its client, by the order of creation, and the
address that the client was created for. -/
structure EsConn where
  client : Nat
  peer : IpAndPort
deriving DecidableEq, Repr

/-- One application and the GTM, with the messages on the connection between them in
order. The other peers of the GTM are of type `P`. -/
structure AppGtm (P : Type*) where
  app : App EsConn
  gtm : Gtm (Option P)
  toGtm : List GtmMsg
  toApp : List RootMsg

namespace AppGtm

variable {P : Type*}

def init (transInfo : String → List IpAndPort) (txid : BitVec 32) (appTxid : Int) : AppGtm P :=
  { app := App.init appTxid, gtm := Gtm.init transInfo txid, toGtm := [], toApp := [] }

/-- What can happen: the calls and callbacks of the application, the GTM handles a
message of the application or of another peer, the application handles a reply. -/
inductive Act (P : Type*) where
  | onGtmConnection
  | startTran (type : String)
  | add (cmd : Cmd) (str : String)
  | commit
  | onESConnection (client : Nat)
  | gtm
  | other (p : P) (msg : RootMsg)
  | reply

/-- The addresses of the clients that the application has created. -/
def clients (a : App EsConn) : List IpAndPort :=
  a.out.filterMap fun e =>
    match e with
    | .connect address => some address
    | _ => none

/-- The application goes to the state `a`; its new requests are on their way. -/
def setApp (a : App EsConn) (s : AppGtm P) : AppGtm P :=
  { s with
    app := a
    toGtm := s.toGtm ++ (a.out.drop s.app.out.length).filterMap fun e =>
      match e with
      | .sendGtm m => some m
      | _ => none }

/-- The GTM goes to the state `g`; its new messages to the application are on their
way. -/
def setGtm (g : Gtm (Option P)) (s : AppGtm P) : AppGtm P :=
  { s with
    gtm := g
    toApp := s.toApp ++ (g.out.drop s.gtm.out.length).filterMap fun m =>
      match m.1 with
      | none => some m.2
      | some _ => none }

def step (s : AppGtm P) : Act P → AppGtm P
  | .onGtmConnection => s.setApp (s.app.whenLive App.onGtmConnection)
  | .startTran type => s.setApp (s.app.whenLive (App.startTran type))
  | .add cmd str => s.setApp (s.app.whenLive (App.add cmd str))
  | .commit => s.setApp (s.app.whenLive App.commit)
  | .onESConnection i =>
      match (clients s.app)[i]? with
      | none => s
      | some peer => s.setApp (s.app.whenLive (App.onESConnection ⟨i, peer⟩))
  | .gtm =>
      match s.toGtm with
      | [] => s
      | m :: rest => { s with toGtm := rest }.setGtm (s.gtm.receive ⟨none, .gtmMsg m⟩)
  | .other p msg => s.setGtm (s.gtm.receive ⟨some p, msg⟩)
  | .reply =>
      match s.toApp with
      | [] => s
      | m :: rest => { s with toApp := rest }.setApp (s.app.whenLive (App.onMessage m))

def run (s : AppGtm P) (l : List (Act P)) : AppGtm P := l.foldl step s

theorem run_concat (s : AppGtm P) (l : List (Act P)) (a : Act P) :
    s.run (l ++ [a]) = (s.run l).step a := by
  simp [run]

/-- The entity service whose connection callback runs in a step. -/
def calledBy (s : AppGtm P) : Act P → Option IpAndPort
  | .onESConnection i => if s.app.crashed then none else (clients s.app)[i]?
  | _ => none

/-- The entity services whose connection callbacks run, one entry for each callback of
the run. -/
def called (s : AppGtm P) : List (Act P) → List IpAndPort
  | [] => []
  | a :: l => (calledBy s a).toList ++ called (s.step a) l

/-- The participants that the GTM has returned for the transaction of the application. -/
def participants (s : AppGtm P) : List IpAndPort := Gtm.returned s.app.txid s.gtm.out

/-- In the course of the run the GTM has made an entry for the transaction `x`, and has not handed
out its id again since then. -/
def Created (s : AppGtm P) (l : List (Act P)) (x : Int) : Prop :=
  ∃ pre, pre <+: l ∧ Gtm.HasNewEntry x (s.run pre).gtm ∧
    Gtm.returnedLists x (s.run pre).gtm.out = Gtm.returnedLists x (s.run l).gtm.out

/-- A commit after the run `l` reaches each participant once and no other entity
service, and asks for a global validation if and only if the GTM expects one. -/
structure CommitAgrees (s : AppGtm P) (l : List (Act P)) : Prop where
  receivers : (((s.run l).app.commitsSent.map fun m => m.1.peer).Perm
    (participants (s.run l)))
  global : ∀ m ∈ (s.run l).app.commitsSent,
    (m.2.needGlobalConflict = true ↔ Created s l (s.run l).app.txid)

/-! ### The connections -/

/-- The connections in the list are those of all callbacks so far. -/
theorem connList_step (s : AppGtm P) (a : Act P) :
    (s.step a).app.connList.map EsConn.peer =
      s.app.connList.map EsConn.peer ++ (calledBy s a).toList := by
  have hkeep : ∀ f : App EsConn → App EsConn, (∀ a, (f a).connList = a.connList) →
      (s.app.whenLive f).connList.map EsConn.peer =
        s.app.connList.map EsConn.peer ++ [] := by
    intro f hf
    rw [App.connList_whenLive hf, List.append_nil]
  cases a with
  | onGtmConnection => exact hkeep _ fun _ => rfl
  | startTran type => exact hkeep _ (App.connList_startTran type)
  | add cmd str => exact hkeep _ (App.connList_add cmd str)
  | commit => exact hkeep _ fun _ => rfl
  | onESConnection i =>
      dsimp only [step, calledBy]
      cases hpeer : (clients s.app)[i]? with
      | none => simp
      | some peer =>
          dsimp only [setApp, App.whenLive]
          split
          · simp
          · simp [App.onESConnection]
  | gtm =>
      dsimp only [step, calledBy]
      split
      · simp
      · simp [setGtm]
  | other p msg => simp [step, setGtm, calledBy]
  | reply =>
      dsimp only [step, calledBy]
      split
      · simp
      · exact hkeep _ (App.connList_onMessage _)

theorem connList_run (s : AppGtm P) (l : List (Act P)) :
    (s.run l).app.connList.map EsConn.peer =
      s.app.connList.map EsConn.peer ++ called s l := by
  induction l generalizing s with
  | nil => simp [run, called]
  | cons a l ih =>
      have hrun : s.run (a :: l) = (s.step a).run l := rfl
      rw [hrun, ih, connList_step, called, List.append_assoc]

/-! ### The entries of the GTM -/

/-- The GTM takes at most one message in a step. -/
theorem gtm_step (s : AppGtm P) (a : Act P) :
    (s.step a).gtm = s.gtm ∨ ∃ m, (s.step a).gtm = s.gtm.receive m := by
  cases a with
  | onESConnection i =>
      dsimp only [step]
      split
      · exact Or.inl rfl
      · exact Or.inl rfl
  | gtm =>
      dsimp only [step]
      split
      · exact Or.inl rfl
      · exact Or.inr ⟨_, rfl⟩
  | other p msg => exact Or.inr ⟨_, rfl⟩
  | reply =>
      dsimp only [step]
      split
      · exact Or.inl rfl
      · exact Or.inl rfl
  | _ => exact Or.inl rfl

theorem gtm_step_cases (s : AppGtm P) (a : Act P) :
    (s.step a).gtm = s.gtm ∨ ∃ m, Gtm.Step m s.gtm (s.step a).gtm := by
  rcases gtm_step s a with h | ⟨m, h⟩
  · exact Or.inl h
  · rw [h]
    cases hc : s.gtm.crashed with
    | true =>
        rw [Gtm.receive, if_pos hc]
        exact Or.inl rfl
    | false => exact Or.inr ⟨m, Gtm.receive_step hc m⟩

theorem several_run (transInfo : String → List IpAndPort) (txid : BitVec 32) (appTxid : Int)
    (l : List (Act P)) : Gtm.Several ((init transInfo txid appTxid : AppGtm P).run l).gtm := by
  induction l using List.reverseRecOn with
  | nil =>
      intro x info hx
      simp [run, init, Gtm.init] at hx
  | append_singleton l a ih =>
      rw [run_concat]
      rcases gtm_step_cases ((init transInfo txid appTxid : AppGtm P).run l) a with h | ⟨m, h⟩
      · rw [h]
        exact ih
      · exact ih.step h

/-- The GTM has made an entry for a transaction if and only if it has several participants. -/
theorem created_iff (transInfo : String → List IpAndPort) (txid : BitVec 32) (appTxid : Int)
    (l : List (Act P)) (x : Int) :
    Created (init transInfo txid appTxid) l x ↔
      1 < (Gtm.returned x ((init transInfo txid appTxid : AppGtm P).run l).gtm.out).length := by
  constructor
  · rintro ⟨pre, -, hnew, hlists⟩
    have hmany := hnew.several (several_run transInfo txid appTxid pre)
    rwa [Gtm.returned, hlists] at hmany
  · intro hmany
    induction l using List.reverseRecOn with
    | nil => simp [run, init, Gtm.init, Gtm.returned, Gtm.returnedLists] at hmany
    | append_singleton l a ih =>
        -- the step hands out the id, or the entry was made before
        have hcases : Gtm.returnedLists x
              ((init transInfo txid appTxid : AppGtm P).run (l ++ [a])).gtm.out =
            Gtm.returnedLists x ((init transInfo txid appTxid : AppGtm P).run l).gtm.out ∨
              Gtm.HasNewEntry x ((init transInfo txid appTxid : AppGtm P).run (l ++ [a])).gtm := by
          rw [run_concat] at hmany ⊢
          rcases gtm_step_cases ((init transInfo txid appTxid : AppGtm P).run l) a with h | ⟨m, h⟩
          · rw [h]
            exact Or.inl rfl
          · exact (h.hasNewEntry x).imp_right fun hnew => hnew hmany
        rcases hcases with hsame | hnew
        · rw [Gtm.returned, hsame] at hmany
          obtain ⟨pre, hpre, hnew, hlists⟩ := ih hmany
          exact ⟨pre, hpre.trans (List.prefix_append l [a]), hnew, hlists.trans hsame.symm⟩
        · exact ⟨l ++ [a], List.prefix_refl _, hnew, rfl⟩

/-- The application and the GTM agree on a commit if and only if the connection callbacks
of the application since its start, also those of connections of earlier transactions
and of connections that have been closed, are one for each participant of the
transaction that it commits. -/
theorem commit_agrees_iff (transInfo : String → List IpAndPort) (txid : BitVec 32)
    (appTxid : Int) (l : List (Act P)) :
    CommitAgrees (init transInfo txid appTxid) l ↔
      (called (init transInfo txid appTxid) l).Perm
        (participants ((init transInfo txid appTxid : AppGtm P).run l)) := by
  have hconn := connList_run (init transInfo txid appTxid : AppGtm P) l
  have hsent : ((init transInfo txid appTxid : AppGtm P).run l).app.commitsSent.map
      (fun m => m.1.peer) = called (init transInfo txid appTxid) l := by
    rw [App.commitsSent_eq, List.map_map]
    exact hconn
  constructor
  · intro h
    rw [← hsent]
    exact h.receivers
  · intro h
    refine ⟨hsent ▸ h, ?_⟩
    intro m hm
    rw [App.commitsSent_eq] at hm
    obtain ⟨conn, hmem, rfl⟩ := List.mem_map.1 hm
    -- some connection is used, so that one connection means one participant
    have hpos := List.length_pos_of_mem hmem
    have hlen := congrArg List.length hconn
    rw [List.length_map, List.length_append, List.length_map] at hlen
    have hparts := h.length_eq
    rw [created_iff]
    simp only [participants] at hparts
    have hnone : (init transInfo txid appTxid : AppGtm P).app.connList.length = 0 := rfl
    simp only [App.commitMsg, createESMsg]
    split
    · simp
      omega
    · simp
      omega

/-- The second transaction of an application: the first one had one participant and so
has the second, but the connection of the first is still in the list. -/
def secondRun : List (Act Unit) :=
  [.onGtmConnection, .startTran "first", .gtm, .reply, .onESConnection 0, .commit,
    .startTran "second", .gtm, .reply, .onESConnection 1]

theorem not_commit_agrees_second :
    ¬ CommitAgrees (init (fun type => if type = "first" then [⟨"a", 1⟩] else [⟨"b", 2⟩])
      0 0) secondRun := by
  intro h
  have hlen := h.receivers.length_eq
  exact absurd hlen (by decide)

end AppGtm

end Grit
