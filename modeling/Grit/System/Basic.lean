import Grit.DbService.MessageSpec
import Grit.Dbtl.Basic
import Grit.Gtm.Step

/-!
# The GTM, the DbServices and their log services

The processes of a deployment with the messages between them. Each participant
`p : P` is a DbService with its own DBTL; both are connected to each other, and
the DbService is connected to the one GTM. Applications `a : A` ask the GTM for
transaction ids, and entity services send any messages to the participants.

`net` holds the messages in flight. Any of them may be delivered next, so that
messages may overtake each other, also on one connection. What is sent to an
application or to an entity service leaves the system.

Four things are taken for granted. A reply of the GTM or the DBTL reaches `onMessage` of the
DbService, which has the cases for it; `Dbtm::init` sets no message callback on its two
clients, and `stepAsWired` is the system with that wiring. A message is handled on its own,
none being lost with others in one buffer. A handler and a task are one step each. And a task
has the data of its message, although `solve` binds a pointer into the buffer of `onMessage`.
-/

namespace Grit

open Cmd

/-- A message in flight. -/
inductive Packet (P : Type*) where
  | toGtm (p : P) (m : GtmMsg)
  | toDbService (p : P) (m : DbtmMsg)
  | toDbtl (p : P) (m : DbtlMsg)
deriving DecidableEq

/-- The processes and the messages between them. -/
structure Sys (A P C W : Type*) where
  gtm : Gtm (A ⊕ P)
  dbs : P → DbService C W
  dbtl : P → Dbtl P
  net : List (Packet P)

namespace Sys

variable {A P C W : Type*}

/-- The initial state: the transaction types and the first id of the GTM, the
conflict table and the configuration of each participant. -/
def init (transInfo : String → List IpAndPort) (txid : BitVec 32) (w : P → W)
    (useRocksDb : P → Bool) : Sys A P C W :=
  { gtm := Gtm.init transInfo txid
    dbs := fun p => DbService.init (w p)
    dbtl := fun p => Dbtl.init (useRocksDb p)
    net := [] }

/-- What the DbService `p` puts on the net by an event. -/
def ofDbService (p : P) : Event C → Option (Packet P)
  | .sendGtm m => some (.toGtm p m)
  | .sendDbtl m => some (.toDbtl p m)
  | _ => none

/-- What the GTM puts on the net by a message. -/
def ofGtm : (A ⊕ P) × RootMsg → Option (Packet P)
  | (.inr p, .dbtmMsg m) => some (.toDbService p m)
  | _ => none

/-- What the DBTL of `p` puts on the net by a message. -/
def ofDbtl (m : P × DbtmMsg) : Packet P := .toDbService m.1 m.2

/-- The GTM goes to the state `g`; the messages it has added to its output are
in flight. -/
def setGtm (g : Gtm (A ⊕ P)) (s : Sys A P C W) : Sys A P C W :=
  { s with
    gtm := g
    net := s.net ++ (g.out.drop s.gtm.out.length).filterMap ofGtm }

variable [DecidableEq P]

def setDbService (p : P) (d : DbService C W) (s : Sys A P C W) : Sys A P C W :=
  { s with
    dbs := Function.update s.dbs p d
    net := s.net ++ (d.out.drop (s.dbs p).out.length).filterMap (ofDbService p) }

def setDbtl (p : P) (d : Dbtl P) (s : Sys A P C W) : Sys A P C W :=
  { s with
    dbtl := Function.update s.dbtl p d
    net := s.net ++ (Dbtl.sends (d.out.drop (s.dbtl p).out.length)).map ofDbtl }

/-- What can happen next. -/
inductive Act (A P C : Type*) where
  | getTxid (a : A) (transType : String)
  | entityService (p : P) (conn : C) (m : DbServiceMsg)
  | deliver (i : Nat) (conn : C)
  | task (p : P) (i : Nat)
  | dbtlTask (p : P) (i : Nat)

/-- A message reaches the handler of its process, alone and whole. The connection is the
one that a DbService gets it over. -/
def receive (ops : Wcheck W) (conn : C) (s : Sys A P C W) : Packet P → Sys A P C W
  | .toGtm p m => s.setGtm (s.gtm.receive ⟨.inr p, .gtmMsg m⟩)
  | .toDbService p m => s.setDbService p ((s.dbs p).act ops (.message conn (.dbtmMsg m)))
  | .toDbtl p m =>
      if (s.dbtl p).crashed then s
      else s.setDbtl p ((s.dbtl p).onMessage p (.dbtlMsg m))

def step (ops : Wcheck W) (s : Sys A P C W) : Act A P C → Sys A P C W
  | .getTxid a transType =>
      s.setGtm (s.gtm.receive
        ⟨.inl a, .gtmMsg (createGtmMsg kGetTxid 0 false (some transType))⟩)
  | .entityService p conn m =>
      s.setDbService p ((s.dbs p).act ops (.message conn (.dbServiceMsg m)))
  | .deliver i conn =>
      match s.net[i]? with
      | none => s
      | some m => { s with net := s.net.eraseIdx i }.receive ops conn m
  | .task p i => s.setDbService p ((s.dbs p).act ops (.task i))
  | .dbtlTask p i =>
      if (s.dbtl p).crashed then s else s.setDbtl p ((s.dbtl p).runTask i)

def run (ops : Wcheck W) (s : Sys A P C W) (l : List (Act A P C)) : Sys A P C W :=
  l.foldl (step ops) s

theorem run_concat (ops : Wcheck W) (s : Sys A P C W) (l : List (Act A P C))
    (a : Act A P C) : run ops s (l ++ [a]) = step ops (run ops s l) a := by
  simp [run]

/-! ### What can happen in one step -/

/-- The outcomes of a step, in terms of the outcomes of the process that acts:
nothing happens, a message is lost at a process that has ended, or one process
takes a message or a task. -/
inductive Step (ops : Wcheck W) (s : Sys A P C W) : Act A P C → Sys A P C W → Prop where
  | idle (a : Act A P C) (hnet : ∀ i conn, a = .deliver i conn → s.net[i]? = none) :
      Step ops s a s
  | lost (i : Nat) (conn : C)
      (hdead : ∀ p m, s.net[i]? = some (.toGtm p m) → s.gtm.crashed = true) :
      Step ops s (.deliver i conn) { s with net := s.net.eraseIdx i }
  | getTxid (a : A) (transType : String) (g : Gtm (A ⊕ P))
      (hlive : s.gtm.crashed = false)
      (hstep : Gtm.Step
        ⟨.inl a, .gtmMsg (createGtmMsg kGetTxid 0 false (some transType))⟩ s.gtm g) :
      Step ops s (.getTxid a transType) (s.setGtm g)
  | gtmMsg (i : Nat) (conn : C) (p : P) (m : GtmMsg)
      (hnet : s.net[i]? = some (.toGtm p m)) (g : Gtm (A ⊕ P))
      (hlive : s.gtm.crashed = false)
      (hstep : Gtm.Step ⟨.inr p, .gtmMsg m⟩ s.gtm g) :
      Step ops s (.deliver i conn) ({ s with net := s.net.eraseIdx i }.setGtm g)
  | entityService (p : P) (conn : C) (m : DbServiceMsg) (d : DbService C W)
      (hlive : (s.dbs p).crashed = false)
      (hstep : DbService.MessageStep conn (.dbServiceMsg m) (s.dbs p) d) :
      Step ops s (.entityService p conn m) (s.setDbService p d)
  | dbtmMsg (i : Nat) (conn : C) (p : P) (m : DbtmMsg)
      (hnet : s.net[i]? = some (.toDbService p m)) (d : DbService C W)
      (hlive : (s.dbs p).crashed = false)
      (hstep : DbService.MessageStep conn (.dbtmMsg m) (s.dbs p) d) :
      Step ops s (.deliver i conn)
        ({ s with net := s.net.eraseIdx i }.setDbService p d)
  | task (p : P) (i : Nat) (d : DbService C W) (hlive : (s.dbs p).crashed = false)
      (hstep : DbService.TaskStep ops i (s.dbs p) d) :
      Step ops s (.task p i) (s.setDbService p d)
  | dbtlMsg (i : Nat) (conn : C) (p : P) (m : DbtlMsg)
      (hnet : s.net[i]? = some (.toDbtl p m)) (d : Dbtl P)
      (hstep : Dbtl.MessageStep p (.dbtlMsg m) (s.dbtl p) d) :
      Step ops s (.deliver i conn) ({ s with net := s.net.eraseIdx i }.setDbtl p d)
  | dbtlTask (p : P) (i : Nat) (d : Dbtl P) (hstep : Dbtl.TaskStep i (s.dbtl p) d) :
      Step ops s (.dbtlTask p i) (s.setDbtl p d)

omit [DecidableEq P] in
theorem not_toDbService_ofDbService {p q : P} {m : DbtmMsg} {es : List (Event C)} :
    Packet.toDbService q m ∉ es.filterMap (ofDbService p) := by
  intro h
  obtain ⟨e, -, he⟩ := List.mem_filterMap.1 h
  cases e with
  | sendGtm m => simp [ofDbService] at he
  | sendDbtl m => simp [ofDbService] at he
  | _ => simp [ofDbService] at he

omit [DecidableEq P] in
theorem setGtm_self (s : Sys A P C W) : s.setGtm s.gtm = s := by
  simp [setGtm]

@[simp] theorem setDbService_dbs_self (s : Sys A P C W) (p : P) (d : DbService C W) :
    (s.setDbService p d).dbs p = d := Function.update_self _ _ _

theorem setDbService_dbs_of_ne (s : Sys A P C W) {p q : P} (h : q ≠ p)
    (d : DbService C W) : (s.setDbService p d).dbs q = s.dbs q :=
  Function.update_of_ne h _ _

@[simp] theorem setDbtl_dbtl_self (s : Sys A P C W) (p : P) (d : Dbtl P) :
    (s.setDbtl p d).dbtl p = d := Function.update_self _ _ _

theorem setDbtl_dbtl_of_ne (s : Sys A P C W) {p q : P} (h : q ≠ p) (d : Dbtl P) :
    (s.setDbtl p d).dbtl q = s.dbtl q := Function.update_of_ne h _ _

theorem setDbService_self (s : Sys A P C W) (p : P) : s.setDbService p (s.dbs p) = s := by
  simp [setDbService]

theorem act_message_cases (ops : Wcheck W) (conn : C) (m : RootMsg) (d : DbService C W) :
    d.act ops (.message conn m) = d ∨ d.crashed = false ∧
      DbService.MessageStep conn m d (d.act ops (.message conn m)) := by
  cases hc : d.crashed with
  | true =>
      rw [DbService.act, DbService.andThen, if_pos hc]
      exact Or.inl rfl
  | false =>
      rw [DbService.act, DbService.andThen, if_neg (by simp [hc])]
      exact Or.inr ⟨rfl, DbService.onMessage_step conn m hc⟩

omit [DecidableEq P] in
theorem gtm_receive_cases (g : Gtm (A ⊕ P)) (a : Gtm.Arrival (A ⊕ P)) :
    g.crashed = true ∧ g.receive a = g ∨ g.crashed = false ∧ Gtm.Step a g (g.receive a) := by
  cases hc : g.crashed with
  | true =>
      rw [Gtm.receive, if_pos hc]
      exact Or.inl ⟨rfl, rfl⟩
  | false => exact Or.inr ⟨rfl, Gtm.receive_step hc a⟩

theorem step_step (ops : Wcheck W) (s : Sys A P C W) (a : Act A P C) :
    Step ops s a (step ops s a) := by
  cases a with
  | getTxid a transType =>
      dsimp only [step]
      rcases gtm_receive_cases s.gtm
        ⟨.inl a, .gtmMsg (createGtmMsg kGetTxid 0 false (some transType))⟩ with ⟨-, h⟩ | ⟨hc, h⟩
      · rw [h, setGtm_self]
        exact .idle _ (by simp)
      · exact .getTxid a transType _ hc h
  | entityService p conn m =>
      dsimp only [step]
      rcases act_message_cases ops conn (.dbServiceMsg m) (s.dbs p) with h | ⟨hc, h⟩
      · rw [h, setDbService_self]
        exact .idle _ (by simp)
      · exact .entityService p conn m _ hc h
  | deliver i conn =>
      dsimp only [step]
      cases hnet : s.net[i]? with
      | none =>
          refine .idle _ ?_
          intro j conn' heq
          cases heq
          exact hnet
      | some m =>
          cases m with
          | toGtm p m =>
              dsimp only [receive]
              rcases gtm_receive_cases s.gtm ⟨.inr p, .gtmMsg m⟩ with ⟨hc, h⟩ | ⟨hc, h⟩
              · rw [h]
                have hself := setGtm_self { s with net := s.net.eraseIdx i }
                rw [hself]
                exact .lost i conn fun _ _ _ => hc
              · exact .gtmMsg i conn p m hnet _ hc h
          | toDbService p m =>
              dsimp only [receive]
              rcases act_message_cases ops conn (.dbtmMsg m) (s.dbs p) with h | ⟨hc, h⟩
              · rw [h]
                have hself := setDbService_self { s with net := s.net.eraseIdx i } p
                rw [hself]
                exact .lost i conn (by simp [hnet])
              · exact .dbtmMsg i conn p m hnet _ hc h
          | toDbtl p m =>
              dsimp only [receive]
              split
              · exact .lost i conn (by simp [hnet])
              · exact .dbtlMsg i conn p m hnet _ (Dbtl.onMessage_step p _ _)
  | task p i =>
      dsimp only [step]
      cases hc : (s.dbs p).crashed with
      | true =>
          rw [DbService.act, DbService.andThen, if_pos hc, setDbService_self]
          exact .idle _ (by simp)
      | false =>
          rw [DbService.act, DbService.andThen, if_neg (by simp [hc])]
          exact .task p i _ hc (DbService.runTask_step ops i _)
  | dbtlTask p i =>
      dsimp only [step]
      split
      · exact .idle _ (by simp)
      · exact .dbtlTask p i _ (Dbtl.runTask_step i _)

end Sys

end Grit
