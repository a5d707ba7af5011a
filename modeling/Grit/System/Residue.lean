import Grit.System.Outcome

/-!
# What a result leaves behind

After a result has been returned and nothing is on its way any more, a transaction should be
gone from the maps of its participant. `retResult` clears the table of the DBTM; the map of the
connections is never cleared.
-/

namespace Grit

open Cmd

namespace DbService

variable {C W : Type*}

/-- The connection of a transaction stays known. -/
def Keeps (x : Int) (d d' : DbService C W) : Prop :=
  d.table.find x ≠ none → d'.table.find x ≠ none

/-- In a live process the connection of each transaction that got a result is known. -/
def Answerable (x : Int) (d : DbService C W) : Prop :=
  d.crashed = false → 0 < results x d.out → d.table.find x ≠ none

theorem find_insert_ne_none {m : PtrMap Int C} {x : Int} (h : m.find x ≠ none) (y : Int)
    (conn : C) : (m.insert y conn).find x ≠ none := by
  rw [PtrMap.find_insert]
  split
  · simp
  · exact h

/-- A step that adds no result. -/
theorem Answerable.keep {x : Int} {d d' : DbService C W} {es : List (Event C)}
    (h : Answerable x d) (hlive : d.crashed = false) (hkeeps : Keeps x d d')
    (hout : d'.out = d.out ++ es) (hes : results x es = 0) : Answerable x d' := by
  intro _ hpos
  rw [hout, results_append, hes, Nat.add_zero] at hpos
  exact hkeeps (h hlive hpos)

theorem RetStep.answerable {status : Cmd} {txid x : Int} {d d' : DbService C W}
    (hstep : RetStep status txid d d') (h : Answerable x d) (hlive : d.crashed = false) :
    Answerable x d' := by
  cases hstep with
  | lost =>
      intro hlive'
      simp at hlive'
  | sent conn heap c hconn hheap =>
      by_cases hx : txid = x
      · intro _ _
        subst hx
        simp [hconn]
      · exact h.keep hlive (fun hne => hne) rfl (by simp [results, hx])

theorem MessageStep.answerable {conn : C} {msg : RootMsg} {x : Int} {d d' : DbService C W}
    (hstep : MessageStep conn msg d d') (h : Answerable x d) (hlive : d.crashed = false) :
    Answerable x d' := by
  cases hstep with
  | skip => exact h
  | stuck s' hout hc =>
      intro hlive'
      simp [hc] at hlive'
  | collect data hmsg hcmd p t s₁ hopen rset wset =>
      have hout : s₁.out = d.out ++ [] := by
        rw [List.append_nil]
        exact (opened_find hopen).2.2
      have htable : s₁.table = d.table := by cases hopen <;> rfl
      refine h.keep hlive ?_ hout rfl
      intro hne
      rw [← htable] at hne
      exact find_insert_ne_none hne _ _
  | commitEarly => exact h
  | commitReady => exact h.keep hlive (fun hne => hne) rfl rfl
  | lsnEarly => exact h
  | lsnReady => exact h.keep hlive (fun hne => hne) rfl rfl
  | decision => exact h
  | result data hmsg hcmd s' hret => exact hret.answerable h hlive

theorem TaskStep.answerable {ops : Wcheck W} {i : Nat} {x : Int} {d d' : DbService C W}
    (hstep : TaskStep ops i d d') (h : Answerable x d) (hlive : d.crashed = false) :
    Answerable x d' := by
  cases hstep with
  | none => exact h
  | getLsn txid htask => exact h.keep hlive (fun hne => hne) rfl rfl
  | dangling =>
      intro hlive'
      simp at hlive'
  | ignore => exact h
  | judge p t htask ht s' hjudge =>
      cases hjudge with
      | stuck => exact h.keep hlive (fun hne => hne) rfl rfl
      | vote => exact h.keep hlive (fun hne => hne) rfl rfl
      | cacheStuck => exact h.keep hlive (fun hne => hne) rfl rfl
      | cache => exact h.keep hlive (fun hne => hne) rfl rfl
      | failLost =>
          intro hlive'
          simp at hlive'
      | fail w ks conn heap c vote hcheck hconn hheap hvote =>
          by_cases hx : t.txid = x
          · intro _ _
            subst hx
            simp [hconn]
          · refine h.keep hlive (fun hne => hne) rfl ?_
            rcases hvote with rfl | ⟨-, rfl⟩
            · simp [results, prologue, hx]
            · simp [results, prologue, hx]
  | solve data htask hcmd s' hsolve =>
      cases hsolve with
      | missing =>
          intro hlive'
          simp at hlive'
      | dangling =>
          intro hlive'
          simp at hlive'
      | cacheStuck => exact h.keep hlive (fun hne => hne) rfl rfl
      | cache p t w tail hfind hp hd hw htail =>
          refine h.keep hlive (fun hne => hne) rfl ?_
          rcases htail with ⟨rfl, -⟩ | rfl
          · rfl
          · rfl
      | fail s' hd hret =>
          exact hret.answerable (h.keep hlive (fun hne => hne) rfl rfl) hlive

end DbService

namespace Sys

open DbService

variable {A P C W : Type*} [DecidableEq P]

/-- The transaction that a packet is about. -/
def packetTxid : Packet P → Int
  | .toGtm _ m => m.txid
  | .toDbService _ m => m.txid
  | .toDbtl _ m => m.txid

/-- No message for `x` is in flight or queued. -/
structure Quiet (x : Int) (s : Sys A P C W) : Prop where
  net : ∀ m ∈ s.net, packetTxid m ≠ x
  tasks : ∀ p, judging x (s.dbs p) + solving x (s.dbs p) + asking x (s.dbs p) = 0
  logs : ∀ p, logging x (s.dbtl p) = 0

/-- The participant lives, has returned a result for `x`, and nothing is on its way. -/
structure Settled (p : P) (x : Int) (s : Sys A P C W) : Prop where
  live : (s.dbs p).crashed = false
  returned : 0 < results x (s.dbs p).out
  quiet : Quiet x s

/-- A transaction that is settled is a key of none of the three maps. -/
def NoResidue (p : P) (x : Int) (s : Sys A P C W) : Prop :=
  Settled p x s → (s.dbs p).table x = none ∧ (s.dbs p).txidTrans x = none ∧
    (s.dbs p).dbtmTable x = none

theorem answerable_run (ops : Wcheck W) (transInfo : String → List IpAndPort) (txid : BitVec 32)
    (w : P → W) (useRocksDb : P → Bool) (p : P) (x : Int) (l : List (Act A P C)) :
    Linked (run ops (init transInfo txid w useRocksDb) l) ∧
      Answerable x ((run ops (init transInfo txid w useRocksDb) l).dbs p) := by
  induction l using List.reverseRecOn with
  | nil =>
      refine ⟨linked_init transInfo txid w useRocksDb, ?_⟩
      intro _ hpos
      simp [run, init, DbService.init, results] at hpos
  | append_singleton l a ih =>
      rw [run_concat]
      obtain ⟨hlinked, hview⟩ := view_of_step ih.1 (step_step ops _ a) p x
      refine ⟨hlinked, ?_⟩
      cases hview with
      | elsewhere hdbs _ =>
          rw [hdbs]
          exact ih.2
      | message conn msg hlive hmsg _ _ _ => exact hmsg.answerable ih.2 hlive
      | task i _ hlive htask _ => exact htask.answerable ih.2 hlive

/-- In every run, a transaction that is settled has left something behind. -/
theorem noResidue_iff (ops : Wcheck W) (transInfo : String → List IpAndPort) (txid : BitVec 32)
    (w : P → W) (useRocksDb : P → Bool) (p : P) (x : Int) (l : List (Act A P C)) :
    NoResidue p x (run ops (init transInfo txid w useRocksDb) l) ↔
      ¬Settled p x (run ops (init transInfo txid w useRocksDb) l) := by
  constructor
  · intro hno hsettled
    have hknown := (answerable_run ops transInfo txid w useRocksDb p x l).2
      hsettled.live hsettled.returned
    have habsent := (hno hsettled).1
    simp [PtrMap.find, habsent] at hknown
  · intro hnot hsettled
    exact absurd hsettled hnot

/-- Transaction `5` writes `k` and succeeds; transaction `6` writes `k` too and fails its local
check. Both have one participant. -/
def twoExits : List (Act Unit Unit Unit) :=
  [.entityService () () (createDbServiceMsg kData 5 false (some [])
      (some [⟨some "k", some "a", some "v"⟩])),
    .entityService () () (createDbServiceMsg kCommit 5 false),
    .task () 0, .deliver 0 (), .deliver 0 (), .task () 0, .deliver 0 (), .dbtlTask () 0,
    .deliver 0 (),
    .entityService () () (createDbServiceMsg kData 6 false (some [])
      (some [⟨some "k", some "a", some "v"⟩])),
    .entityService () () (createDbServiceMsg kCommit 6 false),
    .task () 0, .deliver 0 (), .deliver 0 (), .task () 0]

def twoExitsEnd : Sys Unit Unit Unit (List Info) :=
  run Wcheck.contract (init (fun _ => []) 0 (fun _ => []) fun _ => false) twoExits

/-- Both are settled and still in the map of the connections, and the one that failed also in
the map of the collected transactions. -/
theorem not_noResidue_twoExits :
    ¬NoResidue () 5 twoExitsEnd ∧ ¬NoResidue () 6 twoExitsEnd ∧
      (twoExitsEnd.dbs ()).txidTrans 6 ≠ none := by
  refine ⟨?_, ?_, by decide⟩
  · intro h
    have hsettled : Settled () 5 twoExitsEnd :=
      ⟨by decide, by decide, ⟨by decide, fun () => by decide, fun () => by decide⟩⟩
    exact absurd (h hsettled).1 (by decide)
  · intro h
    have hsettled : Settled () 6 twoExitsEnd :=
      ⟨by decide, by decide, ⟨by decide, fun () => by decide, fun () => by decide⟩⟩
    exact absurd (h hsettled).1 (by decide)

end Sys

end Grit
