import Mathlib.Algebra.BigOperators.Intervals
import Mathlib.Algebra.Order.BigOperators.Group.Finset
import Mathlib.Data.Fintype.Basic
import Grit.Library.Runs
import Grit.System.Live

/-!
# The system settles

The messages in flight and the queued tasks are used up, in whatever order they are taken: what a
step takes weighs more than all that it adds, and only the requests of the entity services add
weight. A vote that the GTM holds weighs as much as the decision that it will lead to, so that the
last vote, which sets them all free, weighs more than they do together with it.
-/

namespace Grit

open Cmd DbService Settling

namespace Sys

variable {A P C W : Type*}

/-- What a message in flight can still lead to, with itself. -/
def packetLoad : Packet P → Nat
  | .toGtm _ m => if m.cmd = kJudgeConflit then 6 else 1
  | .toDbService _ m =>
      match m.cmd with
      | kLsn => 8
      | kJudgeConflit => 5
      | _ => 1
  | .toDbtl _ m =>
      match m.cmd with
      | kLsn => 9
      | kLog => 3
      | _ => 1

def taskLoad : Task → Nat
  | .getLsn _ => 10
  | .judgeLocalConflict _ => 7
  | .solve _ => 4

/-- The tasks of a process that has ended are not run any more. -/
def dbsLoad (d : DbService C W) : Nat := if d.crashed then 0 else weight taskLoad d.tasks

def dbtlLoad (d : Dbtl P) : Nat := 2 * d.tasks.length

/-- The votes on transaction `i` that the GTM holds. -/
def heldVotes (g : Gtm (A ⊕ P)) (i : Int) : Nat :=
  match g.table.find i with
  | none => 0
  | some info => info.connList.length

/-- The votes on all ids that there are. -/
def gtmLoad (g : Gtm (A ⊕ P)) : Nat :=
  5 * ∑ k ∈ Finset.range 4294967296, heldVotes g (Gtm.idOf 0 k)

def load [Fintype P] (s : Sys A P C W) : Nat :=
  weight packetLoad s.net + gtmLoad s.gtm + ∑ p, dbsLoad (s.dbs p) + ∑ p, dbtlLoad (s.dbtl p)

/-- What a request of an entity service can lead to. -/
def requestLoad (m : DbServiceMsg) : Nat :=
  match m.cmd with
  | kData => 10
  | kCommit => 7
  | _ => 0

def credit : Act A P C → Nat
  | .entityService _ _ m => requestLoad m
  | _ => 0

/-- The step takes a message from the net, or a task of a process that has not ended. -/
def Enabled (s : Sys A P C W) : Act A P C → Prop
  | .getTxid _ _ => False
  | .entityService _ _ _ => False
  | .deliver i _ => i < s.net.length
  | .task p i => (s.dbs p).crashed = false ∧ i < (s.dbs p).tasks.length
  | .dbtlTask p i => (s.dbtl p).crashed = false ∧ i < (s.dbtl p).tasks.length

instance (s : Sys A P C W) (a : Act A P C) : Decidable (Enabled s a) := by
  cases a with
  | getTxid => exact instDecidableFalse
  | entityService => exact instDecidableFalse
  | deliver i => exact inferInstanceAs (Decidable (i < s.net.length))
  | task p i =>
      exact inferInstanceAs (Decidable ((s.dbs p).crashed = false ∧ i < (s.dbs p).tasks.length))
  | dbtlTask p i =>
      exact inferInstanceAs (Decidable ((s.dbtl p).crashed = false ∧ i < (s.dbtl p).tasks.length))

theorem packetLoad_pos (packet : Packet P) : 0 < packetLoad packet := by
  cases packet with
  | toGtm p m =>
      dsimp only [packetLoad]
      split
      · omega
      · omega
  | toDbService p m =>
      dsimp only [packetLoad]
      split
      all_goals omega
  | toDbtl p m =>
      dsimp only [packetLoad]
      split
      all_goals omega

/-! ### Steps of a DbService -/

/-- What the events put on the net. -/
def eventLoad (p : P) (es : List (Event C)) : Nat :=
  weight packetLoad (es.filterMap (ofDbService p))

theorem dbsLoad_le (d : DbService C W) : dbsLoad d ≤ weight taskLoad d.tasks := by
  unfold dbsLoad
  split
  · exact Nat.zero_le _
  · exact Nat.le_refl _

theorem dbsLoad_of_live {d : DbService C W} (h : d.crashed = false) :
    dbsLoad d = weight taskLoad d.tasks := by
  rw [dbsLoad, if_neg (by simp [h])]

/-- A result is sent to the entity service. -/
theorem retStep_load {status : Cmd} {x : Int} {d d' : DbService C W}
    (hstep : RetStep status x d d') (p : P) :
    d'.tasks = d.tasks ∧ ∃ es, d'.out = d.out ++ es ∧ eventLoad p es = 0 := by
  cases hstep with
  | lost => exact ⟨rfl, _, rfl, rfl⟩
  | sent => exact ⟨rfl, _, rfl, rfl⟩

theorem messageStep_load {conn : C} {m : DbtmMsg} {d d' : DbService C W}
    (hlive : d.crashed = false) (hstep : MessageStep conn (.dbtmMsg m) d d') (p : P) :
    ∃ es, d'.out = d.out ++ es ∧
      dbsLoad d' + eventLoad p es < dbsLoad d + packetLoad (.toDbService p m) := by
  have hpos := packetLoad_pos (Packet.toDbService p m)
  have hle := dbsLoad_le d'
  rw [dbsLoad_of_live hlive]
  cases hstep with
  | skip => exact ⟨[], by simp, by simpa [dbsLoad_of_live hlive, eventLoad] using hpos⟩
  | stuck _ hout hc =>
      refine ⟨[], by simp [hout], ?_⟩
      simp only [dbsLoad, hc, if_true, eventLoad, List.filterMap_nil, weight_nil]
      omega
  | collect data hmsg => simp at hmsg
  | commitEarly data hmsg => simp at hmsg
  | commitReady data hmsg => simp at hmsg
  | lsnEarly data hmsg hcmd p' t hp ht hcommit =>
      refine ⟨[], by simp, ?_⟩
      simp only [eventLoad, List.filterMap_nil, weight_nil] at hle ⊢
      omega
  | lsnReady data hmsg hcmd p' t hp ht hcommit =>
      obtain rfl := RootMsg.dbtmMsg.inj hmsg
      refine ⟨_, rfl, ?_⟩
      have hpacket : packetLoad (.toDbService p m) = 8 := by simp [packetLoad, hcmd]
      simp only [weight_append, weight_cons, weight_nil, taskLoad] at hle
      simp only [eventLoad, ofDbService, List.filterMap_cons, List.filterMap_nil, weight_nil]
      omega
  | decision data hmsg hcmd =>
      obtain rfl := RootMsg.dbtmMsg.inj hmsg
      refine ⟨[], by simp, ?_⟩
      have hpacket : packetLoad (.toDbService p m) = 5 := by simp [packetLoad, hcmd]
      simp only [weight_append, weight_cons, weight_nil, taskLoad] at hle
      simp only [eventLoad, List.filterMap_nil, weight_nil]
      omega
  | result data hmsg hcmd s' hret =>
      obtain ⟨htasks, es, hout, hload⟩ := retStep_load hret p
      refine ⟨es, hout, ?_⟩
      rw [htasks] at hle
      omega

theorem requestStep_load {conn : C} {m : DbServiceMsg} {d d' : DbService C W}
    (hlive : d.crashed = false) (hstep : MessageStep conn (.dbServiceMsg m) d d') (p : P) :
    ∃ es, d'.out = d.out ++ es ∧
      dbsLoad d' + eventLoad p es ≤ dbsLoad d + requestLoad m := by
  have hle := dbsLoad_le d'
  rw [dbsLoad_of_live hlive]
  cases hstep with
  | skip => exact ⟨[], by simp, Nat.le_trans hle (Nat.le_add_right _ _)⟩
  | stuck _ hout hc =>
      refine ⟨[], by simp [hout], ?_⟩
      simp [dbsLoad, hc, eventLoad]
  | collect data hmsg hcmd q t s₁ hopen rset wset =>
      obtain rfl := RootMsg.dbServiceMsg.inj hmsg
      have hcredit : requestLoad m = 10 := by simp [requestLoad, hcmd]
      have hold : s₁.tasks = d.tasks ∧ s₁.out = d.out := by
        cases hopen with
        | old => exact ⟨rfl, rfl⟩
        | new => exact ⟨rfl, rfl⟩
      have hnew : weight taskLoad (s₁.tasks ++ if t.lsn = -1 then [.getLsn m.txid] else []) ≤
          weight taskLoad d.tasks + 10 := by
        rw [weight_append, hold.1]
        split_ifs
        · exact Nat.le_refl _
        · exact Nat.le_add_right _ _
      refine ⟨[], by simp [hold.2], ?_⟩
      simp only [eventLoad, List.filterMap_nil, weight_nil] at hle ⊢
      omega
  | commitEarly data hmsg hcmd q t hq ht hlsn =>
      exact ⟨[], by simp, Nat.le_trans hle (Nat.le_add_right _ _)⟩
  | commitReady data hmsg hcmd q t hq ht hlsn =>
      obtain rfl := RootMsg.dbServiceMsg.inj hmsg
      have hcredit : requestLoad m = 7 := by simp [requestLoad, hcmd]
      refine ⟨_, rfl, ?_⟩
      simp only [weight_append, weight_cons, weight_nil, taskLoad] at hle
      simp only [eventLoad, ofDbService, List.filterMap_cons, List.filterMap_nil, weight_nil]
      omega
  | lsnEarly data hmsg => simp at hmsg
  | lsnReady data hmsg => simp at hmsg
  | decision data hmsg => simp at hmsg
  | result data hmsg => simp at hmsg

theorem judgeStep_load {ops : Wcheck W} {q : Nat} {t : Transaction} {d d' : DbService C W}
    (hstep : JudgeStep ops q t d d') (p : P) :
    d'.tasks = d.tasks ∧ ∃ es, d'.out = d.out ++ es ∧ eventLoad p es ≤ 6 := by
  cases hstep with
  | stuck => exact ⟨rfl, _, rfl, Nat.zero_le _⟩
  | vote => exact ⟨rfl, _, rfl, Nat.le_refl _⟩
  | cacheStuck => exact ⟨rfl, _, rfl, Nat.zero_le _⟩
  | cache => exact ⟨rfl, _, rfl, Nat.le_add_right 3 3⟩
  | failLost => exact ⟨rfl, _, rfl, Nat.zero_le _⟩
  | fail w ks conn heap c vote hc hconn hheap hvote =>
      refine ⟨rfl, _, rfl, ?_⟩
      rcases hvote with rfl | ⟨-, rfl⟩
      · exact Nat.zero_le _
      · exact Nat.le_refl _

theorem solveStep_load {ops : Wcheck W} {data : DbtmMsg} {d d' : DbService C W}
    (hstep : SolveStep ops data d d') (p : P) :
    d'.tasks = d.tasks ∧ ∃ es, d'.out = d.out ++ es ∧ eventLoad p es ≤ 3 := by
  cases hstep with
  | missing => exact ⟨rfl, [], by simp, Nat.zero_le _⟩
  | dangling => exact ⟨rfl, [], by simp, Nat.zero_le _⟩
  | cacheStuck => exact ⟨rfl, _, rfl, Nat.zero_le _⟩
  | cache q t w tail hq ht hd hw htail =>
      refine ⟨rfl, _, rfl, ?_⟩
      rcases htail with ⟨rfl, -⟩ | rfl
      · exact Nat.le_refl _
      · exact Nat.le_refl _
  | fail s' hd hret =>
      obtain ⟨htasks, es, hout, hload⟩ := retStep_load hret p
      refine ⟨htasks, .sqlExec (.delete data.txid) :: .removeFile data.txid :: es, ?_, ?_⟩
      · rw [hout]
        simp
      · exact Nat.le_trans (Nat.le_of_eq hload) (Nat.zero_le _)

theorem taskStep_load {ops : Wcheck W} {i : Nat} {d d' : DbService C W}
    (hlive : d.crashed = false) (hi : i < d.tasks.length) (hstep : TaskStep ops i d d') (p : P) :
    ∃ es, d'.out = d.out ++ es ∧ dbsLoad d' + eventLoad p es < dbsLoad d := by
  have hle := dbsLoad_le d'
  rw [dbsLoad_of_live hlive]
  cases hstep with
  | none h =>
      rw [List.getElem?_eq_none_iff] at h
      omega
  | getLsn txid htask =>
      have htake := weight_eraseIdx taskLoad htask
      refine ⟨_, rfl, ?_⟩
      simp only [eventLoad, ofDbService, createDbtlMsg, List.filterMap_cons, List.filterMap_nil,
        weight_cons, weight_nil, packetLoad, taskLoad] at htake hle ⊢
      omega
  | dangling q htask hq =>
      have htake := weight_eraseIdx taskLoad htask
      refine ⟨[], by simp, ?_⟩
      simp only [eventLoad, List.filterMap_nil, weight_nil, taskLoad] at htake hle ⊢
      omega
  | judge q t htask ht s' hjudge =>
      have htake := weight_eraseIdx taskLoad htask
      obtain ⟨htasks, es, hout, hload⟩ := judgeStep_load hjudge p
      refine ⟨es, hout, ?_⟩
      simp only [htasks, taskLoad] at htake hle
      omega
  | ignore data htask hcmd =>
      have htake := weight_eraseIdx taskLoad htask
      refine ⟨[], by simp, ?_⟩
      simp only [eventLoad, List.filterMap_nil, weight_nil, taskLoad] at htake hle ⊢
      omega
  | solve data htask hcmd s' hsolve =>
      have htake := weight_eraseIdx taskLoad htask
      obtain ⟨htasks, es, hout, hload⟩ := solveStep_load hsolve p
      refine ⟨es, hout, ?_⟩
      simp only [htasks, taskLoad] at htake hle
      omega

/-! ### Steps of the GTM -/

/-- The decision goes to every voter. -/
theorem weight_decision (i : Int) (b : Bool) (conns : List (A ⊕ P)) :
    weight packetLoad ((conns.map fun conn => (conn, Gtm.decision i b)).filterMap ofGtm) ≤
      5 * conns.length := by
  induction conns with
  | nil => exact Nat.le_refl _
  | cons conn conns ih =>
      rw [List.map_cons, List.length_cons]
      cases conn with
      | inl a =>
          have hnone : ofGtm ((.inl a, Gtm.decision i b) : (A ⊕ P) × RootMsg) = none := rfl
          rw [List.filterMap_cons_none hnone]
          omega
      | inr q =>
          have hsome : ofGtm ((.inr q, Gtm.decision i b) : (A ⊕ P) × RootMsg) =
              some (.toDbService q (createDbtmMsg kJudgeConflit i b)) := rfl
          have hload : packetLoad (.toDbService q (createDbtmMsg kJudgeConflit i b)) = 5 := rfl
          rw [List.filterMap_cons_some hsome, weight_cons, hload]
          omega

/-- The net has no messages for an application. -/
theorem ofGtm_txidReply (conn : A ⊕ P) (i : Int) (list : List IpAndPort) :
    ofGtm (conn, Gtm.txidReply i list) = none := by
  cases conn with
  | inl a => rfl
  | inr p => rfl

theorem heldVotes_congr {g g' : Gtm (A ⊕ P)} {i : Int}
    (h : g'.table.find i = g.table.find i) : heldVotes g' i = heldVotes g i := by
  rw [heldVotes, heldVotes, h]

theorem gtmLoad_congr {g g' : Gtm (A ⊕ P)} (h : ∀ i, g'.table.find i = g.table.find i) :
    gtmLoad g' = gtmLoad g :=
  congrArg (5 * ·) (Finset.sum_congr rfl fun _ _ => heldVotes_congr (h _))

theorem gtmLoad_mono {g g' : Gtm (A ⊕ P)} (h : ∀ i, heldVotes g' i ≤ heldVotes g i) :
    gtmLoad g' ≤ gtmLoad g :=
  Nat.mul_le_mul_left _ (Finset.sum_le_sum fun _ _ => h _)

/-- An id is one of those that there are. -/
theorem exists_idOf (first : BitVec 32) (k : Nat) :
    ∃ k' < 4294967296, Gtm.idOf first k = Gtm.idOf 0 k' := by
  refine ⟨(first + BitVec.ofNat 32 k).toNat, (first + BitVec.ofNat 32 k).isLt, ?_⟩
  rw [Gtm.idOf, Gtm.idOf, BitVec.ofNat_toNat, BitVec.setWidth_eq]
  exact congrArg _ (BitVec.zero_add _).symm

/-- The entry of transaction `i` changes. -/
theorem gtmLoad_change {first : BitVec 32} {i : Int} {info : TxidInfo (A ⊕ P)}
    {g g' : Gtm (A ⊕ P)} (hnumbered : Gtm.Numbered first g) (hi : g.table.find i = some info)
    (h : ∀ j, j ≠ i → g'.table.find j = g.table.find j) :
    gtmLoad g' + 5 * heldVotes g i = gtmLoad g + 5 * heldVotes g' i := by
  obtain ⟨k, -, rfl⟩ := hnumbered.within i info hi
  obtain ⟨k', hk', heq⟩ := exists_idOf first k
  rw [heq] at h ⊢
  have hsum := sum_change (fun k : Nat => heldVotes g (Gtm.idOf 0 k))
    (fun k : Nat => heldVotes g' (Gtm.idOf 0 k)) (Finset.mem_range.2 hk') fun j hj hne => by
      refine heldVotes_congr (h _ ?_)
      rw [Finset.mem_range] at hj
      rw [Ne, Gtm.idOf_eq_iff, Nat.mod_eq_of_lt hj, Nat.mod_eq_of_lt hk']
      exact hne
  rw [gtmLoad, gtmLoad]
  omega

theorem packetLoad_of_vote {p : P} {m : GtmMsg} {i : Int} {v : (A ⊕ P) × Bool}
    (h : Gtm.voteOf i (⟨.inr p, .gtmMsg m⟩ : Gtm.Arrival (A ⊕ P)) = some v) :
    5 ≤ packetLoad (.toGtm p m) - 1 := by
  have hcmd : m.cmd = kJudgeConflit := (Option.ite_none_right_eq_some.1 h).1.1
  simp [packetLoad, hcmd]

/-- A vote adds `5` at most to what the GTM holds and sends. -/
theorem gtmStep_load {first : BitVec 32} {n : Nat} {a : Gtm.Arrival (A ⊕ P)}
    {g g' : Gtm (A ⊕ P)} (hnumbered : Gtm.Numbered first g)
    (hn : ∀ i v, Gtm.voteOf i a = some v → 5 ≤ n) (hstep : Gtm.Step a g g') :
    ∃ ms, g'.out = g.out ++ ms ∧
      weight packetLoad (ms.filterMap ofGtm) + gtmLoad g' ≤ gtmLoad g + n := by
  cases hstep with
  | skip hv =>
      refine ⟨[], by simp, ?_⟩
      simp only [List.filterMap_nil, weight_nil]
      omega
  | untyped _ _ _ _ hv =>
      refine ⟨[], by simp, ?_⟩
      have hsame : gtmLoad { g with crashed := true } = gtmLoad g := rfl
      simp only [List.filterMap_nil, weight_nil, hsame]
      omega
  | register list hv =>
      refine ⟨_, rfl, ?_⟩
      rw [List.filterMap_cons_none (ofGtm_txidReply _ _ _), List.filterMap_nil, weight_nil,
        Nat.zero_add]
      -- a new entry holds no votes, and may take the place of an old one
      refine Nat.le_add_right_of_le (gtmLoad_mono fun i => ?_)
      by_cases hi : i = g.txid.toInt
      · subst hi
        rw [heldVotes]
        dsimp only
        split_ifs
        · rw [PtrMap.find_insert_self]
          exact Nat.zero_le _
        · exact Nat.le_refl _
      · refine Nat.le_of_eq (heldVotes_congr ?_)
        dsimp only
        split
        · exact PtrMap.find_insert_of_ne _ _ hi
        · rfl
  | unknown i v hv h =>
      refine ⟨[], by simp, ?_⟩
      have hsame : gtmLoad { g with table := g.table.touch i, crashed := true } = gtmLoad g :=
        gtmLoad_congr fun j => PtrMap.find_touch _ _ _
      simp only [List.filterMap_nil, weight_nil, hsame]
      omega
  | count i v info hv h =>
      refine ⟨[], by simp, ?_⟩
      have hvote := hn i v hv
      have hheld : heldVotes g i = info.connList.length := by rw [heldVotes, h]
      set g' : Gtm (A ⊕ P) := { g with table := g.table.insert i (info.vote v.1 v.2) }
      have hheld' : heldVotes g' i = info.connList.length + 1 := by
        simp [heldVotes, g', TxidInfo.vote]
      have hchange : gtmLoad g' + 5 * heldVotes g i = gtmLoad g + 5 * heldVotes g' i :=
        gtmLoad_change hnumbered h fun j hj => PtrMap.find_insert_of_ne _ _ hj
      simp only [List.filterMap_nil, weight_nil]
      omega
  | close i v info hv h =>
      have hvote := hn i v hv
      have hheld : heldVotes g i = info.connList.length := by rw [heldVotes, h]
      have hsent := weight_decision i (info.vote v.1 v.2).isConflict (info.vote v.1 v.2).connList
      have hlength : (info.vote v.1 v.2).connList.length = info.connList.length + 1 := by
        simp [TxidInfo.vote]
      set ms := (info.vote v.1 v.2).connList.map fun conn =>
        (conn, Gtm.decision i (info.vote v.1 v.2).isConflict)
      set g' : Gtm (A ⊕ P) := { g with table := g.table.erase i, out := g.out ++ ms }
      have hheld' : heldVotes g' i = 0 := by simp [heldVotes, g']
      have hchange : gtmLoad g' + 5 * heldVotes g i = gtmLoad g + 5 * heldVotes g' i :=
        gtmLoad_change hnumbered h fun j hj => PtrMap.find_erase_of_ne _ hj
      exact ⟨ms, rfl, by omega⟩

/-! ### Steps of a DBTL -/

theorem dbtlMessageStep_load {q : P} {m : DbtlMsg} {d d' : Dbtl P}
    (hstep : Dbtl.MessageStep q (.dbtlMsg m) d d') :
    ∃ es, d'.out = d.out ++ es ∧
      weight packetLoad ((Dbtl.sends es).map ofDbtl) + dbtlLoad d' <
        dbtlLoad d + packetLoad (.toDbtl q m) := by
  have hpos := packetLoad_pos (Packet.toDbtl q m)
  cases hstep with
  | skip =>
      refine ⟨[], by simp, ?_⟩
      simp only [Dbtl.sends, List.filterMap_nil, List.map_nil, weight_nil]
      omega
  | log data hmsg hcmd t htxid hconn hdata =>
      obtain rfl := RootMsg.dbtlMsg.inj hmsg
      refine ⟨[], by simp, ?_⟩
      have hpacket : packetLoad (.toDbtl q m) = 3 := by simp [packetLoad, hcmd]
      simp only [Dbtl.sends, List.filterMap_nil, List.map_nil, weight_nil, dbtlLoad,
        List.length_append, List.length_singleton]
      omega
  | lsn data hmsg hcmd b =>
      obtain rfl := RootMsg.dbtlMsg.inj hmsg
      refine ⟨_, rfl, ?_⟩
      have hpacket : packetLoad (.toDbtl q m) = 9 := by simp [packetLoad, hcmd]
      have hreply : packetLoad (.toDbService q (createDbtmMsg kLsn m.txid b)) = 8 := rfl
      simp only [Dbtl.sends, List.filterMap_cons, List.filterMap_nil, List.map_cons, List.map_nil,
        weight_cons, weight_nil, ofDbtl, hpacket, hreply, dbtlLoad]
      omega

theorem dbtlTaskStep_load {i : Nat} {d d' : Dbtl P} (hi : i < d.tasks.length)
    (hstep : Dbtl.TaskStep i d d') :
    ∃ es, d'.out = d.out ++ es ∧
      weight packetLoad ((Dbtl.sends es).map ofDbtl) + dbtlLoad d' < dbtlLoad d := by
  have htake : (d.tasks.eraseIdx i).length = d.tasks.length - 1 := List.length_eraseIdx_of_lt hi
  cases hstep with
  | none h =>
      rw [List.getElem?_eq_none_iff] at h
      omega
  | stuck t ht s' es htasks hout hes =>
      refine ⟨es, hout, ?_⟩
      simp only [hes, List.map_nil, weight_nil, dbtlLoad, htasks]
      omega
  | done t ht s' es htasks hout hes =>
      refine ⟨es, hout, ?_⟩
      simp only [hes, List.map_cons, List.map_nil, weight_cons, weight_nil, ofDbtl, packetLoad,
        createDbtmMsg, dbtlLoad, htasks]
      omega

/-! ### Steps of the system -/

variable [Fintype P] [DecidableEq P]

omit [DecidableEq P] in
theorem load_setGtm {s : Sys A P C W} {g : Gtm (A ⊕ P)}
    {ms : List ((A ⊕ P) × RootMsg)} (hout : g.out = s.gtm.out ++ ms) :
    load (s.setGtm g) + gtmLoad s.gtm =
      load s + weight packetLoad (ms.filterMap ofGtm) + gtmLoad g := by
  unfold load
  dsimp only [setGtm]
  rw [hout, List.drop_left, weight_append]
  omega

theorem load_setDbService {p : P} {s : Sys A P C W} {d : DbService C W}
    {es : List (Event C)} (hout : d.out = (s.dbs p).out ++ es) :
    load (s.setDbService p d) + dbsLoad (s.dbs p) =
      load s + eventLoad p es + dbsLoad d := by
  have hsum := sum_change (fun q => dbsLoad (s.dbs q))
    (fun q => dbsLoad ((s.setDbService p d).dbs q)) (Finset.mem_univ p)
      fun q _ hq => congrArg dbsLoad (setDbService_dbs_of_ne s hq d)
  rw [setDbService_dbs_self] at hsum
  have hnet : weight packetLoad (s.setDbService p d).net =
      weight packetLoad s.net + eventLoad p es := by
    rw [setDbService_net hout, weight_append, eventLoad]
  unfold load
  rw [hnet]
  dsimp only [setDbService] at hsum ⊢
  omega

theorem load_setDbtl {p : P} {s : Sys A P C W} {d : Dbtl P}
    {es : List (DbtlEvent P)} (hout : d.out = (s.dbtl p).out ++ es) :
    load (s.setDbtl p d) + dbtlLoad (s.dbtl p) =
      load s + weight packetLoad ((Dbtl.sends es).map ofDbtl) + dbtlLoad d := by
  have hsum := sum_change (fun q => dbtlLoad (s.dbtl q))
    (fun q => dbtlLoad ((s.setDbtl p d).dbtl q)) (Finset.mem_univ p)
      fun q _ hq => congrArg dbtlLoad (setDbtl_dbtl_of_ne s hq d)
  rw [setDbtl_dbtl_self] at hsum
  have hnet : weight packetLoad (s.setDbtl p d).net =
      weight packetLoad s.net + weight packetLoad ((Dbtl.sends es).map ofDbtl) := by
    rw [setDbtl_net hout rfl, weight_append]
  unfold load
  rw [hnet]
  dsimp only [setDbtl] at hsum ⊢
  omega

omit [DecidableEq P] in
theorem load_take {s : Sys A P C W} {i : Nat} {packet : Packet P}
    (hnet : s.net[i]? = some packet) :
    load { s with net := s.net.eraseIdx i } + packetLoad packet = load s := by
  have htake := weight_eraseIdx packetLoad hnet
  unfold load
  dsimp only
  omega

/-- A message is delivered, or lost at a process that has ended. -/
theorem load_receive {ops : Wcheck W} {first : BitVec 32} {s : Sys A P C W} {i : Nat} (conn : C)
    {packet : Packet P} (hnet : s.net[i]? = some packet)
    (hnumbered : Gtm.Numbered first s.gtm) :
    load ({ s with net := s.net.eraseIdx i }.receive ops conn packet) < load s := by
  have htake := load_take hnet
  have hpos := packetLoad_pos packet
  cases packet with
  | toGtm p m =>
      dsimp only [receive]
      rcases gtm_receive_cases s.gtm ⟨.inr p, .gtmMsg m⟩ with ⟨-, h⟩ | ⟨-, h⟩
      · have hself := setGtm_self { s with net := s.net.eraseIdx i }
        rw [h, hself]
        omega
      · obtain ⟨ms, hout, hload⟩ := gtmStep_load hnumbered (fun _ _ => packetLoad_of_vote) h
        have hset := load_setGtm (s := { s with net := s.net.eraseIdx i }) hout
        dsimp only at hset
        omega
  | toDbService p m =>
      dsimp only [receive]
      rcases act_message_cases ops conn (.dbtmMsg m) (s.dbs p) with h | ⟨hlive, h⟩
      · have hself := setDbService_self { s with net := s.net.eraseIdx i } p
        rw [h, hself]
        omega
      · obtain ⟨es, hout, hload⟩ := messageStep_load hlive h p
        have hset := load_setDbService (s := { s with net := s.net.eraseIdx i }) hout
        dsimp only at hset
        omega
  | toDbtl p m =>
      dsimp only [receive]
      split
      · omega
      · obtain ⟨es, hout, hload⟩ := dbtlMessageStep_load (Dbtl.onMessage_step p (.dbtlMsg m)
          (s.dbtl p))
        have hset := load_setDbtl (s := { s with net := s.net.eraseIdx i }) hout
        dsimp only at hset
        omega

theorem load_step (ops : Wcheck W) {first : BitVec 32} {s : Sys A P C W} {a : Act A P C}
    (hnumbered : Gtm.Numbered first s.gtm) (h : Enabled s a) :
    load (s.step ops a) < load s := by
  cases a with
  | getTxid a transType => exact absurd h id
  | entityService p conn m => exact absurd h id
  | deliver i conn =>
      obtain ⟨packet, hnet⟩ : ∃ packet, s.net[i]? = some packet :=
        ⟨_, List.getElem?_eq_getElem h⟩
      dsimp only [step]
      rw [hnet]
      exact load_receive conn hnet hnumbered
  | task p i =>
      obtain ⟨hlive, hi⟩ := h
      obtain ⟨es, hout, hload⟩ := taskStep_load hlive hi (runTask_step ops i (s.dbs p)) p
      have hset := load_setDbService hout
      dsimp only [step]
      rw [act_task_of_live ops hlive]
      omega
  | dbtlTask p i =>
      obtain ⟨hlive, hi⟩ := h
      obtain ⟨es, hout, hload⟩ := dbtlTaskStep_load hi (Dbtl.runTask_step i (s.dbtl p))
      have hset := load_setDbtl hout
      dsimp only [step]
      rw [if_neg (by simp [hlive])]
      omega

/-- An application or an entity service sends a request, or there is nothing to take. -/
theorem load_outside (ops : Wcheck W) {first : BitVec 32} {s : Sys A P C W} {a : Act A P C}
    (hnumbered : Gtm.Numbered first s.gtm) (h : ¬ Enabled s a) :
    load (s.step ops a) ≤ load s + credit a := by
  cases a with
  | getTxid a transType =>
      dsimp only [step]
      rcases gtm_receive_cases s.gtm
        ⟨.inl a, .gtmMsg (createGtmMsg kGetTxid 0 false (some transType))⟩ with ⟨-, h⟩ | ⟨-, h⟩
      · rw [h, setGtm_self]
        exact Nat.le_add_right _ _
      · obtain ⟨ms, hout, hload⟩ := gtmStep_load (n := 0) hnumbered
          (by simp [Gtm.voteOf, createGtmMsg]) h
        have hset := load_setGtm hout
        omega
  | entityService p conn m =>
      dsimp only [step]
      rcases act_message_cases ops conn (.dbServiceMsg m) (s.dbs p) with h | ⟨hlive, h⟩
      · rw [h, setDbService_self]
        exact Nat.le_add_right _ _
      · obtain ⟨es, hout, hload⟩ := requestStep_load hlive h p
        have hset := load_setDbService hout
        dsimp only [credit]
        omega
  | deliver i conn =>
      have hnet : s.net[i]? = none := List.getElem?_eq_none (Nat.le_of_not_lt h)
      dsimp only [step]
      rw [hnet]
      exact Nat.le_add_right _ _
  | task p i =>
      have hidle : (s.dbs p).act ops (.task i) = s.dbs p := by
        cases hlive : (s.dbs p).crashed with
        | true => simp [act, andThen, hlive]
        | false =>
            have hnone : (s.dbs p).tasks[i]? = none :=
              List.getElem?_eq_none (Nat.le_of_not_lt fun hi => h ⟨hlive, hi⟩)
            rw [act_task_of_live ops hlive, runTask, hnone]
      dsimp only [step]
      rw [hidle, setDbService_self]
      exact Nat.le_add_right _ _
  | dbtlTask p i =>
      dsimp only [step]
      split
      · exact Nat.le_add_right _ _
      · rename_i hlive
        have hnone : (s.dbtl p).tasks[i]? = none :=
          List.getElem?_eq_none (Nat.le_of_not_lt fun hi => h ⟨by simpa using hlive, hi⟩)
        have hidle : (s.dbtl p).runTask i = s.dbtl p := by rw [Dbtl.runTask, hnone]
        have hset := load_setDbtl (List.append_nil (s.dbtl p).out).symm
        simp only [Dbtl.sends, List.filterMap_nil, List.map_nil, weight_nil] at hset
        rw [hidle]
        omega

omit [Fintype P] in
theorem numbered_step (ops : Wcheck W) {first : BitVec 32} {s : Sys A P C W} (a : Act A P C)
    (h : Gtm.Numbered first s.gtm) : Gtm.Numbered first (s.step ops a).gtm := by
  have hstep := step_step ops s a
  generalize s.step ops a = s' at hstep ⊢
  cases hstep with
  | getTxid a transType g hlive hgtm => exact h.step hgtm
  | gtmMsg i conn p m hnet g hlive hgtm => exact h.step hgtm
  | _ => exact h

theorem settles_step (ops : Wcheck W) (first : BitVec 32) :
    Settles (step ops : Sys A P C W → Act A P C → Sys A P C W) load
      (fun s => Gtm.Numbered first s.gtm) Enabled credit where
  inv _ a h := numbered_step ops a h
  lowers _ _ h henabled := load_step ops h henabled
  raises _ _ h hidle := load_outside ops h hidle

omit [DecidableEq P] in
theorem load_init (transInfo : String → List IpAndPort) (txid : BitVec 32) (w : P → W)
    (useRocksDb : P → Bool) :
    load (init transInfo txid w useRocksDb : Sys A P C W) = 0 := by
  have hgtm : gtmLoad (Gtm.init transInfo txid : Gtm (A ⊕ P)) = 0 :=
    congrArg (5 * ·) (Finset.sum_eq_zero fun _ _ => rfl)
  simp [load, init, hgtm, dbsLoad, dbtlLoad, DbService.init, Dbtl.init]

/-! ### Systems at rest -/

/-- Nothing is left to be delivered, or to be run by a process that has not ended. -/
structure AtRest (s : Sys A P C W) : Prop where
  net : s.net = []
  dbs : ∀ p, (s.dbs p).crashed = true ∨ (s.dbs p).tasks = []
  dbtl : ∀ p, (s.dbtl p).crashed = true ∨ (s.dbtl p).tasks = []

omit [Fintype P] [DecidableEq P] in
theorem atRest_of_not_enabled [Inhabited C] {s : Sys A P C W} (h : ∀ a, ¬ Enabled s a) :
    AtRest s where
  net := List.length_eq_zero_iff.1 (Nat.eq_zero_of_not_pos (h (.deliver 0 default)))
  dbs p := by
    cases hlive : (s.dbs p).crashed with
    | true => exact Or.inl rfl
    | false =>
        refine Or.inr (List.length_eq_zero_iff.1 (Nat.eq_zero_of_not_pos fun hpos => ?_))
        exact h (.task p 0) ⟨hlive, hpos⟩
  dbtl p := by
    cases hlive : (s.dbtl p).crashed with
    | true => exact Or.inl rfl
    | false =>
        refine Or.inr (List.length_eq_zero_iff.1 (Nat.eq_zero_of_not_pos fun hpos => ?_))
        exact h (.dbtlTask p 0) ⟨hlive, hpos⟩

/-- However requests, deliveries and tasks interleave, a run has no more than ten deliveries and
tasks for a message with data and seven for a commit. At any time the system can be left to itself
and then comes to rest. -/
theorem settles [Inhabited C] (ops : Wcheck W) (transInfo : String → List IpAndPort)
    (txid : BitVec 32) (w : P → W) (useRocksDb : P → Bool) (l : List (Act A P C)) :
    taken (step ops) Enabled (init transInfo txid w useRocksDb) l ≤ weight credit l ∧
      ∃ l', Schedule (step ops) Enabled (run ops (init transInfo txid w useRocksDb) l) l' ∧
        AtRest (run ops (init transInfo txid w useRocksDb) (l ++ l')) := by
  have hsettles := settles_step (A := A) (P := P) (C := C) ops txid
  have hinit : Gtm.Numbered txid (init transInfo txid w useRocksDb : Sys A P C W).gtm :=
    Gtm.numbered_init transInfo txid
  constructor
  · have htaken := hsettles.taken_le hinit l
    rw [load_init] at htaken
    omega
  · obtain ⟨l', hl', hlast⟩ := hsettles.exists_schedule (hsettles.inv_foldl hinit l)
    refine ⟨l', hl', atRest_of_not_enabled fun a => ?_⟩
    rw [run, List.foldl_append]
    exact hlast a

end Sys

end Grit
