import Grit.System.Agreement
import Grit.System.Live
import Grit.System.Outcome

/-!
# Every transaction comes to an end

A commit that is handled while the lsn of its transaction is still asked for starts a chain that
breaks only if a process ends: the reply with the lsn queues the validation, the validation leads
to a result, a vote or a log, a log to a result. What may hold it up is the GTM, which keeps a
vote until the others have voted, too. Once nothing is left to be delivered or run, a transaction
that all its participants have committed has therefore ended, and it has ended alike at all of
them.

A commit that is handled after the reply with the lsn is not covered: the lsn of the reply reads
as `0`, so that the transaction is marked as committed and never validated.
-/

namespace Grit

open Cmd DbService Token

namespace Sys

variable {A P C W : Type*} [DecidableEq P]

/-- Nothing is left to be delivered or run. -/
structure Quiescent (s : Sys A P C W) : Prop where
  net : s.net = []
  dbs : ∀ p, (s.dbs p).tasks = []
  dbtl : ∀ p, (s.dbtl p).tasks = []

/-- In the run of `l` a commit of `x` is handled at `p` while the lsn of `x` is still asked for:
the request is queued or in flight, or the reply is in flight. -/
def CommittedInTime (ops : Wcheck W) (s : Sys A P C W) (p : P) (x : Int)
    (l : List (Act A P C)) : Prop :=
  ∃ pre conn m post, l = pre ++ .entityService p conn m :: post ∧ m.cmd = kCommit ∧
    m.txid = x ∧ 0 < asking x ((run ops s pre).dbs p) + lsnsAway p x (run ops s pre)

/-! ### One participant -/

/-- Transaction `x` is committed at `p`, and its lsn is on the way. -/
def Waiting (p : P) (x : Int) (s : Sys A P C W) : Prop :=
  Committed x (s.dbs p) ∧ 0 < asking x (s.dbs p) + lsnsAway p x s

/-- The DbService of `p` owes an answer on `x` or has given one, or something of `x` is on the
way. -/
def Underway (p : P) (x : Int) (s : Sys A P C W) : Prop := 0 < owed x (s.dbs p) + away p x s

theorem underway_of_awaiting {p : P} {x : Int} {s : Sys A P C W}
    (h : 0 < awaiting x (s.dbs p)) : Underway p x s := by
  unfold Underway owed
  omega

theorem LiveView.underway {ops : Wcheck W} {p : P} {x : Int} {s s' : Sys A P C W}
    (hview : LiveView ops p x s s') (hwf : WellFormed (s.dbs p))
    (hlive : (s'.dbs p).crashed = false) (h : Underway p x s) : Underway p x s' := by
  unfold Underway at h ⊢
  rw [away_eq] at h ⊢
  cases hview with
  | elsewhere hdbs hretains =>
      have hle := hretains _ lasting_isWork
      rw [hdbs]
      omega
  | message conn msg hstep hcount =>
      obtain ⟨es, hout⟩ := hstep.out_extends
      have howed := owed_messageStep hwf hstep hlive x
      have htokens := hcount es hout.symm isWork
      rw [← works_eq] at htokens
      omega
  | task i hdbs hcount =>
      have hstep := runTask_step ops i (s.dbs p)
      rw [← hdbs] at hstep
      obtain ⟨es, hout, howed⟩ := owed_taskStep hwf hstep hlive x
      have htokens := hcount es hout isWork
      rw [← handedOn_eq] at htokens
      omega

/-- A transaction that waits for its lsn goes on waiting, until its validation is queued. -/
theorem LiveView.waiting {ops : Wcheck W} {p : P} {x : Int} {s s' : Sys A P C W}
    (hview : LiveView ops p x s s') (hwf : WellFormed (s.dbs p))
    (hlive : (s'.dbs p).crashed = false) (h : Waiting p x s) :
    Waiting p x s' ∨ 0 < awaiting x (s.dbs p) ∨ 0 < awaiting x (s'.dbs p) := by
  obtain ⟨hcommitted, hpos⟩ := h
  unfold Waiting
  rw [lsnsAway_eq] at hpos ⊢
  cases hview with
  | elsewhere hdbs hretains =>
      have hle := hretains _ lasting_lsn
      rw [hdbs]
      exact Or.inl ⟨hcommitted, by omega⟩
  | message conn msg hstep hcount =>
      obtain ⟨es, hout⟩ := hstep.out_extends
      have htokens := hcount es hout.symm fun tok => tok = .lsn
      rw [← lsns_eq] at htokens
      rcases committed_messageStep hwf hstep hlive hcommitted with ⟨hlsns, hkeep, hle⟩ | hqueued
      · exact Or.inl ⟨hkeep, by omega⟩
      · exact Or.inr (Or.inr hqueued)
  | task i hdbs hcount =>
      have hstep := runTask_step ops i (s.dbs p)
      rw [← hdbs] at hstep
      rcases committed_taskStep hwf hstep hlive hcommitted with ⟨es, hout, hkeep, hle⟩ | hqueued
      · have htokens := hcount es hout fun tok => tok = .lsn
        rw [← requests_eq] at htokens
        exact Or.inl ⟨hkeep, by omega⟩
      · exact Or.inr (Or.inl hqueued)

/-- A validation leads to a vote, if all validations are those of a global transaction. -/
theorem LiveView.voting {ops : Wcheck W} {p : P} {x : Int} {s s' : Sys A P C W}
    (hview : LiveView ops p x s s') (hwf : WellFormed (s.dbs p))
    (hlive : (s'.dbs p).crashed = false) (hglobal : AllGlobal x (s'.dbs p).out)
    (h : Voting x (s.dbs p)) : Voting x (s'.dbs p) := by
  cases hview with
  | elsewhere hdbs _ => rwa [hdbs]
  | message conn msg hstep _ => exact h.message hwf hstep hlive
  | task i hdbs _ =>
      rw [hdbs] at hlive hglobal ⊢
      exact h.runTask hwf hlive hglobal

/-- The commit itself. -/
theorem LiveStep.commit {ops : Wcheck W} {p : P} {conn : C} {m : DbServiceMsg}
    {s s' : Sys A P C W} (hstep : LiveStep ops s (.entityService p conn m) s')
    (hwf : WellFormed (s.dbs p)) (hlive : (s'.dbs p).crashed = false) (hcmd : m.cmd = kCommit)
    (hpos : 0 < asking m.txid (s.dbs p) + lsnsAway p m.txid s) :
    Waiting p m.txid s' ∨ 0 < awaiting m.txid (s'.dbs p) := by
  cases hstep with
  | entityService _ _ _ d hmsg =>
      rw [setDbService_dbs_self] at hlive
      obtain ⟨es, hout⟩ := hmsg.out_extends
      have hcount := countP_setDbService p m.txid hout.symm fun tok => tok = .lsn
      unfold Waiting
      rw [lsnsAway_eq] at hpos ⊢
      rw [setDbService_dbs_self]
      rcases committed_of_commit hwf hcmd hmsg hlive with ⟨hcommitted, hle⟩ | hqueued
      · exact Or.inl ⟨hcommitted, by omega⟩
      · exact Or.inr hqueued

theorem out_extends_run (ops : Wcheck W) (s : Sys A P C W) (l l' : List (Act A P C)) (p : P) :
    ((run ops s l).dbs p).out <+: ((run ops s (l ++ l')).dbs p).out := by
  induction l' using List.reverseRecOn with
  | nil => simp
  | append_singleton l' a ih =>
      rw [← List.append_assoc, run_concat]
      exact ih.trans (Step.out_extends (step_step ops _ a) p)

section Run

variable {ops : Wcheck W} {transInfo : String → List IpAndPort} {txid : BitVec 32} {w : P → W}
  {useRocksDb : P → Bool} {p : P} {x : Int} {l : List (Act A P C)}

theorem issued_of_append {s : Sys A P C W} {l' : List (Act A P C)}
    (h : (run ops s (l ++ l')).gtm.issued < 4294967296) :
    (run ops s l).gtm.issued < 4294967296 := by
  induction l' using List.reverseRecOn with
  | nil => rwa [List.append_nil] at h
  | append_singleton l' a ih =>
      rw [← List.append_assoc, run_concat] at h
      exact ih (Nat.lt_of_le_of_lt (step_step ops _ a).issued_le h)

theorem liveView_run {a : Act A P C}
    (hlive : Live (run ops (init transInfo txid w useRocksDb) (l ++ [a])))
    (hids : (run ops (init transInfo txid w useRocksDb) (l ++ [a])).gtm.issued < 4294967296)
    (p : P) (x : Int) :
    LiveView ops p x (run ops (init transInfo txid w useRocksDb) l)
      (run ops (init transInfo txid w useRocksDb) (l ++ [a])) := by
  have horderly := orderly_run ops transInfo txid w useRocksDb l hlive.of_append
  have hstep := hlive.of_append.step ops a
  rw [run_concat] at hlive hids ⊢
  exact hstep.view horderly hlive.of_step hlive hids p x

/-- After a commit in time, the transaction waits for its lsn until `G` holds, provided that
`G` holds when the validation is queued and is kept. -/
theorem committed_run {G : Sys A P C W → Prop}
    (hstart : ∀ s : Sys A P C W, 0 < awaiting x (s.dbs p) → G s)
    (hlive : Live (run ops (init transInfo txid w useRocksDb) l))
    (hids : (run ops (init transInfo txid w useRocksDb) l).gtm.issued < 4294967296)
    (hkeep : ∀ pre a post, l = pre ++ [a] ++ post →
      G (run ops (init transInfo txid w useRocksDb) pre) →
        G (run ops (init transInfo txid w useRocksDb) (pre ++ [a])))
    (h : CommittedInTime ops (init transInfo txid w useRocksDb) p x l) :
    Waiting p x (run ops (init transInfo txid w useRocksDb) l) ∨
      G (run ops (init transInfo txid w useRocksDb) l) := by
  obtain ⟨pre, conn, m, post, rfl, hcmd, rfl, hpos⟩ := h
  induction post using List.reverseRecOn with
  | nil =>
      have hwf := (orderly_run ops transInfo txid w useRocksDb pre hlive.of_append).wellFormed p
      have hstep := hlive.of_append.step ops (.entityService p conn m)
      rw [run_concat] at hlive ⊢
      exact (hstep.commit hwf (hlive.dbs p) hcmd hpos).imp_right (hstart _)
  | append_singleton post a ih =>
      rw [← List.cons_append, ← List.append_assoc] at hlive hids hkeep ⊢
      have hpre := hlive.of_append
      have hwf := (orderly_run ops transInfo txid w useRocksDb _ hpre).wellFormed p
      have hlast := hkeep _ a [] (List.append_nil _).symm
      have hbefore := ih hpre (issued_of_append hids) fun pre' a' post' heq =>
        hkeep pre' a' (post' ++ [a]) (by rw [heq, List.append_assoc])
      rcases hbefore with hwaiting | hG
      · rcases (liveView_run hlive hids p m.txid).waiting hwf (hlive.dbs p) hwaiting with
          hwaiting | hqueued | hqueued
        · exact Or.inl hwaiting
        · exact Or.inr (hlast (hstart _ hqueued))
        · exact Or.inr (hstart _ hqueued)
      · exact Or.inr (hlast hG)

/-- While nothing is left to be done, no transaction waits for its lsn. -/
theorem Quiescent.not_waiting {s : Sys A P C W} (h : Quiescent s) : ¬ Waiting p x s := by
  intro hwaiting
  have hpos := hwaiting.2
  rw [asking, h.dbs p, lsnsAway, h.net] at hpos
  simp at hpos

theorem underway_run (hlive : Live (run ops (init transInfo txid w useRocksDb) l))
    (hids : (run ops (init transInfo txid w useRocksDb) l).gtm.issued < 4294967296)
    (hquiet : Quiescent (run ops (init transInfo txid w useRocksDb) l))
    (h : CommittedInTime ops (init transInfo txid w useRocksDb) p x l) :
    Underway p x (run ops (init transInfo txid w useRocksDb) l) := by
  refine (committed_run (fun _ => underway_of_awaiting) hlive hids ?_ h).resolve_left
    hquiet.not_waiting
  rintro pre a post rfl hunder
  have hlast := hlive.of_append
  have hwf := (orderly_run ops transInfo txid w useRocksDb pre hlast.of_append).wellFormed p
  have hfew := issued_of_append hids
  exact (liveView_run hlast hfew p x).underway hwf (hlast.dbs p) hunder

theorem voting_run (hlive : Live (run ops (init transInfo txid w useRocksDb) l))
    (hids : (run ops (init transInfo txid w useRocksDb) l).gtm.issued < 4294967296)
    (hquiet : Quiescent (run ops (init transInfo txid w useRocksDb) l))
    (hglobal : AllGlobal x ((run ops (init transInfo txid w useRocksDb) l).dbs p).out)
    (h : CommittedInTime ops (init transInfo txid w useRocksDb) p x l) :
    Voting x ((run ops (init transInfo txid w useRocksDb) l).dbs p) := by
  refine (committed_run (G := fun s => Voting x (s.dbs p)) (fun _ hq => Nat.lt_add_left _ hq)
    hlive hids ?_ h).resolve_left hquiet.not_waiting
  rintro pre a post rfl hvoting
  have hlast := hlive.of_append
  have hwf := (orderly_run ops transInfo txid w useRocksDb pre hlast.of_append).wellFormed p
  have hfew := issued_of_append hids
  refine (liveView_run hlast hfew p x).voting hwf (hlast.dbs p) ?_ hvoting
  intro t ks c hmem
  exact hglobal t ks c ((out_extends_run ops _ _ post p).subset hmem)

end Run

/-- Once nothing is left to be done, what is underway is a result or a vote that the GTM holds. -/
theorem Quiescent.returned {p : P} {x : Int} {s : Sys A P C W} (h : Quiescent s)
    (hunder : Underway p x s) : 0 < results x (s.dbs p).out ∨ 0 < held p x s.gtm := by
  have howed : owed x (s.dbs p) = results x (s.dbs p).out := by
    simp [owed, awaiting, solving, h.dbs p]
  have haway : away p x s = held p x s.gtm := by
    simp [away, logging, h.net, h.dbtl p]
  rw [Underway, howed, haway] at hunder
  omega

/-- In every run in which no process has ended and fewer than `2 ^ 32` ids were handed out, for a
transaction that was committed at `p` while its lsn was still asked for: once nothing is left to be
delivered or run, `p` has returned a result, or the GTM holds its vote. -/
theorem returned_or_held (ops : Wcheck W) (transInfo : String → List IpAndPort) (txid : BitVec 32)
    (w : P → W) (useRocksDb : P → Bool) (l : List (Act A P C)) (p : P) (x : Int)
    (hcommit : CommittedInTime ops (init transInfo txid w useRocksDb) p x l)
    (hlive : Live (run ops (init transInfo txid w useRocksDb) l))
    (hids : (run ops (init transInfo txid w useRocksDb) l).gtm.issued < 4294967296)
    (hquiet : Quiescent (run ops (init transInfo txid w useRocksDb) l)) :
    0 < results x ((run ops (init transInfo txid w useRocksDb) l).dbs p).out ∨
      0 < held p x (run ops (init transInfo txid w useRocksDb) l).gtm :=
  hquiet.returned (underway_run hlive hids hquiet hcommit)

/-- The first participant has voted; the other one has not committed yet. -/
def loneVote : List (Act Unit Bool Unit) :=
  [.getTxid () "transfer",
    .entityService false () (createDbServiceMsg kData 0 false (some []) (some [])),
    .entityService false () (createDbServiceMsg kCommit 0 true),
    .task false 0, .deliver 0 (), .deliver 0 (), .task false 0, .deliver 0 ()]

theorem returned_or_held_loneVote :
    0 < results 0 ((run Wcheck.contract
        (init (fun _ => [⟨"a", 1⟩, ⟨"b", 2⟩]) 0 (fun _ => []) fun _ => false)
          loneVote).dbs false).out ∨
      0 < held false 0 (run Wcheck.contract
        (init (fun _ => [⟨"a", 1⟩, ⟨"b", 2⟩]) 0 (fun _ => []) fun _ => false) loneVote).gtm := by
  refine returned_or_held _ _ _ _ _ loneVote false 0 ?_ ?_ (by decide) ?_
  · exact ⟨loneVote.take 2, (), createDbServiceMsg kCommit 0 true, loneVote.drop 3, rfl, rfl, rfl,
      by decide⟩
  · exact ⟨rfl, by decide, by decide⟩
  · exact ⟨rfl, by decide, by decide⟩

/-! ### All participants -/

/-- The votes that were sent are in flight or counted, for the one entry that there has been. -/
structure Counted (x : Int) (n : Nat) (V : List (P × Bool)) (s : Sys A P C W) : Prop where
  box : Box x n V V s.gtm
  cast : ∀ p c, (ballots x (s.dbs p).out).count c ≤ (flying x s.net ++ V).count (p, c)

/-- A message is taken that is no vote on `x`. -/
theorem flying_eraseIdx_of_none {x : Int} {net : List (Packet P)} {i : Nat} {packet : Packet P}
    (hnet : net[i]? = some packet) (hnone : ballotOf x packet = none) (v : P × Bool) :
    (flying x (net.eraseIdx i)).count v = (flying x net).count v := by
  have hcount := Bag.countP_filterMap_eraseIdx (ballotOf x) hnet (· == v)
  rw [hnone] at hcount
  exact hcount.symm

theorem Counted.shrink {x : Int} {n : Nat} {V : List (P × Bool)} {s : Sys A P C W}
    (h : Counted x n V s) {i : Nat} {packet : Packet P} (hnet : s.net[i]? = some packet)
    (hnone : ballotOf x packet = none) : Counted x n V { s with net := s.net.eraseIdx i } := by
  refine ⟨h.box, ?_⟩
  intro p c
  have hcast := h.cast p c
  rw [List.count_append] at hcast ⊢
  rw [flying_eraseIdx_of_none hnet hnone]
  exact hcast

theorem Counted.setDbService {x : Int} {n : Nat} {V : List (P × Bool)} {s : Sys A P C W}
    (h : Counted x n V s) {q : P} {d : DbService C W} (hout : (s.dbs q).out <+: d.out) :
    Counted x n V (s.setDbService q d) := by
  obtain ⟨es, hout⟩ := hout
  refine ⟨h.box, ?_⟩
  intro p c
  have hcast := h.cast p c
  rw [setDbService_net hout.symm, flying_append, flying_ofDbService]
  simp only [List.count_append, Bag.count_map_pair] at hcast ⊢
  by_cases hpq : p = q
  · subst hpq
    rw [setDbService_dbs_self, ← hout, ballots_append, List.count_append, if_pos rfl]
    omega
  · rw [setDbService_dbs_of_ne _ hpq, if_neg hpq]
    omega

theorem Counted.setDbtl {x : Int} {n : Nat} {V : List (P × Bool)} {s : Sys A P C W}
    (h : Counted x n V s) (q : P) (d : Dbtl P) : Counted x n V (s.setDbtl q d) := by
  refine ⟨h.box, ?_⟩
  intro p c
  have hcast := h.cast p c
  dsimp only [Sys.setDbtl]
  rwa [flying_append, flying_ofDbtl, List.append_nil]

theorem Counted.setGtm {x : Int} {n : Nat} {V V' : List (P × Bool)} {s : Sys A P C W}
    (h : Counted x n V s) (net : List (Packet P)) {g : Gtm (A ⊕ P)} (hbox : Box x n V' V' g)
    (hnet : ∀ v, (flying x s.net ++ V).count v = (flying x net ++ V').count v) :
    Counted x n V' ({ s with net := net }.setGtm g) := by
  refine ⟨hbox, ?_⟩
  intro p c
  have hcast := h.cast p c
  dsimp only [Sys.setGtm]
  rw [flying_append, flying_ofGtm, List.append_nil, ← hnet]
  exact hcast

omit [DecidableEq P] in
/-- While the ids are new, the box is not opened again. -/
theorem Box.keep_of_new {x : Int} {n : Nat} {V : List (P × Bool)} {g g' : Gtm (A ⊕ P)}
    {a : Gtm.Arrival (A ⊕ P)} (h : Box x n V V g) (hlive : g.crashed = false)
    (hstep : Gtm.Step a g g') (hn : 1 < n) (hreg : RegisteredFor x n g')
    (hv : Gtm.voteOf x a = none) {first : BitVec 32} (hnumbered : Gtm.Numbered first g)
    (hids : g'.issued < 4294967296) : Box x n V V g' := by
  rcases h.keep hlive hstep hn hreg hv with hbox | ⟨hx, hbox⟩
  · exact hbox
  · have hmore := Nat.lt_of_le_of_lt hstep.issued_le hids
    have hnew : ¬ ∃ list, Gtm.Registered x list g := by
      rintro ⟨list, hlist⟩
      obtain ⟨k, hk, heq⟩ := hnumbered.registered x list hlist
      exact hnumbered.ne_txid hmore hk (heq.symm.trans hx)
    cases h with
    | dead hdead => simp [hdead] at hlive
    | absent hV hU hfind hout => rwa [hV] at hbox ⊢
    | waiting hsuffix hlen hreg hfind hout => exact absurd hreg hnew
    | decided hlen hreg hfind hout => exact absurd hreg hnew

/-- A message that the GTM takes from the net. -/
theorem Counted.gtmMsg {x : Int} {parts : List P} {V : List (P × Bool)} {s : Sys A P C W}
    (h : Counted x parts.length V s) (hagree : Agree x parts.length V s)
    (hparts : Participants x parts s) {i : Nat} {p : P} {m : GtmMsg}
    (hnet : s.net[i]? = some (.toGtm p m)) {g : Gtm (A ⊕ P)} (hlive : s.gtm.crashed = false)
    (hstep : Gtm.Step ⟨.inr p, .gtmMsg m⟩ s.gtm g) (hreg : RegisteredFor x parts.length g)
    {first : BitVec 32} (hnumbered : Gtm.Numbered first s.gtm) (hids : g.issued < 4294967296) :
    Counted x parts.length (V ++ (ballotOf x (.toGtm p m)).toList)
      ({ s with net := s.net.eraseIdx i }.setGtm g) := by
  have hvote := voteOf_toGtm (A := A) x p m
  by_cases hm : m.cmd = kJudgeConflit ∧ m.txid = x
  · have hballot : ballotOf x (.toGtm p m) = some (p, m.isLocalConflict) := if_pos hm
    obtain ⟨-, hfew⟩ := hagree.few hparts hnet hm.1 hm.2
    rw [hballot] at hvote ⊢
    refine h.setGtm _ (h.box.vote hlive hstep hvote hfew) fun v => ?_
    rw [Option.toList_some, List.count_append, flying_vote_count hnet hm.1 hm.2]
    simp only [List.count_append]
    omega
  · have hballot : ballotOf x (.toGtm p m) = none := if_neg hm
    rw [hballot] at hvote ⊢
    rw [Option.toList_none, List.append_nil]
    refine h.setGtm _ (h.box.keep_of_new hlive hstep hparts.many hreg hvote hnumbered hids) ?_
    intro v
    rw [List.count_append, List.count_append, flying_eraseIdx_of_none hnet hballot]

theorem Counted.step {ops : Wcheck W} {x : Int} {parts : List P} {V : List (P × Bool)}
    {s s' : Sys A P C W} {a : Act A P C} (h : Counted x parts.length V s)
    (hagree : Agree x parts.length V s) (hlive : Live s) (hstep : LiveStep ops s a s')
    (hparts : Participants x parts s) (hparts' : Participants x parts s') {first : BitVec 32}
    (hnumbered : Gtm.Numbered first s.gtm) (hids : s'.gtm.issued < 4294967296) :
    Counted x parts.length (V ++ takenVotes x s a) s' := by
  have hnone : ∀ {a}, takenVotes x s a = [] → Counted x parts.length V s' →
      Counted x parts.length (V ++ takenVotes x s a) s' := by
    intro a htaken hcounted
    rw [htaken, List.append_nil]
    exact hcounted
  cases hstep with
  | absent i conn hnet => exact hnone (by simp [takenVotes, hnet]) h
  | getTxid a transType g hgtm =>
      have hbox := h.box.keep_of_new hlive.gtm hgtm hparts.many hparts'.registered
        (by simp [Gtm.voteOf, createGtmMsg]) hnumbered hids
      exact hnone rfl (h.setGtm s.net hbox fun _ => rfl)
  | gtmMsg i conn q m hnet g hgtm =>
      rw [takenVotes_of_getElem? hnet]
      exact h.gtmMsg hagree hparts hnet hlive.gtm hgtm hparts'.registered hnumbered hids
  | entityService q conn m d hmsg => exact hnone rfl (h.setDbService hmsg.out_extends)
  | dbtmMsg i conn q m hnet d hmsg =>
      exact hnone (takenVotes_of_getElem? hnet conn)
        ((h.shrink hnet rfl).setDbService hmsg.out_extends)
  | task q i => exact hnone rfl (h.setDbService (TaskStep.out_extends (runTask_step ops i _)))
  | dbtlMsg i conn q m hnet =>
      exact hnone (takenVotes_of_getElem? hnet conn) ((h.shrink hnet rfl).setDbtl q _)
  | dbtlTask q i => exact hnone rfl (h.setDbtl q _)

theorem counted_run {ops : Wcheck W} {transInfo : String → List IpAndPort} {txid : BitVec 32}
    {w : P → W} {useRocksDb : P → Bool} {x : Int} {parts : List P} (l : List (Act A P C))
    (hparts : Participants x parts (run ops (init transInfo txid w useRocksDb) l))
    (hlive : Live (run ops (init transInfo txid w useRocksDb) l))
    (hids : (run ops (init transInfo txid w useRocksDb) l).gtm.issued < 4294967296) :
    ∃ V, Agree x parts.length V (run ops (init transInfo txid w useRocksDb) l) ∧
      Counted x parts.length V (run ops (init transInfo txid w useRocksDb) l) := by
  induction l using List.reverseRecOn with
  | nil =>
      exact ⟨[], agree_init transInfo txid w useRocksDb x parts.length, .absent rfl rfl rfl rfl,
        by simp [run, init, DbService.init, ballots]⟩
  | append_singleton l a ih =>
      have hnumbered := (orderly_run ops transInfo txid w useRocksDb l hlive.of_append).numbered
      have hbefore := issued_of_append hids
      rw [run_concat] at hparts hlive hids ⊢
      have hstep := step_step ops (run ops (init transInfo txid w useRocksDb) l) a
      have hparts₀ := hparts.of_step hstep
      obtain ⟨V, hagree, hcounted⟩ := ih hparts₀ hlive.of_step hbefore
      exact ⟨_, hagree.step hstep hparts, hcounted.step hagree hlive.of_step
        (hlive.of_step.step ops a) hparts₀ hparts hnumbered hids⟩

/-- Once every participant has voted and all votes have arrived, the GTM holds none. -/
theorem Counted.held_eq_zero {x : Int} {parts : List P} {V : List (P × Bool)} {s : Sys A P C W}
    (h : Counted x parts.length V s) (hlive : Live s) (hquiet : Quiescent s)
    (hnodup : parts.Nodup) (hmany : 1 < parts.length)
    (hvoting : ∀ p ∈ parts, Voting x (s.dbs p)) (p : P) : held p x s.gtm = 0 := by
  have hsub : parts ⊆ V.map Prod.fst := by
    intro q hq
    have hpos := hvoting q hq
    rw [Voting, awaiting, hquiet.dbs q, List.countP_nil, Nat.add_zero] at hpos
    obtain ⟨c, hc⟩ := List.exists_mem_of_length_pos hpos
    have hcast := Nat.lt_of_lt_of_le (List.count_pos_iff.2 hc) (h.cast q c)
    rw [hquiet.net] at hcast
    exact List.mem_map.2 ⟨(q, c), List.count_pos_iff.1 hcast, rfl⟩
  have hlen : parts.length ≤ V.length := by
    have hle := (hnodup.subperm hsub).length_le
    rwa [List.length_map] at hle
  cases h.box with
  | dead hdead => exact absurd (hlive.gtm.symm.trans hdead) (by simp)
  | absent hV hU hfind hout =>
      rw [hV, List.length_nil] at hlen
      omega
  | waiting hsuffix hlt hreg hfind hout => omega
  | decided heq hreg hfind hout =>
      rcases hfind with hfind | hfind
      · simp [held, hfind]
      · simp [held, hfind, TxidInfo.tally]

end Sys

/-! ### Results -/

namespace DbService

variable {C W : Type*}

theorem results_pos {x : Int} {out : List (Event C)} (h : 0 < results x out) :
    ∃ status, .retResult status x ∈ out := by
  obtain ⟨e, he, hx⟩ := List.countP_pos_iff.1 h
  cases e with
  | retResult status y =>
      obtain rfl : y = x := by simpa using hx
      exact ⟨status, he⟩
  | _ => simp at hx

theorem logged_of_sent {x : Int} {es : List (Event C)} (h : 0 < (sent x es).countP isReport) :
    Logged x es := by
  obtain ⟨tok, htok, hreport⟩ := List.countP_pos_iff.1 h
  obtain ⟨e, he, hsome⟩ := List.mem_filterMap.1 htok
  cases e with
  | sendGtm m =>
      obtain rfl := Option.some.inj (Option.ite_none_right_eq_some.1 hsome).2
      simp [isReport] at hreport
  | sendDbtl m =>
      obtain ⟨hx, htoken⟩ := Option.ite_none_right_eq_some.1 hsome
      cases hcmd : m.cmd with
      | kLog => exact Or.inr ⟨m, he, hcmd, hx⟩
      | kLsn =>
          rw [hcmd] at htoken
          obtain rfl := Option.some.inj htoken
          simp [isReport] at hreport
      | _ => simp [hcmd] at htoken
  | _ => simp at hsome

/-- The results of a message are those of the DBTL. -/
theorem MessageStep.result_of_mem {x : Int} {conn : C} {msg : RootMsg} {d d' : DbService C W}
    (hstep : MessageStep conn msg d d') :
    ∃ es, d'.out = d.out ++ es ∧ ∀ status, .retResult status x ∈ es →
      arriving x msg = some .result ∧ (status = kTranSuccess ∨ status = kTranFail) := by
  cases hstep with
  | skip => exact ⟨[], by simp, by simp⟩
  | stuck _ hout hc => exact ⟨[], by simp [hout], by simp⟩
  | collect data hmsg hcmd p t d₁ hopen rset wset =>
      exact ⟨[], by simp [(opened_find hopen).2.2], by simp⟩
  | commitEarly => exact ⟨[], by simp, by simp⟩
  | commitReady => exact ⟨_, rfl, by simp⟩
  | lsnEarly => exact ⟨[], by simp, by simp⟩
  | lsnReady => exact ⟨_, rfl, by simp⟩
  | decision => exact ⟨[], by simp, by simp⟩
  | result data hmsg hcmd s' hret =>
      have harrive : data.txid = x → arriving x msg = some .result := by
        intro hx
        rcases hcmd with hcmd | hcmd
        · simp [hmsg, arriving, tokenOf, hx, hcmd]
        · simp [hmsg, arriving, tokenOf, hx, hcmd]
      cases hret with
      | lost =>
          refine ⟨_, rfl, ?_⟩
          intro status hmem
          obtain ⟨rfl, rfl⟩ : status = data.cmd ∧ x = data.txid := by simpa using hmem
          exact ⟨harrive rfl, hcmd⟩
      | sent conn heap c hconn hheap =>
          refine ⟨_, rfl, ?_⟩
          intro status hmem
          obtain ⟨rfl, rfl⟩ : status = data.cmd ∧ x = data.txid := by simpa using hmem
          exact ⟨harrive rfl, hcmd⟩

/-- The results of a task are failures. -/
theorem TaskStep.fail_of_mem {ops : Wcheck W} {x : Int} {i : Nat} {d d' : DbService C W}
    (hstep : TaskStep ops i d d') :
    ∃ es, d'.out = d.out ++ es ∧ ∀ status, .retResult status x ∈ es → status = kTranFail := by
  cases hstep with
  | none => exact ⟨[], by simp, by simp⟩
  | getLsn => exact ⟨_, rfl, by simp⟩
  | dangling => exact ⟨[], by simp, by simp⟩
  | judge p t htask ht s' hjudge =>
      cases hjudge with
      | stuck => exact ⟨_, rfl, by simp [prologue]⟩
      | vote => exact ⟨_, rfl, by simp [prologue]⟩
      | cacheStuck => exact ⟨_, rfl, by simp [prologue]⟩
      | cache => exact ⟨_, rfl, by simp [prologue]⟩
      | failLost => exact ⟨_, rfl, by simp +contextual [prologue]⟩
      | fail w ks conn heap c vote hc hconn hheap hvote =>
          refine ⟨_, rfl, ?_⟩
          rcases hvote with rfl | ⟨-, rfl⟩
          · simp +contextual [prologue]
          · simp +contextual [prologue]
  | ignore => exact ⟨[], by simp, by simp⟩
  | solve data htask hcmd s' hsolve =>
      cases hsolve with
      | missing => exact ⟨[], by simp, by simp⟩
      | dangling => exact ⟨[], by simp, by simp⟩
      | cacheStuck => exact ⟨_, rfl, by simp⟩
      | cache p t w tail hp ht hd hw htail =>
          refine ⟨_, rfl, ?_⟩
          rcases htail with ⟨rfl, -⟩ | rfl
          · simp
          · simp
      | fail s' hd hret =>
          cases hret with
          | lost => exact ⟨_, List.append_assoc _ _ _, by simp +contextual⟩
          | sent => exact ⟨_, List.append_assoc _ _ _, by simp +contextual⟩

end DbService

namespace Sys

variable {A P C W : Type*} [DecidableEq P]

/-- A success comes from a log: one that is on its way, or one that was reported. -/
structure Reported (p : P) (x : Int) (s : Sys A P C W) : Prop where
  coming : 0 < (tokens p x s).countP isReport → Logged x (s.dbs p).out
  success : .retResult kTranSuccess x ∈ (s.dbs p).out → Logged x (s.dbs p).out
  status : ∀ status, .retResult status x ∈ (s.dbs p).out →
    status = kTranSuccess ∨ status = kTranFail

theorem Reported.view {ops : Wcheck W} {p : P} {x : Int} {s s' : Sys A P C W} {a : Act A P C}
    (h : Reported p x s) (hview : View ops p x s a s') : Reported p x s' := by
  cases hview with
  | elsewhere hdbs hfades =>
      have hle := hfades _ inherited_isReport
      refine ⟨?_, ?_, ?_⟩
      · rw [hdbs]
        exact fun hpos => h.coming (by omega)
      · rw [hdbs]
        exact h.success
      · rw [hdbs]
        exact h.status
  | message conn msg hlive hstep hcommit hzero hcount =>
      obtain ⟨es, hout, hresult⟩ := hstep.result_of_mem (x := x)
      have hsum := hcount es hout isReport
      -- a log that is sent, or one that was on its way before
      have hlogged : 0 < (tokens p x s).countP isReport + (sent x es).countP isReport →
          Logged x (s'.dbs p).out := by
        intro hpos
        rw [hout, logged_append]
        rcases Nat.eq_zero_or_pos ((sent x es).countP isReport) with hzero | hsent
        · exact Or.inl (h.coming (by omega))
        · exact Or.inr (logged_of_sent hsent)
      refine ⟨fun hpos => hlogged (by omega), ?_, ?_⟩
      · intro hmem
        rw [hout] at hmem
        rcases List.mem_append.1 hmem with hmem | hmem
        · rw [hout, logged_append]
          exact Or.inl (h.success hmem)
        · rw [(hresult _ hmem).1] at hsum
          refine hlogged ?_
          rw [← hsum]
          exact Nat.lt_add_left _ Nat.one_pos
      · intro status hmem
        rw [hout] at hmem
        rcases List.mem_append.1 hmem with hmem | hmem
        · exact h.status status hmem
        · exact (hresult status hmem).2
  | task i ha hlive hstep hcount =>
      obtain ⟨es, hout, hfail⟩ := hstep.fail_of_mem (x := x)
      have hsum := hcount es hout isReport
      refine ⟨?_, ?_, ?_⟩
      · intro hpos
        rw [hout, logged_append]
        rcases Nat.eq_zero_or_pos ((sent x es).countP isReport) with hzero | hsent
        · exact Or.inl (h.coming (by omega))
        · exact Or.inr (logged_of_sent hsent)
      · intro hmem
        rw [hout] at hmem ⊢
        rw [logged_append]
        rcases List.mem_append.1 hmem with hmem | hmem
        · exact Or.inl (h.success hmem)
        · exact absurd (hfail _ hmem) (by simp)
      · intro status hmem
        rw [hout] at hmem
        rcases List.mem_append.1 hmem with hmem | hmem
        · exact h.status status hmem
        · exact Or.inr (hfail status hmem)

theorem reported_run (ops : Wcheck W) (transInfo : String → List IpAndPort) (txid : BitVec 32)
    (w : P → W) (useRocksDb : P → Bool) (l : List (Act A P C)) (p : P) (x : Int) :
    Linked (run ops (init transInfo txid w useRocksDb) l) ∧
      Reported p x (run ops (init transInfo txid w useRocksDb) l) := by
  induction l using List.reverseRecOn with
  | nil =>
      refine ⟨linked_init transInfo txid w useRocksDb, ?_, ?_, ?_⟩
      · simp [run, init, tokens, heldTokens, Gtm.init, Dbtl.init]
      · simp [run, init, DbService.init]
      · simp [run, init, DbService.init]
  | append_singleton l a ih =>
      rw [run_concat]
      obtain ⟨hlinked, hview⟩ := view_of_step ih.1
        (step_step ops (run ops (init transInfo txid w useRocksDb) l) a) p x
      exact ⟨hlinked, ih.2.view hview⟩

/-- A log at one participant excludes a failure at every other one. -/
theorem Agree.not_failed {x : Int} {parts : List P} {V : List (P × Bool)} {s : Sys A P C W}
    (h : Agree x parts.length V s) (hparts : Participants x parts s) {p q : P}
    (hp : Logged x (s.dbs p).out) : ¬ Failed x (s.dbs q).out := by
  intro hq
  obtain ⟨hlen, hnone⟩ := h.logged p hp
  rcases h.failed q hq with htrue | hverdict
  · have hmem : q ∈ parts := by
      by_contra hnot
      simp [hparts.member q hnot] at htrue
    obtain ⟨c, hv, hans⟩ := h.voted hparts hlen hmem
    have hc : c = true := by simpa [hans] using htrue
    rw [hc] at hv
    exact absurd (List.any_eq_false.1 hnone (q, true) hv) (by simp)
  · rw [hverdict.2] at hnone
    exact absurd hnone (by simp)

section Run

variable {ops : Wcheck W} {transInfo : String → List IpAndPort} {txid : BitVec 32} {w : P → W}
  {useRocksDb : P → Bool} {l : List (Act A P C)} {x : Int} {parts : List P}

/-- Every participant has come to an end. -/
theorem ended_run (hparts : Participants x parts (run ops (init transInfo txid w useRocksDb) l))
    (hcommit : ∀ p ∈ parts, CommittedInTime ops (init transInfo txid w useRocksDb) p x l)
    (hlive : Live (run ops (init transInfo txid w useRocksDb) l))
    (hids : (run ops (init transInfo txid w useRocksDb) l).gtm.issued < 4294967296)
    (hquiet : Quiescent (run ops (init transInfo txid w useRocksDb) l)) :
    ∀ p ∈ parts, .retResult kTranSuccess x ∈
        ((run ops (init transInfo txid w useRocksDb) l).dbs p).out ∨
      Failed x ((run ops (init transInfo txid w useRocksDb) l).dbs p).out := by
  obtain ⟨V, -, hcounted⟩ := counted_run l hparts hlive hids
  have hvoting := fun p hp => voting_run hlive hids hquiet (hparts.global p) (hcommit p hp)
  intro p hp
  have hheld := hcounted.held_eq_zero hlive hquiet hparts.nodup hparts.many hvoting p
  have hreturned := hquiet.returned (underway_run hlive hids hquiet (hcommit p hp))
  obtain ⟨status, hstatus⟩ := results_pos (hreturned.resolve_right (by omega))
  rcases (reported_run ops transInfo txid w useRocksDb l p x).2.status status hstatus with
    rfl | rfl
  · exact Or.inl hstatus
  · exact Or.inr hstatus

/-- Participants that have all come to an end have come to the same one. -/
theorem alike_of_ended
    (hparts : Participants x parts (run ops (init transInfo txid w useRocksDb) l))
    (hended : ∀ p ∈ parts, .retResult kTranSuccess x ∈
        ((run ops (init transInfo txid w useRocksDb) l).dbs p).out ∨
      Failed x ((run ops (init transInfo txid w useRocksDb) l).dbs p).out) :
    (∀ p ∈ parts, .retResult kTranSuccess x ∈
        ((run ops (init transInfo txid w useRocksDb) l).dbs p).out ∧
      ¬ Failed x ((run ops (init transInfo txid w useRocksDb) l).dbs p).out) ∨
    ∀ p ∈ parts, Failed x ((run ops (init transInfo txid w useRocksDb) l).dbs p).out ∧
      ¬ Logged x ((run ops (init transInfo txid w useRocksDb) l).dbs p).out := by
  obtain ⟨V, hagree⟩ := agree_run ops transInfo txid w useRocksDb l hparts
  have hlogged := fun p => (reported_run ops transInfo txid w useRocksDb l p x).2.success
  by_cases hfail : ∃ q ∈ parts, Failed x ((run ops (init transInfo txid w useRocksDb) l).dbs q).out
  · obtain ⟨q, -, hq⟩ := hfail
    have hnone := fun p hp => hagree.not_failed hparts (p := p) (q := q) hp hq
    exact Or.inr fun p hp => ⟨(hended p hp).resolve_left fun hs => hnone p (hlogged p hs), hnone p⟩
  · refine Or.inl fun p hp => ?_
    have hp' := fun hf => hfail ⟨p, hp, hf⟩
    exact ⟨(hended p hp).resolve_right hp', hp'⟩

end Run

/-- In every run in which no process has ended and fewer than `2 ^ 32` ids were handed out, for a
transaction that each of its participants has committed while the lsn was still asked for (two or
more, as many as it is registered for, and only they validate it, once each and globally): once
nothing is left to be delivered or run, every participant has returned a success and none a
failure, or every participant has returned a failure and none has logged the transaction. -/
theorem ends_alike (ops : Wcheck W) (transInfo : String → List IpAndPort) (txid : BitVec 32)
    (w : P → W) (useRocksDb : P → Bool) (l : List (Act A P C)) (x : Int) (parts : List P)
    (hparts : Participants x parts (run ops (init transInfo txid w useRocksDb) l))
    (hcommit : ∀ p ∈ parts, CommittedInTime ops (init transInfo txid w useRocksDb) p x l)
    (hlive : Live (run ops (init transInfo txid w useRocksDb) l))
    (hids : (run ops (init transInfo txid w useRocksDb) l).gtm.issued < 4294967296)
    (hquiet : Quiescent (run ops (init transInfo txid w useRocksDb) l)) :
    (∀ p ∈ parts, .retResult kTranSuccess x ∈
        ((run ops (init transInfo txid w useRocksDb) l).dbs p).out ∧
      ¬ Failed x ((run ops (init transInfo txid w useRocksDb) l).dbs p).out) ∨
    ∀ p ∈ parts, Failed x ((run ops (init transInfo txid w useRocksDb) l).dbs p).out ∧
      ¬ Logged x ((run ops (init transInfo txid w useRocksDb) l).dbs p).out := by
  have hended := ended_run hparts hcommit hlive hids hquiet
  exact alike_of_ended hparts hended

/-- Both participants commit and pass their checks, and all messages are handled. -/
def wholeRun : List (Act Unit Bool Unit) :=
  commitRun ++ [.deliver 0 (), .deliver 0 (), .dbtlTask false 0, .dbtlTask true 0, .deliver 0 (),
    .deliver 0 ()]

/-- The system of two participants after it. -/
def wholeEnd : Sys Unit Bool Unit (List Info) :=
  run Wcheck.contract (init (fun _ => [⟨"a", 1⟩, ⟨"b", 2⟩]) 0 (fun _ => []) fun _ => false) wholeRun

theorem participants_wholeEnd : Participants 0 [false, true] wholeEnd where
  nodup := by decide
  many := by decide
  registered := by
    intro list hreg
    obtain ⟨conn, hmem⟩ := hreg
    have hout : wholeEnd.gtm.out = [(.inl (), Gtm.txidReply 0 [⟨"a", 1⟩, ⟨"b", 2⟩]),
        (.inr false, Gtm.decision 0 false), (.inr true, Gtm.decision 0 false)] := rfl
    rw [hout] at hmem
    simp [Gtm.txidReply, Gtm.decision, createAppMsg] at hmem
    simp [hmem]
  member := by
    intro p hp
    cases p with
    | false => simp at hp
    | true => simp at hp
  once := by decide
  global := by
    intro p t ks c hmem _
    have hall : ∀ p, (wholeEnd.dbs p).out.all judgedGlobally = true := by decide
    exact List.all_eq_true.1 (hall p) _ hmem

theorem ends_alike_wholeRun :
    (∀ p ∈ [false, true], .retResult kTranSuccess 0 ∈ (wholeEnd.dbs p).out ∧
      ¬ Failed 0 (wholeEnd.dbs p).out) ∨
    ∀ p ∈ [false, true], Failed 0 (wholeEnd.dbs p).out ∧ ¬ Logged 0 (wholeEnd.dbs p).out := by
  refine ends_alike _ _ _ _ _ wholeRun 0 [false, true] participants_wholeEnd ?_ ?_ (by decide) ?_
  · intro p _
    cases p with
    | false =>
        exact ⟨wholeRun.take 2, (), createDbServiceMsg kCommit 0 true, wholeRun.drop 3, rfl, rfl,
          rfl, by decide⟩
    | true =>
        exact ⟨wholeRun.take 4, (), createDbServiceMsg kCommit 0 true, wholeRun.drop 5, rfl, rfl,
          rfl, by decide⟩
  · exact ⟨rfl, by decide, by decide⟩
  · exact ⟨rfl, by decide, by decide⟩

end Sys

end Grit
