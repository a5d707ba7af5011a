import Grit.Library.Collections
import Grit.DbService.Effect
import Grit.System.Basic

/-!
# Atomic commit

For one transaction `x` the votes that the GTM has counted decide everything:
every decision in flight or queued, every log and every failure without a local
conflict comes after all votes are in, and agrees with their disjunction. The
votes, in turn, are the answers of the local checks of the participants.
`Agree` is this invariant; it is kept by every step of the system.
-/

namespace Grit

open Cmd DbService

namespace Sys

variable {A P C W : Type*} [DecidableEq P]

/-- The vote on transaction `x` that a message carries, with its sender. -/
def ballotOf (x : Int) : Packet P → Option (P × Bool)
  | .toGtm p m =>
      if m.cmd = kJudgeConflit ∧ m.txid = x then some (p, m.isLocalConflict) else none
  | _ => none

/-- The votes on transaction `x` in flight. -/
def flying (x : Int) (net : List (Packet P)) : List (P × Bool) :=
  net.filterMap (ballotOf x)

/-- All `n` votes are counted, and their disjunction is `b`. -/
def Verdict (n : Nat) (V : List (P × Bool)) (b : Bool) : Prop :=
  V.length = n ∧ V.any Prod.snd = b

/-- The votes with the connections of the voters. -/
def voters (V : List (P × Bool)) : List ((A ⊕ P) × Bool) :=
  V.map fun v => (.inr v.1, v.2)

/-- The GTM on transaction `x`, which has counted the votes `V`, and those in `U` for
its present entry: it does not know the transaction yet, it waits for votes, it has
decided, or it has ended. The id may be handed out again, which makes a new entry. -/
inductive Box (x : Int) (n : Nat) (V U : List (P × Bool)) (g : Gtm (A ⊕ P)) : Prop where
  | absent (hV : V = []) (hU : U = []) (hfind : g.table.find x = none)
      (hout : Gtm.decisions x g.out = []) : Box x n V U g
  | waiting (hsuffix : U <:+ V) (hlen : U.length < n)
      (hreg : ∃ list, Gtm.Registered x list g)
      (hfind : g.table.find x = some (TxidInfo.tally n (voters U)))
      (hout : Gtm.decisions x g.out = []) : Box x n V U g
  | decided (hlen : V.length = n) (hreg : ∃ list, Gtm.Registered x list g)
      (hfind : g.table.find x = none ∨ g.table.find x = some (TxidInfo.tally n []))
      (hout : Gtm.decisions x g.out = (voters V).map fun v => (v.1, V.any Prod.snd)) :
      Box x n V U g
  | dead (h : g.crashed = true) : Box x n V U g

/-- The invariant. -/
structure Agree (x : Int) (n : Nat) (V : List (P × Bool)) (s : Sys A P C W) : Prop where
  wellFormed : ∀ p, (s.dbs p).crashed = false → WellFormed (s.dbs p)
  box : ∃ U, Box x n V U s.gtm
  cast : ∀ p c, (flying x s.net ++ V).count (p, c) ≤ (answers x (s.dbs p).out).count c
  noFail : ∀ p m, Packet.toDbService p m ∈ s.net → m.cmd ≠ kTranFail
  inNet : ∀ p m, Packet.toDbService p m ∈ s.net → m.cmd = kJudgeConflit → m.txid = x →
    Verdict n V m.isGlobalConflict
  queued : ∀ p b, (s.dbs p).crashed = false → Decided x b (s.dbs p).tasks → Verdict n V b
  logged : ∀ p, Logged x (s.dbs p).out → Verdict n V false
  failed : ∀ p, Failed x (s.dbs p).out →
    true ∈ answers x (s.dbs p).out ∨ Verdict n V true

/-! ### Votes in flight -/

omit [DecidableEq P] in
theorem flying_append (x : Int) (net net' : List (Packet P)) :
    flying x (net ++ net') = flying x net ++ flying x net' := by
  simp [flying]

omit [DecidableEq P] in
theorem flying_ofDbService (x : Int) (p : P) (es : List (Event C)) :
    flying x (es.filterMap (ofDbService p)) = (ballots x es).map fun c => (p, c) := by
  rw [flying, ballots, List.filterMap_filterMap, List.map_filterMap]
  congr 1
  funext e
  cases e with
  | sendGtm m =>
      by_cases hm : m.cmd = kJudgeConflit ∧ m.txid = x
      · simp [ofDbService, ballotOf, hm]
      · simp [ofDbService, ballotOf, hm]
  | _ => rfl

omit [DecidableEq P] in
theorem flying_ofGtm (x : Int) (out : List ((A ⊕ P) × RootMsg)) :
    flying x (out.filterMap ofGtm) = [] := by
  rw [flying, List.filterMap_filterMap, List.filterMap_eq_nil_iff]
  intro m _
  obtain ⟨c, m⟩ := m
  cases c with
  | inl a => rfl
  | inr p =>
      cases m with
      | dbtmMsg m => rfl
      | _ => rfl

omit [DecidableEq P] in
theorem flying_ofDbtl (x : Int) (ms : List (P × DbtmMsg)) :
    flying x (ms.map ofDbtl) = [] := by
  simp [flying, ofDbtl, ballotOf]

theorem flying_eraseIdx_count (x : Int) (net : List (Packet P)) (i : Nat) (v : P × Bool) :
    (flying x (net.eraseIdx i)).count v ≤ (flying x net).count v := by
  exact ((List.eraseIdx_sublist net i).filterMap _).count_le v

/-- A vote that is taken from the net. -/
theorem flying_vote_count {x : Int} {net : List (Packet P)} {i : Nat} {p : P} {m : GtmMsg}
    (h : net[i]? = some (.toGtm p m)) (hcmd : m.cmd = kJudgeConflit) (hx : m.txid = x)
    (v : P × Bool) :
    (flying x net).count v =
      (flying x (net.eraseIdx i)).count v + [(p, m.isLocalConflict)].count v := by
  have hballot : ballotOf x (.toGtm p m) = some (p, m.isLocalConflict) := by
    simp [ballotOf, hcmd, hx]
  have hcount := Bag.countP_filterMap_eraseIdx (ballotOf x) h (· == v)
  rwa [hballot] at hcount

/-- Losing messages keeps the invariant. -/
theorem Agree.shrink {x : Int} {n : Nat} {V : List (P × Bool)} {s : Sys A P C W}
    (h : Agree x n V s) (i : Nat) : Agree x n V { s with net := s.net.eraseIdx i } := by
  constructor
  · exact h.wellFormed
  · exact h.box
  · intro p c
    have hle := flying_eraseIdx_count x s.net i (p, c)
    have hcast := h.cast p c
    rw [List.count_append] at hcast ⊢
    dsimp only
    omega
  · intro p m hm
    exact h.noFail p m (List.mem_of_mem_eraseIdx hm)
  · intro p m hm
    exact h.inNet p m (List.mem_of_mem_eraseIdx hm)
  · exact h.queued
  · exact h.logged
  · exact h.failed

/-! ### Steps of a DbService -/

/-- Every vote that a step casts is one of its answers. -/
theorem Agree.cast_setDbService {x : Int} {n : Nat} {V : List (P × Bool)} {s : Sys A P C W}
    (h : Agree x n V s) {p : P} {d : DbService C W} {es : List (Event C)}
    (heff : Effect x (s.dbs p) d es)
    (hnet : (s.setDbService p d).net = s.net ++ es.filterMap (ofDbService p)) (q : P) (c : Bool) :
    (flying x (s.setDbService p d).net ++ V).count (q, c) ≤
      (answers x ((s.setDbService p d).dbs q).out).count c := by
  have hcast := h.cast q c
  rw [hnet, flying_append, flying_ofDbService]
  simp only [List.count_append] at hcast ⊢
  by_cases hqp : q = p
  · subst hqp
    have hle := heff.cast c
    rw [setDbService_dbs_self, heff.out, answers_append, List.count_append, Bag.count_map_pair,
      if_pos rfl]
    omega
  · rw [setDbService_dbs_of_ne s hqp, Bag.count_map_pair, if_neg hqp]
    omega

theorem Agree.setDbService {x : Int} {n : Nat} {V : List (P × Bool)} {s : Sys A P C W}
    (h : Agree x n V s) {p : P} {d : DbService C W} {es : List (Event C)}
    (hlive : (s.dbs p).crashed = false) (heff : Effect x (s.dbs p) d es)
    (hglobal : AllGlobal x d.out) (hwf : d.crashed = false → WellFormed d)
    (htasks : ∀ b, d.crashed = false → Decided x b d.tasks → Verdict n V b) :
    Agree x n V (s.setDbService p d) := by
  have hnet : (s.setDbService p d).net = s.net ++ es.filterMap (ofDbService p) := by
    rw [Sys.setDbService, heff.out, List.drop_left]
  have hes : AllGlobal x es := by
    intro t ks c hmem
    exact hglobal t ks c (by rw [heff.out]; exact List.mem_append_right _ hmem)
  -- a DbService puts nothing on the net that another one reads
  have hold : ∀ q m, Packet.toDbService q m ∈ (s.setDbService p d).net →
      Packet.toDbService q m ∈ s.net := by
    intro q m hm
    rw [hnet] at hm
    exact (List.mem_append.1 hm).resolve_right not_toDbService_ofDbService
  refine ⟨?_, h.box, ?_, fun q m hm => h.noFail q m (hold q m hm),
    fun q m hm => h.inNet q m (hold q m hm), ?_, ?_, ?_⟩
  · exact (Function.forall_update_iff s.dbs fun _ d => d.crashed = false → WellFormed d).2
      ⟨hwf, fun q _ => h.wellFormed q⟩
  · exact h.cast_setDbService heff hnet
  · exact (Function.forall_update_iff s.dbs fun _ d => ∀ b, d.crashed = false →
      Decided x b d.tasks → Verdict n V b).2 ⟨htasks, fun q _ => h.queued q⟩
  · refine (Function.forall_update_iff s.dbs fun _ d => Logged x d.out → _).2
      ⟨fun hlogged => ?_, fun q _ => h.logged q⟩
    rw [heff.out] at hlogged
    rcases logged_append.1 hlogged with hlogged | hlogged
    · exact h.logged p hlogged
    · exact h.queued p false hlive (heff.logged hes hlogged)
  · refine (Function.forall_update_iff s.dbs fun _ d => Failed x d.out →
      true ∈ answers x d.out ∨ _).2 ⟨fun hfailed => ?_, fun q _ => h.failed q⟩
    rw [heff.out] at hfailed ⊢
    rw [answers_append]
    rcases failed_append.1 hfailed with hfailed | hfailed
    · exact (h.failed p hfailed).imp_left (List.mem_append_left _)
    · exact (heff.failed hfailed).imp (List.mem_append_right _) (h.queued p true hlive)

/-! ### Steps of a DBTL -/

/-- The log service neither decides nor fails a transaction. -/
theorem Agree.setDbtl {x : Int} {n : Nat} {V : List (P × Bool)} {s : Sys A P C W}
    (h : Agree x n V s) {p : P} {d : Dbtl P} {es : List (DbtlEvent P)}
    (hout : d.out = (s.dbtl p).out ++ es)
    (hes : ∀ v ∈ Dbtl.sends es, v.2.cmd = kLsn ∨ v.2.cmd = kTranSuccess) :
    Agree x n V (s.setDbtl p d) := by
  have hnet : (s.setDbtl p d).net = s.net ++ (Dbtl.sends es).map ofDbtl := by
    rw [Sys.setDbtl, hout, List.drop_left]
  have hnew : ∀ q m, Packet.toDbService q m ∈ (s.setDbtl p d).net →
      Packet.toDbService q m ∈ s.net ∨ m.cmd = kLsn ∨ m.cmd = kTranSuccess := by
    intro q m hm
    rw [hnet] at hm
    rcases List.mem_append.1 hm with hm | hm
    · exact Or.inl hm
    · obtain ⟨v, hv, heq⟩ := List.mem_map.1 hm
      simp only [ofDbtl, Packet.toDbService.injEq] at heq
      rw [← heq.2]
      exact Or.inr (hes v hv)
  constructor
  · exact h.wellFormed
  · exact h.box
  · intro q c
    rw [hnet, flying_append, flying_ofDbtl, List.append_nil]
    exact h.cast q c
  · intro q m hm
    rcases hnew q m hm with hm | hm | hm
    · exact h.noFail q m hm
    · simp [hm]
    · simp [hm]
  · intro q m hm hcmd
    rcases hnew q m hm with hm | hm | hm
    · exact h.inNet q m hm hcmd
    · simp [hm] at hcmd
    · simp [hm] at hcmd
  · exact h.queued
  · exact h.logged
  · exact h.failed

/-! ### Steps of the GTM -/

omit [DecidableEq P] in
theorem voters_append (V V' : List (P × Bool)) :
    (voters (V ++ V') : List ((A ⊕ P) × Bool)) = voters V ++ voters V' := by
  simp [voters]

omit [DecidableEq P] in
/-- A message that is no vote on `x` leaves the box as it is, or hands out `x` and makes
a new entry. -/
theorem Box.keep {x : Int} {n : Nat} {V U : List (P × Bool)} {g g' : Gtm (A ⊕ P)}
    {a : Gtm.Arrival (A ⊕ P)} (h : Box x n V U g) (hlive : g.crashed = false)
    (hstep : Gtm.Step a g g') (hn : 1 < n)
    (hreg : ∀ list, Gtm.Registered x list g' → list.length = n)
    (hv : Gtm.voteOf x a = none) :
    Box x n V U g' ∨ x = g.txid.toInt ∧ Box x n V [] g' := by
  obtain ⟨hdec, htable | ⟨hx, list, hlist, htable⟩⟩ := hstep.keep hv
  · have hfind' : g'.table.find x = g.table.find x := by rw [PtrMap.find, htable, PtrMap.find]
    refine Or.inl ?_
    cases h with
    | dead hdead => simp [hdead] at hlive
    | absent hV hU hfind hout => exact .absent hV hU (hfind'.trans hfind) (hdec.trans hout)
    | waiting hsuffix hlen hreg hfind hout =>
        exact .waiting hsuffix hlen (hreg.imp fun _ hr => hr.of_step hstep)
          (hfind'.trans hfind) (hdec.trans hout)
    | decided hlen hreg hfind hout =>
        exact .decided hlen (hreg.imp fun _ hr => hr.of_step hstep) (hfind' ▸ hfind)
          (hdec.trans hout)
  · have hlen := hreg list hlist
    have hfind' : g'.table.find x = some (TxidInfo.tally n []) := by
      rw [PtrMap.find_eq_some_iff, htable, if_pos (by omega), hlen, TxidInfo.tally_nil]
    have hzero : ([] : List (P × Bool)).length < n := by simp; omega
    refine Or.inr ⟨hx, ?_⟩
    cases h with
    | dead hdead => simp [hdead] at hlive
    | absent hV hU hfind hout =>
        exact .waiting List.nil_suffix hzero ⟨list, hlist⟩ hfind' (hdec.trans hout)
    | waiting hsuffix hlen hreg hfind hout =>
        exact .waiting List.nil_suffix hzero ⟨list, hlist⟩ hfind' (hdec.trans hout)
    | decided hlen hreg hfind hout =>
        exact .decided hlen ⟨list, hlist⟩ (Or.inr hfind') (hdec.trans hout)

omit [DecidableEq P] in
/-- The box takes a vote while votes are missing, or the GTM ends. -/
theorem Box.vote {x : Int} {n : Nat} {V U : List (P × Bool)} {g g' : Gtm (A ⊕ P)}
    {a : Gtm.Arrival (A ⊕ P)} (h : Box x n V U g) (hlive : g.crashed = false)
    (hstep : Gtm.Step a g g') {p : P} {c : Bool} (hv : Gtm.voteOf x a = some (.inr p, c))
    (hfew : V.length < n) : Box x n (V ++ [(p, c)]) (U ++ [(p, c)]) g' := by
  rcases hstep.of_vote hv with ⟨-, hdead⟩ | ⟨info, hinfo, hcases⟩
  · exact .dead hdead
  · cases h with
    | dead hdead => simp [hdead] at hlive
    | absent hV hU hfind hout => simp [hfind] at hinfo
    | decided hlen => omega
    | waiting hsuffix hlen hreg hfind hout =>
        have hnext : info.vote (.inr p) c = TxidInfo.tally n (voters (U ++ [(p, c)])) := by
          obtain rfl := Option.some.inj (hfind.symm.trans hinfo)
          rw [voters_append]
          exact TxidInfo.vote_tally n (voters U) (.inr p, c)
        have hnum : (info.vote (.inr p) c).serverNum = n - (U.length + 1 : Nat) := by
          rw [hnext]
          simp [TxidInfo.tally, voters]
        have hreg' := hreg.imp fun _ hr => hr.of_step hstep
        obtain ⟨T, rfl⟩ := hsuffix
        rw [List.length_append] at hfew
        rcases hcases with ⟨hne, hsame, hcount⟩ | ⟨heq, hgone, hsent⟩
        · refine .waiting ⟨T, (List.append_assoc _ _ _).symm⟩ ?_ hreg' (hnext ▸ hcount)
            (hsame ▸ hout)
          rw [List.length_append, List.length_singleton]
          dsimp only at hne
          omega
        · -- the last vote: none was counted for an older entry
          dsimp only at heq
          obtain rfl : T = [] := List.eq_nil_of_length_eq_zero (by omega)
          refine .decided ?_ hreg' (Or.inl hgone) ?_
          · rw [List.length_append, List.nil_append, List.length_singleton]
            omega
          · rw [hsent, Gtm.decisions_append, hout, Gtm.decisions_self, List.nil_append]
            dsimp only
            rw [hnext]
            simp [TxidInfo.tally, voters, Function.comp_def]

omit [DecidableEq P] in
theorem Box.verdict {x : Int} {n : Nat} {V U : List (P × Bool)} {g : Gtm (A ⊕ P)}
    (h : Box x n V U g) (hlive : g.crashed = false) {v : (A ⊕ P) × Bool}
    (hv : v ∈ Gtm.decisions x g.out) : Verdict n V v.2 := by
  cases h with
  | dead hdead => simp [hdead] at hlive
  | absent hV hU hfind hout => simp [hout] at hv
  | waiting hsuffix hlen hreg hfind hout => simp [hout] at hv
  | decided hlen hreg hfind hout =>
      rw [hout] at hv
      obtain ⟨u, -, rfl⟩ := List.mem_map.1 hv
      exact ⟨hlen, rfl⟩

/-- The GTM goes to `g`, with the votes `V'` counted. -/
theorem Agree.setGtm {x : Int} {n : Nat} {V V' : List (P × Bool)} {s : Sys A P C W}
    (h : Agree x n V s) {g : Gtm (A ⊕ P)} {a : Gtm.Arrival (A ⊕ P)}
    (hlive : s.gtm.crashed = false) (hstep : Gtm.Step a s.gtm g)
    (hlift : ∀ b, Verdict n V b → Verdict n V' b) (hbox : ∃ U, Box x n V' U g)
    (hcast : ∀ p c, (flying x s.net ++ V').count (p, c) ≤
      (answers x (s.dbs p).out).count c) : Agree x n V' (s.setGtm g) := by
  obtain ⟨ms, hout, hcmd⟩ := hstep.sent
  have hnet : (s.setGtm g).net = s.net ++ ms.filterMap ofGtm := by
    rw [Sys.setGtm, hout, List.drop_left]
  have hnew : ∀ q m, Packet.toDbService q m ∈ (s.setGtm g).net →
      Packet.toDbService q m ∈ s.net ∨ (.inr q, .dbtmMsg m) ∈ ms := by
    intro q m hm
    rw [hnet] at hm
    rcases List.mem_append.1 hm with hm | hm
    · exact Or.inl hm
    · obtain ⟨e, he, heq⟩ := List.mem_filterMap.1 hm
      refine Or.inr ?_
      unfold ofGtm at heq
      split at heq
      · simp only [Option.some.injEq, Packet.toDbService.injEq] at heq
        obtain ⟨rfl, rfl⟩ := heq
        exact he
      · simp at heq
  constructor
  · exact h.wellFormed
  · exact hbox
  · intro q c
    rw [hnet, flying_append, flying_ofGtm, List.append_nil]
    exact hcast q c
  · intro q m hm
    rcases hnew q m hm with hm | hm
    · exact h.noFail q m hm
    · simp [hcmd _ m hm]
  · intro q m hm hjudge hx
    rcases hnew q m hm with hm | hm
    · exact hlift _ (h.inNet q m hm hjudge hx)
    · have hlive' : g.crashed = false := by
        by_contra hc
        have hsame := hstep.out_of_crashed hlive (by simpa using hc)
        rw [hout, List.append_right_eq_self] at hsame
        simp [hsame] at hm
      have hdec : (.inr q, m.isGlobalConflict) ∈ Gtm.decisions x g.out := by
        rw [Gtm.decisions, List.mem_filterMap]
        refine ⟨(.inr q, .dbtmMsg m), by rw [hout]; exact List.mem_append_right _ hm, ?_⟩
        simp [Gtm.decisionOf, hjudge, hx]
      obtain ⟨U, hbox⟩ := hbox
      exact hbox.verdict hlive' hdec
  · intro q b hq hdec
    exact hlift b (h.queued q b hq hdec)
  · intro q hq
    exact hlift false (h.logged q hq)
  · intro q hq
    rcases h.failed q hq with htrue | hverdict
    · exact Or.inl htrue
    · exact Or.inr (hlift true hverdict)

omit [DecidableEq P] in
theorem voteOf_toGtm (x : Int) (p : P) (m : GtmMsg) :
    Gtm.voteOf x (⟨.inr p, .gtmMsg m⟩ : Gtm.Arrival (A ⊕ P)) =
      (ballotOf x (.toGtm p m)).map fun v => (.inr v.1, v.2) := by
  by_cases hm : m.cmd = kJudgeConflit ∧ m.txid = x
  · simp [Gtm.voteOf, ballotOf, hm]
  · simp [Gtm.voteOf, ballotOf, hm]

/-! ### Participants -/

/-- Each registration of `x` is for `n` participants. -/
def RegisteredFor (x : Int) (n : Nat) (g : Gtm (A ⊕ P)) : Prop :=
  ∀ list, Gtm.Registered x list g → list.length = n

/-- Transaction `x` has the participants `parts`: it is registered for as many,
they alone validate it, each at most once so far, and as a global transaction. -/
structure Participants (x : Int) (parts : List P) (s : Sys A P C W) : Prop where
  nodup : parts.Nodup
  many : 1 < parts.length
  registered : RegisteredFor x parts.length s.gtm
  member : ∀ p, p ∉ parts → answers x (s.dbs p).out = []
  once : ∀ p, (answers x (s.dbs p).out).length ≤ 1
  global : ∀ p, AllGlobal x (s.dbs p).out

theorem count_fst (V : List (P × Bool)) (p : P) :
    (V.map Prod.fst).count p = V.count (p, false) + V.count (p, true) := by
  induction V with
  | nil => rfl
  | cons v V ih =>
      obtain ⟨q, c⟩ := v
      simp only [List.map_cons, List.count_cons, ih, beq_iff_eq, Prod.mk.injEq]
      cases c with
      | false => simp; omega
      | true => simp; omega

theorem count_answers (l : List Bool) : l.count false + l.count true = l.length := by
  induction l with
  | nil => rfl
  | cons c l ih =>
      cases c with
      | false => simp; omega
      | true => simp; omega

/-- Votes that the participants have cast, as far as their number goes. -/
theorem Participants.cast {x : Int} {parts : List P} {s : Sys A P C W}
    (h : Participants x parts s) {V : List (P × Bool)}
    (hcast : ∀ p c, V.count (p, c) ≤ (answers x (s.dbs p).out).count c) :
    (V.map Prod.fst).Nodup ∧ V.map Prod.fst ⊆ parts ∧
      ∀ p c, (p, c) ∈ V → c ∈ answers x (s.dbs p).out := by
  have hmem : ∀ p c, (p, c) ∈ V → c ∈ answers x (s.dbs p).out := by
    intro p c hv
    have hpos := List.count_pos_iff.2 hv
    have hle := hcast p c
    exact List.count_pos_iff.1 (by omega)
  refine ⟨?_, ?_, hmem⟩
  · rw [List.nodup_iff_count]
    intro p
    have hfalse := hcast p false
    have htrue := hcast p true
    have hone := h.once p
    have hsum := count_answers (answers x (s.dbs p).out)
    rw [count_fst]
    omega
  · intro p hp
    obtain ⟨⟨p, c⟩, hv, rfl⟩ := List.mem_map.1 hp
    by_contra hnot
    have hans := hmem p c hv
    simp [h.member p hnot] at hans

theorem Participants.length_le {x : Int} {parts : List P} {s : Sys A P C W}
    (h : Participants x parts s) {V : List (P × Bool)}
    (hcast : ∀ p c, V.count (p, c) ≤ (answers x (s.dbs p).out).count c) :
    V.length ≤ parts.length := by
  obtain ⟨hnodup, hsub, -⟩ := h.cast hcast
  have hle := (hnodup.subperm hsub).length_le
  rwa [List.length_map] at hle

/-- The votes on `x` that a step takes from the net. -/
def takenVotes (x : Int) (s : Sys A P C W) : Act A P C → List (P × Bool)
  | .deliver i _ => (s.net[i]?.bind (ballotOf x)).toList
  | _ => []

/-- A vote that is taken comes before the last one. -/
theorem Agree.few {x : Int} {parts : List P} {V : List (P × Bool)} {s : Sys A P C W}
    (h : Agree x parts.length V s) (hparts : Participants x parts s) {i : Nat} {p : P}
    {m : GtmMsg} (hnet : s.net[i]? = some (.toGtm p m)) (hcmd : m.cmd = kJudgeConflit)
    (hx : m.txid = x) :
    (∀ q c, (flying x (s.net.eraseIdx i) ++ (V ++ [(p, m.isLocalConflict)])).count (q, c) ≤
      (answers x (s.dbs q).out).count c) ∧ V.length < parts.length := by
  have hcast : ∀ q c, (flying x (s.net.eraseIdx i) ++
      (V ++ [(p, m.isLocalConflict)])).count (q, c) ≤ (answers x (s.dbs q).out).count c := by
    intro q c
    have hcast := h.cast q c
    rw [List.count_append, flying_vote_count hnet hcmd hx] at hcast
    simp only [List.count_append]
    omega
  refine ⟨hcast, ?_⟩
  have hle := hparts.length_le (V := V ++ [(p, m.isLocalConflict)]) fun q c => by
    have hqc := hcast q c
    rw [List.count_append] at hqc
    omega
  rw [List.length_append, List.length_singleton] at hle
  omega

/-- A message that the GTM takes from the net. -/
theorem Agree.gtmMsg {x : Int} {parts : List P} {V : List (P × Bool)} {s : Sys A P C W}
    (h : Agree x parts.length V s) (hparts : Participants x parts s) {i : Nat} {p : P}
    {m : GtmMsg} (hnet : s.net[i]? = some (.toGtm p m)) {g : Gtm (A ⊕ P)}
    (hlive : s.gtm.crashed = false) (hstep : Gtm.Step ⟨.inr p, .gtmMsg m⟩ s.gtm g)
    (hreg : RegisteredFor x parts.length g) :
    Agree x parts.length (V ++ (ballotOf x (.toGtm p m)).toList)
      ({ s with net := s.net.eraseIdx i }.setGtm g) := by
  have hshrink := h.shrink i
  have hvote := voteOf_toGtm (A := A) x p m
  obtain ⟨U, hbox⟩ := h.box
  by_cases hm : m.cmd = kJudgeConflit ∧ m.txid = x
  · have hballot : ballotOf x (.toGtm p m) = some (p, m.isLocalConflict) := if_pos hm
    obtain ⟨hcast, hfew⟩ := h.few hparts hnet hm.1 hm.2
    rw [hballot] at hvote ⊢
    refine hshrink.setGtm hlive hstep ?_ ⟨_, hbox.vote hlive hstep hvote hfew⟩ hcast
    intro b hb
    exact absurd hb.1 (Nat.ne_of_lt hfew)
  · have hballot : ballotOf x (.toGtm p m) = none := if_neg hm
    rw [hballot] at hvote ⊢
    rw [Option.toList_none, List.append_nil]
    refine hshrink.setGtm hlive hstep (fun _ hb => hb) ?_ hshrink.cast
    rcases hbox.keep hlive hstep hparts.many hreg hvote with hbox | ⟨-, hbox⟩
    · exact ⟨U, hbox⟩
    · exact ⟨[], hbox⟩

/-! ### One step -/

section Step

variable {x : Int} {n : Nat} {parts : List P} {V : List (P × Bool)} {s : Sys A P C W}

/-- A vote that is lost at a GTM that has ended counts as taken. -/
theorem Agree.lostVote (h : Agree x parts.length V s) (hparts : Participants x parts s) {i : Nat}
    {p : P} {m : GtmMsg} (hnet : s.net[i]? = some (.toGtm p m)) (hcmd : m.cmd = kJudgeConflit)
    (htxid : m.txid = x) (hdead : s.gtm.crashed = true) :
    Agree x parts.length (V ++ [(p, m.isLocalConflict)]) { s with net := s.net.eraseIdx i } := by
  have hshrink := h.shrink i
  obtain ⟨hcast, hfew⟩ := h.few hparts hnet hcmd htxid
  -- there is no verdict yet that the vote could change
  have hlift : ∀ b, Verdict parts.length V b →
      Verdict parts.length (V ++ [(p, m.isLocalConflict)]) b :=
    fun b hb => absurd hb.1 (Nat.ne_of_lt hfew)
  exact ⟨h.wellFormed, ⟨[], .dead hdead⟩, hcast, hshrink.noFail,
    fun q m hq hcmd hx => hlift _ (hshrink.inNet q m hq hcmd hx),
    fun q b hq hdec => hlift b (h.queued q b hq hdec),
    fun q hq => hlift false (h.logged q hq),
    fun q hq => (h.failed q hq).imp_right (hlift true)⟩

theorem Agree.lost (h : Agree x parts.length V s) (hparts : Participants x parts s) {i : Nat}
    (conn : C) (hdead : ∀ p m, s.net[i]? = some (.toGtm p m) → s.gtm.crashed = true) :
    Agree x parts.length (V ++ takenVotes x s (.deliver i conn))
      { s with net := s.net.eraseIdx i } := by
  cases hpacket : s.net[i]?.bind (ballotOf x) with
  | none =>
      have htaken : takenVotes x s (.deliver i conn) = [] := congrArg Option.toList hpacket
      rw [htaken, List.append_nil]
      exact h.shrink i
  | some v =>
      have htaken : takenVotes x s (.deliver i conn) = [v] := congrArg Option.toList hpacket
      obtain ⟨packet, hnet, hballot⟩ := Option.bind_eq_some_iff.1 hpacket
      cases packet with
      | toGtm p m =>
          obtain ⟨hm, hv⟩ := Option.ite_none_right_eq_some.1 hballot
          rw [htaken, ← Option.some.inj hv]
          exact h.lostVote hparts hnet hm.1 hm.2 (hdead p m hnet)
      | toDbService p m => cases hballot
      | toDbtl p m => cases hballot

theorem Agree.getTxid (h : Agree x n V s) (hmany : 1 < n) {a : A} {transType : String}
    {g : Gtm (A ⊕ P)} (hlive : s.gtm.crashed = false)
    (hstep : Gtm.Step
      ⟨.inl a, .gtmMsg (createGtmMsg kGetTxid 0 false (some transType))⟩ s.gtm g)
    (hreg : RegisteredFor x n g) : Agree x n V (s.setGtm g) := by
  have hvote : Gtm.voteOf x (⟨.inl a, .gtmMsg (createGtmMsg kGetTxid 0 false
      (some transType))⟩ : Gtm.Arrival (A ⊕ P)) = none := by
    simp [Gtm.voteOf, createGtmMsg]
  obtain ⟨U, hbox⟩ := h.box
  refine h.setGtm hlive hstep (fun _ hb => hb) ?_ h.cast
  rcases hbox.keep hlive hstep hmany hreg hvote with hbox | ⟨-, hbox⟩
  · exact ⟨U, hbox⟩
  · exact ⟨[], hbox⟩

variable {p : P} {d : DbService C W}

theorem Agree.entityService (h : Agree x n V s) {conn : C} {m : DbServiceMsg}
    (hlive : (s.dbs p).crashed = false)
    (hstep : MessageStep conn (.dbServiceMsg m) (s.dbs p) d) (hglobal : AllGlobal x d.out) :
    Agree x n V (s.setDbService p d) := by
  obtain ⟨es, heff⟩ := effect_of_messageStep x (by simp) hstep
  refine h.setDbService hlive heff hglobal
    (fun hd => (h.wellFormed p hlive).messageStep hstep hd) ?_
  intro b hd hdec
  obtain ⟨data, hmem, hdata⟩ := hdec
  rcases solve_mem_of_messageStep hstep hd hmem with hmem | hmem
  · exact h.queued p b hlive ⟨data, hmem, hdata⟩
  · simp at hmem

/-- A decision that a DbService takes from the net is the verdict. -/
theorem Agree.dbtmMsg (h : Agree x n V s) {i : Nat} {conn : C} {m : DbtmMsg}
    (hnet : s.net[i]? = some (.toDbService p m)) (hlive : (s.dbs p).crashed = false)
    (hstep : MessageStep conn (.dbtmMsg m) (s.dbs p) d) (hglobal : AllGlobal x d.out) :
    Agree x n V ({ s with net := s.net.eraseIdx i }.setDbService p d) := by
  have hin : Packet.toDbService p m ∈ s.net := List.mem_of_getElem? hnet
  have hno : ∀ data, RootMsg.dbtmMsg m = .dbtmMsg data → data.cmd ≠ kTranFail := by
    intro data hdata
    cases hdata
    exact h.noFail p m hin
  obtain ⟨es, heff⟩ := effect_of_messageStep x hno hstep
  refine (h.shrink i).setDbService hlive heff hglobal
    (fun hd => (h.wellFormed p hlive).messageStep hstep hd) ?_
  intro b hd hdec
  obtain ⟨data, hmem, hcmd, hx, hb⟩ := hdec
  rcases solve_mem_of_messageStep hstep hd hmem with hmem | hmem
  · exact h.queued p b hlive ⟨data, hmem, hcmd, hx, hb⟩
  · cases hmem
    rw [← hb]
    exact h.inNet p m hin hcmd hx

theorem Agree.task {ops : Wcheck W} (h : Agree x n V s) {i : Nat}
    (hlive : (s.dbs p).crashed = false) (hstep : TaskStep ops i (s.dbs p) d)
    (hglobal : AllGlobal x d.out) : Agree x n V (s.setDbService p d) := by
  have hwf := h.wellFormed p hlive
  obtain ⟨es, heff⟩ := effect_of_taskStep x hwf hstep
  refine h.setDbService hlive heff hglobal (fun _ => hwf.taskStep hstep) ?_
  intro b hd hdec
  obtain ⟨data, hmem, hdata⟩ := hdec
  rw [tasks_of_taskStep hstep] at hmem
  exact h.queued p b hlive ⟨data, List.mem_of_mem_eraseIdx hmem, hdata⟩

end Step

/-! ### Runs -/

omit [DecidableEq P] in
theorem takenVotes_of_getElem? {x : Int} {s : Sys A P C W} {i : Nat} {packet : Packet P}
    (hnet : s.net[i]? = some packet) (conn : C) :
    takenVotes x s (.deliver i conn) = (ballotOf x packet).toList := by
  rw [takenVotes, hnet]
  rfl

theorem Agree.step {ops : Wcheck W} {x : Int} {parts : List P} {V : List (P × Bool)}
    {s s' : Sys A P C W} {a : Act A P C} (h : Agree x parts.length V s)
    (hstep : Step ops s a s') (hparts : Participants x parts s') :
    Agree x parts.length (V ++ takenVotes x s a) s' := by
  have hnone : ∀ {a}, takenVotes x s a = [] → Agree x parts.length V s' →
      Agree x parts.length (V ++ takenVotes x s a) s' := by
    intro a htaken hagree
    rw [htaken, List.append_nil]
    exact hagree
  cases hstep with
  | idle _ hnet =>
      refine hnone ?_ h
      cases a with
      | deliver i conn => simp [takenVotes, hnet i conn rfl]
      | _ => rfl
  | lost i conn hdead =>
      exact h.lost ⟨hparts.nodup, hparts.many, hparts.registered, hparts.member, hparts.once,
        hparts.global⟩ conn hdead
  | getTxid a transType g hlive hgtm =>
      exact hnone rfl (h.getTxid hparts.many hlive hgtm hparts.registered)
  | gtmMsg i conn p m hnet g hlive hgtm =>
      rw [takenVotes_of_getElem? hnet]
      exact h.gtmMsg ⟨hparts.nodup, hparts.many, fun list hlist =>
        hparts.registered list (hlist.of_step hgtm), hparts.member, hparts.once, hparts.global⟩
        hnet hlive hgtm hparts.registered
  | entityService p conn m d hlive hmsg =>
      have hglobal := hparts.global p
      rw [setDbService_dbs_self] at hglobal
      exact hnone rfl (h.entityService hlive hmsg hglobal)
  | dbtmMsg i conn p m hnet d hlive hmsg =>
      have hglobal := hparts.global p
      rw [setDbService_dbs_self] at hglobal
      exact hnone (takenVotes_of_getElem? hnet conn) (h.dbtmMsg hnet hlive hmsg hglobal)
  | task p i d hlive htask =>
      have hglobal := hparts.global p
      rw [setDbService_dbs_self] at hglobal
      exact hnone rfl (h.task hlive htask hglobal)
  | dbtlMsg i conn p m hnet d hmsg =>
      obtain ⟨es, hout, hes⟩ := hmsg.sent
      exact hnone (takenVotes_of_getElem? hnet conn)
        ((h.shrink i).setDbtl hout fun v hv => Or.inl (hes v hv))
  | dbtlTask p i d htask =>
      obtain ⟨es, hout, hes⟩ := htask.sent
      exact hnone rfl (h.setDbtl hout fun v hv => Or.inr (hes v hv))

theorem agree_init (transInfo : String → List IpAndPort) (txid : BitVec 32) (w : P → W)
    (useRocksDb : P → Bool) (x : Int) (n : Nat) :
    Agree x n [] (init transInfo txid w useRocksDb : Sys A P C W) := by
  constructor
  · exact fun p _ => wellFormed_init (w p)
  · exact ⟨[], .absent rfl rfl rfl rfl⟩
  · intro p c
    simp [init, flying]
  · intro p m hm
    simp [init] at hm
  · intro p m hm
    simp [init] at hm
  · intro p b _ hdec
    obtain ⟨data, hmem, -⟩ := hdec
    simp [init, DbService.init] at hmem
  · intro p h
    simp [init, DbService.init, Logged] at h
  · intro p h
    simp [init, DbService.init, Failed] at h

/-- The output of a process only grows. -/
theorem Step.out_extends {ops : Wcheck W} {s s' : Sys A P C W} {a : Act A P C}
    (hstep : Step ops s a s') (p : P) : (s.dbs p).out <+: (s'.dbs p).out := by
  have hset : ∀ {q : P} {d : DbService C W} {s₀ : Sys A P C W}, s₀.dbs = s.dbs →
      (s.dbs q).out <+: d.out → (s.dbs p).out <+: ((s₀.setDbService q d).dbs p).out := by
    intro q d s₀ hs₀ hout
    by_cases hpq : p = q
    · subst hpq
      rw [setDbService_dbs_self]
      exact hout
    · have hsame := setDbService_dbs_of_ne s₀ hpq d
      rw [hs₀] at hsame
      exact hsame ▸ List.prefix_refl _
  cases hstep with
  | entityService q conn m d hlive hmsg => exact hset rfl hmsg.out_extends
  | dbtmMsg i conn q m hnet d hlive hmsg => exact hset rfl hmsg.out_extends
  | task q i d hlive htask => exact hset rfl htask.out_extends
  | _ => exact List.prefix_refl _

theorem Step.registered {ops : Wcheck W} {s s' : Sys A P C W} {a : Act A P C}
    (hstep : Step ops s a s') {x : Int} {list : List IpAndPort}
    (h : Gtm.Registered x list s.gtm) : Gtm.Registered x list s'.gtm := by
  cases hstep with
  | getTxid a transType g hlive hgtm => exact h.of_step hgtm
  | gtmMsg i conn p m hnet g hlive hgtm => exact h.of_step hgtm
  | _ => exact h

theorem Step.issued_le {ops : Wcheck W} {s s' : Sys A P C W} {a : Act A P C}
    (hstep : Step ops s a s') : s.gtm.issued ≤ s'.gtm.issued := by
  cases hstep with
  | getTxid a transType g hlive hgtm => exact hgtm.issued_le
  | gtmMsg i conn p m hnet g hlive hgtm => exact hgtm.issued_le
  | _ => exact Nat.le_refl _

/-- The participants of a transaction are its participants before a step, too. -/
theorem Participants.of_step {ops : Wcheck W} {x : Int} {parts : List P} {s s' : Sys A P C W}
    {a : Act A P C} (h : Participants x parts s') (hstep : Step ops s a s') :
    Participants x parts s where
  nodup := h.nodup
  many := h.many
  registered := fun list hlist => h.registered list (hstep.registered hlist)
  member := by
    intro p hp
    obtain ⟨es, hout⟩ := hstep.out_extends p
    have hnone := h.member p hp
    rw [← hout, answers_append] at hnone
    exact (List.append_eq_nil_iff.1 hnone).1
  once := by
    intro p
    obtain ⟨es, hout⟩ := hstep.out_extends p
    have hone := h.once p
    rw [← hout, answers_append, List.length_append] at hone
    omega
  global := fun p t ks c hmem => h.global p t ks c ((hstep.out_extends p).subset hmem)

theorem agree_run (ops : Wcheck W) (transInfo : String → List IpAndPort) (txid : BitVec 32)
    (w : P → W) (useRocksDb : P → Bool) {x : Int} {parts : List P} (l : List (Act A P C))
    (h : Participants x parts (run ops (init transInfo txid w useRocksDb) l)) :
    ∃ V, Agree x parts.length V (run ops (init transInfo txid w useRocksDb) l) := by
  induction l using List.reverseRecOn with
  | nil => exact ⟨[], agree_init transInfo txid w useRocksDb x parts.length⟩
  | append_singleton l a ih =>
      rw [run_concat] at h ⊢
      have hstep := step_step ops (run ops (init transInfo txid w useRocksDb) l) a
      obtain ⟨V, hagree⟩ := ih (h.of_step hstep)
      exact ⟨_, hagree.step hstep h⟩

/-! ### Agreement -/

/-- Once all votes are in, every participant has voted what it has answered. -/
theorem Agree.voted {x : Int} {parts : List P} {V : List (P × Bool)} {s : Sys A P C W}
    (h : Agree x parts.length V s) (hparts : Participants x parts s)
    (hlen : V.length = parts.length) {p : P} (hp : p ∈ parts) :
    ∃ c, (p, c) ∈ V ∧ answers x (s.dbs p).out = [c] := by
  obtain ⟨hnodup, hsub, hmem⟩ := hparts.cast (V := V) fun q c => by
    have hcast := h.cast q c
    rw [List.count_append] at hcast
    omega
  have hperm : (V.map Prod.fst).Perm parts :=
    (hnodup.subperm hsub).perm_of_length_le (by simp [hlen])
  obtain ⟨⟨q, c⟩, hv, rfl⟩ := List.mem_map.1 (hperm.mem_iff.2 hp)
  refine ⟨c, hv, ?_⟩
  have hans := hmem q c hv
  have hone := hparts.once q
  obtain ⟨b, hb⟩ := List.length_eq_one_iff.1
    (Nat.le_antisymm hone (List.length_pos_of_mem hans))
  rw [hb, List.mem_singleton] at hans
  rw [hb, hans]

/-- In every run, whatever the local checks answer and in whatever order the
messages are delivered, for a transaction with the given participants: no
process has called `cacheRWSet` or `sendLog` for it while one has reported its
failure, and once `cacheRWSet` or `sendLog` was called, every participant has
passed its own local check. -/
theorem atomic_commit (ops : Wcheck W) (transInfo : String → List IpAndPort)
    (txid : BitVec 32) (w : P → W) (useRocksDb : P → Bool) (l : List (Act A P C)) (x : Int)
    (parts : List P)
    (h : Participants x parts (run ops (init transInfo txid w useRocksDb) l)) :
    (¬ ∃ p q, Logged x ((run ops (init transInfo txid w useRocksDb) l).dbs p).out ∧
        Failed x ((run ops (init transInfo txid w useRocksDb) l).dbs q).out) ∧
      ∀ p, Logged x ((run ops (init transInfo txid w useRocksDb) l).dbs p).out →
        ∀ q ∈ parts,
          answers x ((run ops (init transInfo txid w useRocksDb) l).dbs q).out = [false] := by
  obtain ⟨V, hagree⟩ := agree_run ops transInfo txid w useRocksDb l h
  have hpassed : ∀ p, Logged x
      ((run ops (init transInfo txid w useRocksDb) l).dbs p).out → ∀ q ∈ parts,
        answers x ((run ops (init transInfo txid w useRocksDb) l).dbs q).out = [false] := by
    intro p hp q hq
    obtain ⟨hlen, hany⟩ := hagree.logged p hp
    obtain ⟨c, hv, hans⟩ := hagree.voted h hlen hq
    have hc : c = false := by
      rw [List.any_eq_false] at hany
      simpa using hany (q, c) hv
    rw [hans, hc]
  refine ⟨?_, hpassed⟩
  intro hboth
  obtain ⟨p, q, hp, hq⟩ := hboth
  rcases hagree.failed q hq with htrue | hverdict
  · have hmem : q ∈ parts := by
      by_contra hnot
      simp [h.member q hnot] at htrue
    simp [hpassed p hp q hmem] at htrue
  · have hfalse := (hagree.logged p hp).2
    rw [hverdict.2] at hfalse
    simp at hfalse

/-- A validation is one of a global transaction. -/
def judgedGlobally : Event C → Bool
  | .judged t _ _ => t.needGlobalConflct
  | _ => true

/-- Two participants, `false` and `true`, commit the global transaction `0`: data
and commit of each, its lsn, its validation, then the votes and the decisions. -/
def commitRun : List (Act Unit Bool Unit) :=
  [.getTxid () "transfer",
    .entityService false () (createDbServiceMsg kData 0 false (some []) (some [])),
    .entityService false () (createDbServiceMsg kCommit 0 true),
    .entityService true () (createDbServiceMsg kData 0 false (some []) (some [])),
    .entityService true () (createDbServiceMsg kCommit 0 true),
    .task false 0, .task true 0, .deliver 0 (), .deliver 0 (), .deliver 0 (), .deliver 0 (),
    .task false 0, .task true 0, .deliver 0 (), .deliver 0 (), .deliver 0 (), .deliver 0 (),
    .task false 0, .task true 0]

/-- The two participants after the run. -/
def commitEnd : Sys Unit Bool Unit (List Info) :=
  run Wcheck.contract (init (fun _ => [⟨"a", 1⟩, ⟨"b", 2⟩]) 0 (fun _ => []) fun _ => false)
    commitRun

theorem participants_commitEnd : Participants 0 [false, true] commitEnd where
  nodup := by decide
  many := by decide
  registered := by
    intro list hreg
    obtain ⟨conn, hmem⟩ := hreg
    have hout : commitEnd.gtm.out = [(.inl (), Gtm.txidReply 0 [⟨"a", 1⟩, ⟨"b", 2⟩]),
        (.inr false, Gtm.decision 0 false), (.inr true, Gtm.decision 0 false)] := rfl
    rw [hout] at hmem
    simp [Gtm.txidReply, Gtm.decision, createAppMsg] at hmem
    simp [hmem]
  member := by
    intro p hp
    cases p with
    | false => simp at hp
    | true => simp at hp
  once := by decide
  global := by
    intro p t ks c hmem _
    have hall : ∀ p, (commitEnd.dbs p).out.all judgedGlobally = true := by decide
    exact List.all_eq_true.1 (hall p) _ hmem

theorem atomic_commit_two_participants :
    Participants 0 [false, true] commitEnd ∧ Logged 0 (commitEnd.dbs false).out ∧
      ∀ q ∈ [false, true], answers 0 (commitEnd.dbs q).out = [false] := by
  have hlog : Logged 0 (commitEnd.dbs false).out :=
    Or.inr ⟨createDbtlMsg kLog 0 (some []), by decide, rfl, rfl⟩
  exact ⟨participants_commitEnd, hlog, (atomic_commit _ _ _ _ _ commitRun 0 [false, true]
    participants_commitEnd).2 false hlog⟩

end Sys

end Grit
