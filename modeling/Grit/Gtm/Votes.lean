import Mathlib.Data.List.Perm.Subperm
import Mathlib.Tactic.Push
import Grit.Library.History
import Grit.Gtm.Step

/-!
# Counting votes

Every participant of a transaction votes once, and gets the disjunction of all
votes after the last one. The counter hands an id out again after `2 ^ 32`
requests, so that this holds as long as no id is handed out while votes on it
are missing.
-/

namespace Grit

open Cmd History

namespace Gtm

variable {C : Type*}

/-! ### Transactions -/

/-- A request for an id, or a vote on the transaction with the number `k`. The
transactions are numbered in the order of their requests. -/
inductive Call (C : Type*) where
  | getTxid (conn : C) (transType : String)
  | vote (k : Nat) (conn : C) (isLocalConflict : Bool)

def Call.arrival (first : BitVec 32) : Call C → Arrival C
  | .getTxid conn transType =>
      ⟨conn, .gtmMsg (createGtmMsg kGetTxid 0 false (some transType))⟩
  | .vote k conn isLocalConflict =>
      ⟨conn, .gtmMsg (createGtmMsg kJudgeConflit (idOf first k) isLocalConflict)⟩

section Calls

variable (transInfo : String → List IpAndPort) (first : BitVec 32)

/-- The GTM after the calls `l`. -/
def after (l : List (Call C)) : Gtm C :=
  (init transInfo first).run (l.map (Call.arrival first))

/-- The participants of the transactions that were registered, in their order. -/
def lists (l : List (Call C)) : List (List IpAndPort) :=
  l.filterMap fun call =>
    match call with
    | .getTxid _ transType => some (transInfo transType)
    | .vote _ _ _ => none

/-- The votes on transaction `k`, in arrival order. -/
def votesOn (k : Nat) (l : List (Call C)) : List (C × Bool) :=
  l.filterMap fun call =>
    match call with
    | .getTxid _ _ => none
    | .vote j conn c => if j = k then some (conn, c) else none

/-- Transaction `k` has the participants `list`, which are several, and votes are
missing. -/
def Open (l : List (Call C)) (k : Nat) (list : List IpAndPort) : Prop :=
  (lists transInfo l)[k]? = some list ∧ 1 < list.length ∧ (votesOn k l).length < list.length

/-- Each transaction `k` has as many participants `parts k` as it is registered
for. Only they vote on it, after its registration and each at most once; the
vote of `conn` is `ballot k conn`. -/
structure OneVoteEach (parts : Nat → List C) (ballot : Nat → C → Bool)
    (l : List (Call C)) : Prop where
  nodup : ∀ k, (parts k).Nodup
  length : ∀ k list, (lists transInfo l)[k]? = some list → (parts k).length = list.length
  vote : Each (fun pre call => ∀ k conn c, call = .vote k conn c →
    (∃ list, (lists transInfo pre)[k]? = some list ∧ 1 < list.length) ∧
      conn ∈ parts k ∧ c = ballot k conn ∧ conn ∉ (votesOn k pre).map Prod.fst) l

/-- No id is handed out to a transaction with several participants while the GTM
waits for votes on it. -/
def Fresh (pre : List (Call C)) : Call C → Prop
  | .getTxid _ transType => 1 < (transInfo transType).length →
      (after transInfo first pre).table.find (after transInfo first pre).txid.toInt = none
  | .vote _ _ _ => True

/-- What a call sends and which entries it changes. A request is answered, and
changes no entry but its own. A vote changes no entry of another id; as long as
votes are missing after it nothing is sent, and the last one removes the entry and
sends each voter one decision, the disjunction of what all participants vote. -/
def Answers (parts : Nat → List C) (ballot : Nat → C → Bool) (pre : List (Call C)) :
    Call C → Prop
  | .getTxid conn transType =>
      (after transInfo first (pre ++ [.getTxid conn transType])).out =
          (after transInfo first pre).out ++
            [(conn, txidReply (idOf first (lists transInfo pre).length) (transInfo transType))] ∧
        ∀ i, i ≠ idOf first (lists transInfo pre).length →
          (after transInfo first (pre ++ [.getTxid conn transType])).table i =
            (after transInfo first pre).table i
  | .vote k conn c =>
      (∀ i, i ≠ idOf first k →
        (after transInfo first (pre ++ [.vote k conn c])).table i =
          (after transInfo first pre).table i) ∧
      ((votesOn k (pre ++ [.vote k conn c])).length < (parts k).length →
        (after transInfo first (pre ++ [.vote k conn c])).out =
          (after transInfo first pre).out) ∧
      ((parts k).length ≤ (votesOn k (pre ++ [.vote k conn c])).length →
        (after transInfo first (pre ++ [.vote k conn c])).out =
          (after transInfo first pre).out ++ (votesOn k (pre ++ [.vote k conn c])).map
            (fun v => (v.1, decision (idOf first k) ((parts k).any (ballot k)))) ∧
        ((votesOn k (pre ++ [.vote k conn c])).map Prod.fst).Perm (parts k) ∧
        (after transInfo first (pre ++ [.vote k conn c])).table (idOf first k) = none)

/-- How the GTM treats the transactions: while votes on one are missing, its entry
holds the votes so far, and each call is answered as `Answers` says. -/
structure CountsVotes (parts : Nat → List C) (ballot : Nat → C → Bool)
    (l : List (Call C)) : Prop where
  live : (after transInfo first l).crashed = false
  entry : ∀ k list, Open transInfo l k list →
    ∃ info, (after transInfo first l).table.find (idOf first k) = some info ∧
      info.serverNum + info.connList.length = list.length ∧ 1 ≤ info.serverNum ∧
      info.connList = (votesOn k l).map Prod.fst ∧ info.isConflict = (votesOn k l).any Prod.snd
  answers : Each (Answers transInfo first parts ballot) l

end Calls

/-! ### Counting -/

section Counting

variable {transInfo : String → List IpAndPort} {first : BitVec 32} {parts : Nat → List C}
  {ballot : Nat → C → Bool} {l : List (Call C)}

theorem after_concat (call : Call C) :
    after transInfo first (l ++ [call]) =
      (after transInfo first l).receive (call.arrival first) := by
  simp [after, run]

theorem lists_getTxid (conn : C) (transType : String) :
    lists transInfo (l ++ [.getTxid conn transType]) =
      lists transInfo l ++ [transInfo transType] := by
  simp [lists]

theorem lists_vote (k : Nat) (conn : C) (c : Bool) :
    lists transInfo (l ++ [.vote k conn c]) = lists transInfo l := by
  simp [lists]

theorem votesOn_getTxid (k : Nat) (conn : C) (transType : String) :
    votesOn k (l ++ [.getTxid conn transType]) = votesOn k l := by
  simp [votesOn]

theorem votesOn_self (k : Nat) (conn : C) (c : Bool) :
    votesOn k (l ++ [.vote k conn c]) = votesOn k l ++ [(conn, c)] := by
  simp [votesOn]

theorem votesOn_of_ne {j k : Nat} (h : k ≠ j) (conn : C) (c : Bool) :
    votesOn j (l ++ [.vote k conn c]) = votesOn j l := by
  simp [votesOn, h]

theorem OneVoteEach.init {call : Call C}
    (h : OneVoteEach transInfo parts ballot (l ++ [call])) :
    OneVoteEach transInfo parts ballot l := by
  refine ⟨h.nodup, fun k list hlist => h.length k list ?_, ((each_concat _ l call).1 h.vote).1⟩
  cases call with
  | getTxid conn transType =>
      rw [lists_getTxid]
      exact (List.getElem?_append_left (List.getElem?_eq_some_iff.1 hlist).1).trans hlist
  | vote j conn c =>
      rw [lists_vote]
      exact hlist

theorem OneVoteEach.of_append {post : List (Call C)}
    (h : OneVoteEach transInfo parts ballot (l ++ post)) :
    OneVoteEach transInfo parts ballot l := by
  induction post using List.reverseRecOn with
  | nil => simpa using h
  | append_singleton post call ih =>
      rw [← List.append_assoc] at h
      exact ih h.init

/-- The voters so far are distinct participants. -/
theorem OneVoteEach.voters (h : OneVoteEach transInfo parts ballot l) (k : Nat) :
    ((votesOn k l).map Prod.fst).Nodup ∧
      ∀ v ∈ votesOn k l, v.1 ∈ parts k ∧ v.2 = ballot k v.1 := by
  induction l using List.reverseRecOn with
  | nil => simp [votesOn]
  | append_singleton l call ih =>
      obtain ⟨hnodup, hall⟩ := ih h.init
      have hlast := ((each_concat _ l call).1 h.vote).2
      cases call with
      | getTxid conn transType =>
          rw [votesOn_getTxid]
          exact ⟨hnodup, hall⟩
      | vote j conn c =>
          by_cases hj : j = k
          · subst hj
            obtain ⟨-, hmem, hballot, hnew⟩ := hlast j conn c rfl
            rw [votesOn_self, List.map_append, List.nodup_append]
            refine ⟨⟨hnodup, by simp, ?_⟩, fun v hv => ?_⟩
            · intro a ha b hb heq
              rw [heq, List.mem_singleton.1 hb] at ha
              exact hnew ha
            · rcases List.mem_append.1 hv with hv | hv
              · exact hall v hv
              · rw [List.mem_singleton.1 hv]
                exact ⟨hmem, hballot⟩
          · rw [votesOn_of_ne hj]
            exact ⟨hnodup, hall⟩

theorem OneVoteEach.voters_subperm (h : OneVoteEach transInfo parts ballot l) (k : Nat) :
    ((votesOn k l).map Prod.fst).Subperm (parts k) := by
  obtain ⟨hnodup, hall⟩ := h.voters k
  refine hnodup.subperm fun conn hconn => ?_
  obtain ⟨v, hv, rfl⟩ := List.mem_map.1 hconn
  exact (hall v hv).1

theorem OneVoteEach.votesOn_length_le (h : OneVoteEach transInfo parts ballot l) (k : Nat) :
    (votesOn k l).length ≤ (parts k).length := by
  have hle := (h.voters_subperm k).length_le
  rwa [List.length_map] at hle

/-- Once all participants have voted, the disjunction of the votes does not
depend on their order. -/
theorem OneVoteEach.any_votesOn (h : OneVoteEach transInfo parts ballot l) {k : Nat}
    (hlen : (parts k).length ≤ (votesOn k l).length) :
    ((votesOn k l).map Prod.fst).Perm (parts k) ∧
      (votesOn k l).any Prod.snd = (parts k).any (ballot k) := by
  have hperm : ((votesOn k l).map Prod.fst).Perm (parts k) :=
    (h.voters_subperm k).perm_of_length_le (by simpa using hlen)
  refine ⟨hperm, ?_⟩
  rw [Bool.eq_iff_iff, List.any_eq_true, List.any_eq_true]
  constructor
  · intro hex
    obtain ⟨v, hv, htrue⟩ := hex
    obtain ⟨hmem, hballot⟩ := (h.voters k).2 v hv
    exact ⟨v.1, hmem, by rw [← hballot, htrue]⟩
  · intro hex
    obtain ⟨conn, hconn, htrue⟩ := hex
    obtain ⟨v, hv, rfl⟩ := List.mem_map.1 (hperm.mem_iff.2 hconn)
    exact ⟨v, hv, by rw [((h.voters k).2 v hv).2, htrue]⟩

/-- There are no votes on a transaction that is not registered yet. -/
theorem OneVoteEach.votesOn_eq_nil (h : OneVoteEach transInfo parts ballot l) {k : Nat}
    (hk : (lists transInfo l).length ≤ k) : votesOn k l = [] := by
  induction l using List.reverseRecOn with
  | nil => rfl
  | append_singleton l call ih =>
      have hlast := ((each_concat _ l call).1 h.vote).2
      cases call with
      | getTxid conn transType =>
          rw [lists_getTxid, List.length_append] at hk
          rw [votesOn_getTxid]
          exact ih h.init (by omega)
      | vote j conn c =>
          rw [lists_vote] at hk
          obtain ⟨⟨list, hlist, -⟩, -⟩ := hlast j conn c rfl
          have hlt := (List.getElem?_eq_some_iff.1 hlist).1
          rw [votesOn_of_ne (by omega)]
          exact ih h.init hk

/-- The GTM after the calls `l`: each transaction that misses votes has its entry, and
no two of them have the same id. -/
structure Counting (transInfo : String → List IpAndPort) (first : BitVec 32)
    (l : List (Call C)) (g : Gtm C) : Prop where
  live : g.crashed = false
  configured : g.transInfo = transInfo
  next : g.txid = first + BitVec.ofNat 32 (lists transInfo l).length
  entry : ∀ k list, Open transInfo l k list →
    g.table.find (idOf first k) = some (TxidInfo.tally list.length (votesOn k l))
  apart : ∀ j k list list', Open transInfo l j list → Open transInfo l k list' →
    idOf first j = idOf first k → j = k

theorem counting_init : Counting transInfo first [] (Gtm.init transInfo first : Gtm C) where
  live := rfl
  configured := rfl
  next := by simp [lists, Gtm.init]
  entry := fun _ _ h => absurd h.1 (by simp [lists])
  apart := fun _ _ _ _ h => absurd h.1 (by simp [lists])

theorem Counting.toInt_txid {g : Gtm C} (h : Counting transInfo first l g) :
    g.txid.toInt = idOf first (lists transInfo l).length := by
  rw [h.next, idOf]

theorem receive_getTxid {g : Gtm C} (hlive : g.crashed = false) (conn : C)
    (transType : String) :
    g.receive ((Call.getTxid conn transType).arrival first) = g.getTxid conn transType := by
  simp [receive, hlive, Call.arrival, onMessage, createGtmMsg]

/-- A transaction that misses votes after a request was registered before, or by it. -/
theorem open_getTxid {conn : C} {transType : String} {k : Nat} {list : List IpAndPort}
    (h : Open transInfo (l ++ [.getTxid conn transType]) k list) :
    Open transInfo l k list ∨ k = (lists transInfo l).length ∧ list = transInfo transType := by
  obtain ⟨hlist, hmany, hmiss⟩ := h
  rw [lists_getTxid] at hlist
  rw [votesOn_getTxid] at hmiss
  rcases Nat.lt_or_ge k (lists transInfo l).length with hlt | hge
  · exact Or.inl ⟨(List.getElem?_append_left hlt).symm.trans hlist, hmany, hmiss⟩
  · rw [List.getElem?_append_right hge, List.getElem?_singleton] at hlist
    obtain ⟨hzero, heq⟩ := Option.ite_none_right_eq_some.1 hlist
    exact Or.inr ⟨by omega, (Option.some.inj heq).symm⟩

/-- A request for an id under which no votes are missing. -/
theorem Counting.getTxid {g : Gtm C} (h : Counting transInfo first l g)
    (hvotes : OneVoteEach transInfo parts ballot l) (conn : C) {transType : String}
    (hfresh : 1 < (transInfo transType).length → g.table.find g.txid.toInt = none) :
    Counting transInfo first (l ++ [.getTxid conn transType]) (g.getTxid conn transType) := by
  have hid := h.toInt_txid
  -- the ids that are waited for are others than the new one
  have hne : ∀ k list, Open transInfo l k list → 1 < (transInfo transType).length →
      idOf first k ≠ g.txid.toInt := by
    intro k list hopen hmany heq
    have hentry := h.entry k list hopen
    rw [heq, hfresh hmany] at hentry
    simp at hentry
  refine ⟨h.live, h.configured, ?_, ?_, ?_⟩
  · rw [lists_getTxid, List.length_append, List.length_singleton, BitVec.ofNat_add,
      ← BitVec.add_assoc, ← h.next]
    rfl
  · intro k list hopen
    rw [votesOn_getTxid, Gtm.getTxid]
    dsimp only
    rw [h.configured]
    rcases open_getTxid hopen with hold | ⟨rfl, rfl⟩
    · split
      · rename_i hmany
        rw [PtrMap.find_insert_of_ne _ _ (hne k list hold hmany)]
        exact h.entry k list hold
      · exact h.entry k list hold
    · rw [if_pos hopen.2.1, ← hid, PtrMap.find_insert_self,
        hvotes.votesOn_eq_nil (Nat.le_refl _), TxidInfo.tally_nil]
  · intro j k list list' hj hk heq
    rcases open_getTxid hj with hj | ⟨rfl, rfl⟩
    · rcases open_getTxid hk with hk | ⟨rfl, rfl⟩
      · exact h.apart j k list list' hj hk heq
      · exact absurd (heq.trans hid.symm) (hne j list hj hk.2.1)
    · rcases open_getTxid hk with hk | ⟨rfl, rfl⟩
      · exact absurd (heq.symm.trans hid.symm) (hne k list' hk hj.2.1)
      · rfl

/-- What a vote does while votes are missing. -/
theorem judgeConflict_tally {g : Gtm C} {i : Int} {n : Nat} {V : List (C × Bool)}
    (h : g.table.find i = some (TxidInfo.tally n V)) (conn : C) {data : GtmMsg}
    (hi : data.txid = i) :
    g.judgeConflict conn data =
      if V.length + 1 = n then
        { g with
          table := g.table.erase i
          out := g.out ++ (V ++ [(conn, data.isLocalConflict)]).map fun v =>
            (v.1, decision i ((V ++ [(conn, data.isLocalConflict)]).any Prod.snd)) }
      else
        { g with
          table := g.table.insert i (TxidInfo.tally n (V ++ [(conn, data.isLocalConflict)])) } := by
  subst hi
  have hvote := TxidInfo.vote_tally n V (conn, data.isLocalConflict)
  have hlast : (TxidInfo.tally n (V ++ [(conn, data.isLocalConflict)])).serverNum = 0 ↔
      V.length + 1 = n := by
    simp only [TxidInfo.tally, List.length_append, List.length_singleton]
    omega
  unfold judgeConflict
  rw [h]
  dsimp only at hvote ⊢
  rw [hvote]
  simp only [hlast]
  simp [TxidInfo.tally, Function.comp_def]

theorem receive_vote {g : Gtm C} (hlive : g.crashed = false) (k : Nat) (conn : C) (c : Bool) :
    g.receive ((Call.vote k conn c).arrival first) =
      g.judgeConflict conn (createGtmMsg kJudgeConflit (idOf first k) c) := by
  simp [receive, hlive, Call.arrival, onMessage, createGtmMsg]

/-- A vote comes while votes are missing. -/
theorem OneVoteEach.open_of_vote {k : Nat} {conn : C} {c : Bool}
    (h : OneVoteEach transInfo parts ballot (l ++ [.vote k conn c])) :
    ∃ list, Open transInfo l k list ∧ (parts k).length = list.length := by
  obtain ⟨⟨list, hlist, hmany⟩, -⟩ := ((each_concat _ l _).1 h.vote).2 k conn c rfl
  have hlength := h.init.length k list hlist
  have hle := h.votesOn_length_le k
  rw [votesOn_self, List.length_append, List.length_singleton] at hle
  exact ⟨list, ⟨hlist, hmany, by omega⟩, hlength⟩

theorem open_vote {j k : Nat} {conn : C} {c : Bool} {list : List IpAndPort}
    (h : Open transInfo (l ++ [.vote k conn c]) j list) : Open transInfo l j list := by
  obtain ⟨hlist, hmany, hmiss⟩ := h
  rw [lists_vote] at hlist
  by_cases hj : k = j
  · subst hj
    rw [votesOn_self, List.length_append] at hmiss
    exact ⟨hlist, hmany, by omega⟩
  · rw [votesOn_of_ne hj] at hmiss
    exact ⟨hlist, hmany, hmiss⟩

theorem Counting.vote {g : Gtm C} (h : Counting transInfo first l g) {k : Nat}
    {list : List IpAndPort} (hk : Open transInfo l k list) (conn : C) (c : Bool) :
    Counting transInfo first (l ++ [.vote k conn c])
      (g.judgeConflict conn (createGtmMsg kJudgeConflit (idOf first k) c)) := by
  have hne : ∀ j list', Open transInfo l j list' → k ≠ j → idOf first j ≠ idOf first k := by
    intro j list' hj hkj heq
    exact hkj (h.apart j k list' list hj hk heq).symm
  rw [judgeConflict_tally (h.entry k list hk) conn rfl]
  split
  · rename_i hlast
    refine ⟨h.live, h.configured, ?_, ?_, ?_⟩
    · rw [lists_vote]
      exact h.next
    · intro j list' hj
      have hkj : k ≠ j := by
        intro heq
        subst heq
        obtain ⟨hlist', -, hmiss⟩ := hj
        rw [lists_vote, hk.1, Option.some.injEq] at hlist'
        rw [votesOn_self, List.length_append, List.length_singleton, ← hlist'] at hmiss
        omega
      rw [votesOn_of_ne hkj]
      dsimp only
      rw [PtrMap.find_erase_of_ne _ (hne j list' (open_vote hj) hkj)]
      exact h.entry j list' (open_vote hj)
    · intro i j list₁ list₂ hi hj
      exact h.apart i j list₁ list₂ (open_vote hi) (open_vote hj)
  · refine ⟨h.live, h.configured, ?_, ?_, ?_⟩
    · rw [lists_vote]
      exact h.next
    · intro j list' hj
      by_cases hkj : k = j
      · subst hkj
        have hlist' := (open_vote hj).1
        rw [hk.1, Option.some.injEq] at hlist'
        rw [votesOn_self, ← hlist']
        exact PtrMap.find_insert_self _ _ _
      · rw [votesOn_of_ne hkj]
        dsimp only
        rw [PtrMap.find_insert_of_ne _ _ (hne j list' (open_vote hj) hkj)]
        exact h.entry j list' (open_vote hj)
    · intro i j list₁ list₂ hi hj
      exact h.apart i j list₁ list₂ (open_vote hi) (open_vote hj)

theorem OneVoteEach.counting (h : OneVoteEach transInfo parts ballot l)
    (hfresh : Each (Fresh transInfo first) l) :
    Counting transInfo first l (after transInfo first l) := by
  induction l using List.reverseRecOn with
  | nil => exact counting_init
  | append_singleton l call ih =>
      obtain ⟨hbefore, hlast⟩ := (each_concat _ l call).1 hfresh
      have hcounting := ih h.init hbefore
      rw [after_concat]
      cases call with
      | getTxid conn transType =>
          rw [receive_getTxid hcounting.live]
          exact hcounting.getTxid h.init conn hlast
      | vote k conn c =>
          obtain ⟨list, hopen, -⟩ := h.open_of_vote
          rw [receive_vote hcounting.live]
          exact hcounting.vote hopen conn c

/-- What a call sends and changes. -/
theorem Counting.answers {call : Call C}
    (h : Counting transInfo first l (after transInfo first l))
    (hvotes : OneVoteEach transInfo parts ballot (l ++ [call])) :
    Answers transInfo first parts ballot l call := by
  cases call with
  | getTxid conn transType =>
      have hid := h.toInt_txid
      rw [Answers, after_concat, receive_getTxid h.live, Gtm.getTxid, h.configured, hid]
      refine ⟨rfl, fun i hi => ?_⟩
      dsimp only
      split
      · exact Function.update_of_ne hi _ _
      · rfl
  | vote k conn c =>
      obtain ⟨list, hopen, hlength⟩ := hvotes.open_of_vote
      have hgtm : after transInfo first (l ++ [.vote k conn c]) = _ :=
        (after_concat _).trans ((receive_vote h.live k conn c).trans
          (judgeConflict_tally (h.entry k list hopen) conn rfl))
      have hcount : (votesOn k (l ++ [.vote k conn c])).length = (votesOn k l).length + 1 := by
        rw [votesOn_self, List.length_append, List.length_singleton]
      rw [Answers, hgtm, hcount, hlength]
      refine ⟨fun i hi => ?_, fun hlt => ?_, fun hle => ?_⟩
      · split
        · exact Function.update_of_ne hi _ _
        · exact Function.update_of_ne hi _ _
      · rw [if_neg (by omega)]
      · have hmiss := hopen.2.2
        obtain ⟨hperm, hany⟩ := hvotes.any_votesOn (k := k) (by omega)
        rw [if_pos (by omega)]
        refine ⟨?_, hperm, Function.update_self _ _ _⟩
        rw [← hany, votesOn_self]
        rfl

end Counting

/-- For every sequence of requests and votes in which each participant of each
transaction votes once at most, and no id is handed out while the GTM waits for
votes on it: the GTM stays alive, holds the votes of every transaction that misses
votes and answers each call as it should. -/
theorem votes_counted (transInfo : String → List IpAndPort) (first : BitVec 32)
    (parts : Nat → List C) (ballot : Nat → C → Bool) (l : List (Call C))
    (h : OneVoteEach transInfo parts ballot l) (hfresh : Each (Fresh transInfo first) l) :
    CountsVotes transInfo first parts ballot l := by
  have hcounting := h.counting hfresh
  refine ⟨hcounting.live, ?_, ?_⟩
  · intro k list hopen
    have hmiss := hopen.2.2
    refine ⟨_, hcounting.entry k list hopen, ?_, ?_, rfl, rfl⟩
    · simp [TxidInfo.tally]
    · simp only [TxidInfo.tally]
      omega
  · intro pre call post hl
    subst hl
    rw [List.append_cons] at h hfresh
    have hpre := h.of_append
    exact (hpre.init.counting ((each_concat _ _ _).1 ((each_append _ _ _).1 hfresh).1).1).answers
      hpre

/-- Type `transfer` has two participants, any other type has one. -/
def twoOrOne (transType : String) : List IpAndPort :=
  if transType = "transfer" then [⟨"a", 1⟩, ⟨"b", 2⟩] else [⟨"a", 1⟩]

/-- Two participants vote on a transaction, the second one against it. -/
def twoVotes : List (Call Nat) := [.getTxid 0 "transfer", .vote 0 1 false, .vote 0 2 true]

theorem votes_counted_two_participants :
    OneVoteEach twoOrOne (fun _ => [1, 2]) (fun _ conn => conn = 2) twoVotes ∧
      CountsVotes twoOrOne 0 (fun _ => [1, 2]) (fun _ conn => conn = 2) twoVotes := by
  have h : OneVoteEach twoOrOne (fun _ => [1, 2]) (fun _ conn => conn = 2) twoVotes := by
    refine ⟨by simp, ?_, ?_⟩
    · intro k list hlist
      have hlists : lists twoOrOne twoVotes = [[⟨"a", 1⟩, ⟨"b", 2⟩]] := rfl
      rw [hlists, List.getElem?_singleton] at hlist
      rw [← Option.some.inj (Option.ite_none_right_eq_some.1 hlist).2]
      rfl
    · refine (each_append _ [] _).2 ⟨each_nil _, ?_, ?_, ?_, trivial⟩
      · intro k conn c hcall
        cases hcall
      · intro k conn c hcall
        cases hcall
        exact ⟨⟨_, rfl, by decide⟩, by decide, by decide, by decide⟩
      · intro k conn c hcall
        cases hcall
        exact ⟨⟨_, rfl, by decide⟩, by decide, by decide, by decide⟩
  refine ⟨h, votes_counted twoOrOne 0 _ _ twoVotes h ?_⟩
  exact (each_append _ [] _).2 ⟨each_nil _, fun _ => rfl, trivial, trivial, trivial⟩

/-! ### An id that is handed out again -/

/-- One of two participants has voted on the first transaction when `m` transactions with one
participant are registered, and then one with two. -/
def turn (m : Nat) : List (Call Nat) :=
  [.getTxid 0 "transfer", .vote 0 1 false] ++ List.replicate m (.getTxid 0 "solo") ++
    [.getTxid 0 "transfer"]

/-- The participants of the transactions of a turn. -/
def turnParts (m k : Nat) : List Nat := if k = 0 ∨ k = m + 1 then [1, 2] else [1]

theorem lists_turn (m : Nat) :
    lists twoOrOne (turn m) = [⟨"a", 1⟩, ⟨"b", 2⟩] ::
      (List.replicate m [⟨"a", 1⟩] ++ [[⟨"a", 1⟩, ⟨"b", 2⟩]]) := by
  simp [turn, lists, twoOrOne, List.filterMap_append]

theorem votesOn_turn (m : Nat) : votesOn 0 (turn m) = [(1, false)] := by
  simp [turn, votesOn, List.filterMap_append]

theorem oneVoteEach_turn (m : Nat) :
    OneVoteEach twoOrOne (turnParts m) (fun _ _ => false) (turn m) where
  nodup k := by
    unfold turnParts
    split
    · decide
    · decide
  length k list hlist := by
    rw [lists_turn] at hlist
    unfold turnParts
    rcases k with - | k
    · rw [← Option.some.inj hlist]
      rfl
    · rw [List.getElem?_cons_succ] at hlist
      rcases Nat.lt_trichotomy k m with hlt | rfl | hgt
      · rw [List.getElem?_append_left (by simpa using hlt), List.getElem?_replicate,
          if_pos hlt] at hlist
        rw [if_neg (by omega), ← Option.some.inj hlist]
        rfl
      · rw [List.getElem?_append_right (by simp)] at hlist
        rw [if_pos (Or.inr rfl)]
        simp at hlist
        rw [← hlist]
        rfl
      · rw [List.getElem?_eq_none (by simp; omega)] at hlist
        cases hlist
  vote := by
    refine (each_concat _ _ _).2 ⟨(each_append _ _ _).2 ⟨?_, eachFrom_of_forall ?_⟩, ?_⟩
    · refine (each_append _ [] _).2 ⟨each_nil _, ?_, ?_, trivial⟩
      · intro k conn c hcall
        cases hcall
      · intro k conn c hcall
        cases hcall
        exact ⟨⟨_, rfl, by decide⟩, by simp [turnParts], rfl, by decide⟩
    · intro pre call post heq k conn c hcall
      have hmem : call ∈ List.replicate m (Call.getTxid 0 "solo") := heq ▸ by simp
      rw [hcall] at hmem
      cases List.eq_of_mem_replicate hmem
    · intro k conn c hcall
      cases hcall

/-- Requests of transactions with one participant move the counter. -/
theorem after_solo {l : List (Call Nat)} (hlive : (after twoOrOne 0 l).crashed = false)
    (hinfo : (after twoOrOne 0 l).transInfo = twoOrOne) (m : Nat) :
    (after twoOrOne 0 (l ++ List.replicate m (.getTxid 0 "solo"))).crashed = false ∧
      (after twoOrOne 0 (l ++ List.replicate m (.getTxid 0 "solo"))).transInfo = twoOrOne ∧
      (after twoOrOne 0 (l ++ List.replicate m (.getTxid 0 "solo"))).txid =
        (after twoOrOne 0 l).txid + BitVec.ofNat 32 m := by
  induction m with
  | zero =>
      rw [List.replicate_zero, List.append_nil, BitVec.ofNat_eq_ofNat, BitVec.add_zero]
      exact ⟨hlive, hinfo, rfl⟩
  | succ m ih =>
      obtain ⟨hlive', hinfo', hnext⟩ := ih
      rw [List.replicate_succ', ← List.append_assoc, after_concat, receive_getTxid hlive',
        BitVec.ofNat_add, ← BitVec.add_assoc, ← hnext]
      exact ⟨hlive', hinfo', rfl⟩

/-- After a whole turn of the counter the entry of the first transaction is a new one. -/
theorem find_after_turn {m : Nat} (hm : 1 + BitVec.ofNat 32 m = 0) :
    (after twoOrOne 0 (turn m)).table.find (idOf 0 0) = some (TxidInfo.init 2) := by
  obtain ⟨hlive, hinfo, hnext⟩ := after_solo (l := [.getTxid 0 "transfer", .vote 0 1 false])
    rfl rfl m
  rw [show (after twoOrOne 0 [.getTxid 0 "transfer", Call.vote 0 (1 : Nat) false]).txid = 1
      from rfl,
    hm] at hnext
  rw [turn, after_concat, receive_getTxid hlive, getTxid, hinfo, hnext]
  exact PtrMap.find_insert_self _ _ _

/-- The vote on the first transaction is lost when its id is handed out again. -/
theorem not_countsVotes_turn :
    OneVoteEach twoOrOne (turnParts 4294967295) (fun _ _ => false) (turn 4294967295) ∧
      ¬CountsVotes twoOrOne 0 (turnParts 4294967295) (fun _ _ => false) (turn 4294967295) := by
  refine ⟨oneVoteEach_turn _, fun h => ?_⟩
  have hopen : Open twoOrOne (turn 4294967295) 0 [⟨"a", 1⟩, ⟨"b", 2⟩] := by
    refine ⟨?_, by decide, ?_⟩
    · rw [lists_turn]
      rfl
    · rw [votesOn_turn]
      decide
  obtain ⟨info, hfind, -, -, hconn, -⟩ := h.entry 0 _ hopen
  rw [find_after_turn (by decide), Option.some.injEq] at hfind
  rw [← hfind, votesOn_turn] at hconn
  exact absurd hconn (by decide)

end Gtm

end Grit
