import Mathlib.Data.List.Induction
import Grit.Gtm.Basic

/-!
# Steps of the GTM

For one transaction the GTM is a ballot box: it is opened by `getTxid` for a
number of participants, takes one vote after the other and, on the last one,
sends the disjunction of all votes to every voter and forgets the transaction.
`Step` lists what the GTM can do with one message.

The box is found by the id of the transaction. The ids are numbered from the
first one on, and no two are the same before `2 ^ 32` have been handed out.
-/

namespace Grit

open Cmd

namespace TxidInfo

variable {C : Type*}

/-- The entry for `n` participants after the votes `V`, in arrival order. -/
def tally (n : Int) (V : List (C × Bool)) : TxidInfo C :=
  { serverNum := n - V.length
    connList := V.map Prod.fst
    isConflict := V.any Prod.snd }

theorem tally_nil (n : Int) : tally n ([] : List (C × Bool)) = init n := by
  simp [tally, init]

theorem vote_tally (n : Int) (V : List (C × Bool)) (v : C × Bool) :
    (tally n V).vote v.1 v.2 = tally n (V ++ [v]) := by
  simp only [vote, tally, List.length_append, List.length_singleton, List.map_append,
    List.map_cons, List.map_nil, List.any_append, List.any_cons, List.any_nil,
    Bool.or_false, mk.injEq, and_self, and_true]
  omega

end TxidInfo

namespace Gtm

variable {C : Type*}

/-! ### Votes and decisions -/

/-- The vote on transaction `i` that a message carries, with its sender. -/
def voteOf (i : Int) (a : Arrival C) : Option (C × Bool) :=
  match a.msg with
  | .gtmMsg data =>
      if data.cmd = kJudgeConflit ∧ data.txid = i then
        some (a.conn, data.isLocalConflict)
      else none
  | _ => none

/-- The decision on transaction `i` that a message carries, with its receiver. -/
def decisionOf (i : Int) (m : C × RootMsg) : Option (C × Bool) :=
  match m.2 with
  | .dbtmMsg data =>
      if data.cmd = kJudgeConflit ∧ data.txid = i then
        some (m.1, data.isGlobalConflict)
      else none
  | _ => none

/-- The decisions sent on transaction `i`. -/
def decisions (i : Int) (out : List (C × RootMsg)) : List (C × Bool) :=
  out.filterMap (decisionOf i)

/-- `getTxid` has registered transaction `i` with the participants `list`. -/
def Registered (i : Int) (list : List IpAndPort) (g : Gtm C) : Prop :=
  ∃ conn, (conn, txidReply i list) ∈ g.out

/-- A message carries a vote on one transaction only. -/
theorem voteOf_of_ne {i j : Int} {a : Arrival C} {v : C × Bool}
    (h : voteOf i a = some v) (hij : j ≠ i) : voteOf j a = none := by
  unfold voteOf at h ⊢
  split at h
  · rename_i data hdata
    split at h
    · rename_i hi
      simp only [ite_eq_right_iff]
      intro hj
      exact absurd (hj.2.symm.trans hi.2) hij
    · simp at h
  · simp at h

theorem decisions_append (i : Int) (out out' : List (C × RootMsg)) :
    decisions i (out ++ out') = decisions i out ++ decisions i out' := by
  simp [decisions]

theorem decisions_reply (i j : Int) (conn : C) (list : List IpAndPort) :
    decisions i [(conn, txidReply j list)] = [] := by
  simp [decisions, decisionOf, txidReply]

theorem decisions_self (i : Int) (conns : List C) (b : Bool) :
    decisions i (conns.map fun conn => (conn, decision i b)) =
      conns.map fun conn => (conn, b) := by
  have hcomp : (decisionOf i ∘ fun conn : C => (conn, decision i b)) =
      some ∘ fun conn => (conn, b) := by
    funext conn
    simp [decisionOf, decision, createDbtmMsg]
  rw [decisions, List.filterMap_map, hcomp, List.filterMap_eq_map]

theorem decisions_of_ne {i j : Int} (h : j ≠ i) (conns : List C) (b : Bool) :
    decisions i (conns.map fun conn => (conn, decision j b)) = [] := by
  simp [decisions, decisionOf, decision, createDbtmMsg, h]

theorem registered_reply {i j : Int} {list list' : List IpAndPort} {g : Gtm C}
    {conn : C} :
    Registered i list { g with out := g.out ++ [(conn, txidReply j list')] } ↔
      Registered i list g ∨ i = j ∧ list = list' := by
  simp only [Registered, List.mem_append, List.mem_singleton, Prod.mk.injEq, txidReply,
    createAppMsg, RootMsg.appMsg.injEq, AppMsg.mk.injEq, Option.some.injEq, true_and]
  constructor
  · intro h
    obtain ⟨c, h | ⟨-, h⟩⟩ := h
    · exact Or.inl ⟨c, h⟩
    · exact Or.inr h
  · intro h
    rcases h with ⟨c, h⟩ | h
    · exact ⟨c, Or.inl h⟩
    · exact ⟨conn, Or.inr ⟨rfl, h⟩⟩

/-! ### What the GTM does with one message -/

/-- The outcomes of one message: it is not for the GTM, it asks for a
transaction id without a type, it registers a transaction, or it is a vote that
finds no entry, is counted, or is the last one. -/
inductive Step (a : Arrival C) (g : Gtm C) : Gtm C → Prop where
  | skip (hv : ∀ i, voteOf i a = none) : Step a g g
  | untyped (data : GtmMsg) (ha : a.msg = .gtmMsg data) (hcmd : data.cmd = kGetTxid)
      (htype : data.transType = none) (hv : ∀ i, voteOf i a = none) :
      Step a g { g with crashed := true }
  | register (list : List IpAndPort) (hv : ∀ i, voteOf i a = none) :
      Step a g { g with
        table :=
          if list.length > 1 then g.table.insert g.txid.toInt (TxidInfo.init list.length)
          else g.table
        txid := g.txid + 1
        out := g.out ++ [(a.conn, txidReply g.txid.toInt list)] }
  | unknown (i : Int) (v : C × Bool) (hv : voteOf i a = some v)
      (h : g.table.find i = none) :
      Step a g { g with table := g.table.touch i, crashed := true }
  | count (i : Int) (v : C × Bool) (info : TxidInfo C) (hv : voteOf i a = some v)
      (h : g.table.find i = some info) (hn : (info.vote v.1 v.2).serverNum ≠ 0) :
      Step a g { g with table := g.table.insert i (info.vote v.1 v.2) }
  | close (i : Int) (v : C × Bool) (info : TxidInfo C) (hv : voteOf i a = some v)
      (h : g.table.find i = some info) (hn : (info.vote v.1 v.2).serverNum = 0) :
      Step a g { g with
        table := g.table.erase i
        out := g.out ++ (info.vote v.1 v.2).connList.map fun conn =>
          (conn, decision i (info.vote v.1 v.2).isConflict) }

theorem judgeConflict_step {a : Arrival C} {data : GtmMsg} (ha : a.msg = .gtmMsg data)
    (hcmd : data.cmd = kJudgeConflit) (g : Gtm C) :
    Step a g (g.judgeConflict a.conn data) := by
  have hv : voteOf data.txid a = some (a.conn, data.isLocalConflict) := by
    simp [voteOf, ha, hcmd]
  unfold judgeConflict
  cases h : g.table.find data.txid with
  | none => exact .unknown _ _ hv h
  | some info =>
      by_cases hn : (info.vote a.conn data.isLocalConflict).serverNum = 0
      · simp only [hn, if_true]
        exact .close _ _ info hv h hn
      · simp only [hn, if_false]
        exact .count _ _ info hv h hn

theorem onMessage_step (a : Arrival C) (g : Gtm C) :
    Step a g (g.onMessage a.conn a.msg) := by
  have hnone : ∀ data, a.msg = .gtmMsg data → data.cmd ≠ kJudgeConflit →
      ∀ i, voteOf i a = none := by
    intro data ha hcmd i
    simp [voteOf, ha, hcmd]
  unfold onMessage
  split
  · rename_i data ha
    split
    · rename_i hcmd
      have hv := hnone data ha (by simp [hcmd])
      cases htype : data.transType with
      | none => exact .untyped data ha hcmd htype hv
      | some transType => exact .register (g.transInfo transType) hv
    · rename_i hcmd
      exact judgeConflict_step ha hcmd g
    · rename_i hcmd
      exact .skip (hnone data ha hcmd)
  · rename_i hother
    refine .skip ?_
    intro i
    unfold voteOf
    split
    · rename_i data ha
      exact absurd ha (hother data)
    · rfl

theorem receive_step {g : Gtm C} (h : g.crashed = false) (a : Arrival C) :
    Step a g (g.receive a) := by
  rw [receive, h]
  exact onMessage_step a g

/-- What a message does to transaction `i` that is no vote on it: nothing, unless
it registers it. -/
theorem Step.keep {i : Int} {a : Arrival C} {g g' : Gtm C} (hstep : Step a g g')
    (hv : voteOf i a = none) : decisions i g'.out = decisions i g.out ∧
      (g'.table i = g.table i ∨ i = g.txid.toInt ∧ ∃ list, Registered i list g' ∧
        g'.table i = if list.length > 1 then some (some (TxidInfo.init list.length))
          else g.table i) := by
  have hne : ∀ j v, voteOf j a = some v → i ≠ j := by
    intro j v hj hij
    subst hij
    simp [hv] at hj
  cases hstep with
  | skip => exact ⟨rfl, Or.inl rfl⟩
  | untyped => exact ⟨rfl, Or.inl rfl⟩
  | register list =>
      refine ⟨by simp [decisions_append, decisions_reply], ?_⟩
      by_cases hi : i = g.txid.toInt
      · refine Or.inr ⟨hi, list, ⟨a.conn, by simp [hi]⟩, ?_⟩
        subst hi
        dsimp only
        split
        · exact Function.update_self _ _ _
        · rfl
      · refine Or.inl ?_
        dsimp only
        split
        · exact Function.update_of_ne hi _ _
        · rfl
  | unknown j v hj h =>
      exact ⟨rfl, Or.inl (PtrMap.touch_of_ne _ (hne j v hj))⟩
  | count j v info hj h hn =>
      exact ⟨rfl, Or.inl (Function.update_of_ne (hne j v hj) _ _)⟩
  | close j v info hj h hn =>
      refine ⟨?_, Or.inl (Function.update_of_ne (hne j v hj) _ _)⟩
      simp [decisions_append, decisions_of_ne (hne j v hj).symm]

/-- A vote finds no entry, is counted, or is the last one. -/
theorem Step.of_vote {i : Int} {a : Arrival C} {v : C × Bool} {g g' : Gtm C}
    (hstep : Step a g g') (hv : voteOf i a = some v) :
    (g.table.find i = none ∧ g'.crashed = true) ∨
      ∃ info, g.table.find i = some info ∧
        (((info.vote v.1 v.2).serverNum ≠ 0 ∧ g'.out = g.out ∧
            g'.table.find i = some (info.vote v.1 v.2)) ∨
          ((info.vote v.1 v.2).serverNum = 0 ∧ g'.table.find i = none ∧
            g'.out = g.out ++ (info.vote v.1 v.2).connList.map fun conn =>
              (conn, decision i (info.vote v.1 v.2).isConflict))) := by
  have hsame : ∀ j w, voteOf j a = some w → j = i ∧ w = v := by
    intro j w hw
    by_cases hj : j = i
    · subst hj
      exact ⟨rfl, Option.some.inj (hw.symm.trans hv)⟩
    · rw [voteOf_of_ne hv hj] at hw
      cases hw
  cases hstep with
  | skip hno => simp [hno i] at hv
  | untyped _ _ _ _ hno => simp [hno i] at hv
  | register _ hno => simp [hno i] at hv
  | unknown j w hw h =>
      obtain ⟨rfl, rfl⟩ := hsame j w hw
      exact Or.inl ⟨h, rfl⟩
  | count j w info hw h hn =>
      obtain ⟨rfl, rfl⟩ := hsame j w hw
      exact Or.inr ⟨info, h, Or.inl ⟨hn, rfl, PtrMap.find_insert_self _ _ _⟩⟩
  | close j w info hw h hn =>
      obtain ⟨rfl, rfl⟩ := hsame j w hw
      exact Or.inr ⟨info, h, Or.inr ⟨hn, PtrMap.find_erase_self _ _, rfl⟩⟩

/-- The messages that a step sends to DBTMs are decisions. -/
theorem Step.sent {a : Arrival C} {g g' : Gtm C} (hstep : Step a g g') :
    ∃ ms, g'.out = g.out ++ ms ∧
      ∀ conn m, (conn, RootMsg.dbtmMsg m) ∈ ms → m.cmd = kJudgeConflit := by
  cases hstep with
  | skip => exact ⟨[], by simp, by simp⟩
  | untyped => exact ⟨[], by simp, by simp⟩
  | register list hno => exact ⟨_, rfl, by simp [txidReply]⟩
  | unknown => exact ⟨[], by simp, by simp⟩
  | count => exact ⟨[], by simp, by simp⟩
  | close i v info hv h hn =>
      refine ⟨_, rfl, ?_⟩
      intro conn m hm
      obtain ⟨c, -, heq⟩ := List.mem_map.1 hm
      simp only [decision, Prod.mk.injEq, RootMsg.dbtmMsg.injEq] at heq
      rw [← heq.2]
      rfl

/-- The step that ends the GTM sends nothing. -/
theorem Step.out_of_crashed {a : Arrival C} {g g' : Gtm C} (hstep : Step a g g')
    (hlive : g.crashed = false) (hc : g'.crashed = true) : g'.out = g.out := by
  cases hstep with
  | skip => rfl
  | untyped => rfl
  | register => simp [hlive] at hc
  | unknown => rfl
  | count => rfl
  | close => simp [hlive] at hc

theorem Registered.of_step {a : Arrival C} {g g' : Gtm C} {i : Int}
    {list : List IpAndPort} (h : Registered i list g) (hstep : Step a g g') :
    Registered i list g' := by
  obtain ⟨conn, hmem⟩ := h
  cases hstep with
  | skip => exact ⟨conn, hmem⟩
  | untyped => exact ⟨conn, hmem⟩
  | register list' hno => exact ⟨conn, List.mem_append_left _ hmem⟩
  | unknown => exact ⟨conn, hmem⟩
  | count => exact ⟨conn, hmem⟩
  | close => exact ⟨conn, List.mem_append_left _ hmem⟩

/-! ### Ids -/

/-- The reply to a request for an id. -/
def isTxidReply (m : C × RootMsg) : Bool :=
  match m.2 with
  | .appMsg _ => true
  | _ => false

/-- The number of ids that the GTM has handed out. -/
def issued (g : Gtm C) : Nat := g.out.countP isTxidReply

/-- The GTM, which has started with the id `first`, has given and has entries for the first ids
only. -/
structure Numbered (first : BitVec 32) (g : Gtm C) : Prop where
  next : g.txid = first + BitVec.ofNat 32 g.issued
  registered : ∀ i list, Registered i list g → ∃ k < g.issued, i = idOf first k
  within : ∀ i info, g.table.find i = some info → ∃ k < g.issued, i = idOf first k

theorem numbered_init (transInfo : String → List IpAndPort) (txid : BitVec 32) :
    Numbered txid (init transInfo txid : Gtm C) where
  next := by simp [init, issued]
  registered := by
    rintro i list ⟨conn, hmem⟩
    simp [init] at hmem
  within := by
    intro i info hi
    simp [init] at hi

/-- The next id is a new one, until there are no more. -/
theorem Numbered.ne_txid {first : BitVec 32} {g : Gtm C} (h : Numbered first g)
    (hids : g.issued < 4294967296) {k : Nat} (hk : k < g.issued) :
    idOf first k ≠ g.txid.toInt := by
  have hid : g.txid.toInt = idOf first g.issued := by rw [h.next, idOf]
  rw [hid, Ne, idOf_eq_iff, Nat.mod_eq_of_lt hids, Nat.mod_eq_of_lt (by omega)]
  omega

theorem Numbered.find_txid {first : BitVec 32} {g : Gtm C} (h : Numbered first g)
    (hids : g.issued < 4294967296) : g.table.find g.txid.toInt = none := by
  by_contra hne
  obtain ⟨info, hinfo⟩ := Option.ne_none_iff_exists'.1 hne
  obtain ⟨k, hk, heq⟩ := h.within _ info hinfo
  exact h.ne_txid hids hk heq.symm

/-- A step that hands out no id. -/
theorem Numbered.keep {first : BitVec 32} {g g' : Gtm C} (h : Numbered first g)
    (htxid : g'.txid = g.txid) {ms : List (C × RootMsg)} (hout : g'.out = g.out ++ ms)
    (hms : ∀ m ∈ ms, isTxidReply m = false)
    (htable : ∀ i info, g'.table.find i = some info → ∃ info', g.table.find i = some info') :
    Numbered first g' := by
  have hissued : g'.issued = g.issued := by
    have hzero : ms.countP isTxidReply = 0 := List.countP_eq_zero.2 fun m hm => by simp [hms m hm]
    rw [issued, hout, List.countP_append, hzero, Nat.add_zero, issued]
  refine ⟨?_, ?_, ?_⟩
  · rw [htxid, hissued]
    exact h.next
  · rintro i list ⟨conn, hmem⟩
    rw [hissued]
    rw [hout] at hmem
    rcases List.mem_append.1 hmem with hmem | hmem
    · exact h.registered i list ⟨conn, hmem⟩
    · exact absurd (hms _ hmem) (by simp [isTxidReply, txidReply])
  · intro i info hi
    rw [hissued]
    obtain ⟨info', hinfo'⟩ := htable i info hi
    exact h.within i info' hinfo'

theorem Numbered.step {first : BitVec 32} {a : Arrival C} {g g' : Gtm C} (h : Numbered first g)
    (hstep : Step a g g') : Numbered first g' := by
  cases hstep with
  | skip => exact h
  | untyped => exact h.keep rfl (List.append_nil _).symm (by simp) fun i info hi => ⟨info, hi⟩
  | register list hv =>
      have hid : g.txid.toInt = idOf first g.issued := by rw [h.next, idOf]
      have hissued : ({ g with
          table := if list.length > 1 then g.table.insert g.txid.toInt (TxidInfo.init list.length)
            else g.table
          txid := g.txid + 1
          out := g.out ++ [(a.conn, txidReply g.txid.toInt list)] } : Gtm C).issued =
            g.issued + 1 := by
        simp [issued, isTxidReply, txidReply]
      refine ⟨?_, ?_, ?_⟩
      · rw [hissued, BitVec.ofNat_add, ← BitVec.add_assoc, ← h.next]
        rfl
      · intro i list' hreg
        rw [hissued]
        rcases registered_reply.1 hreg with hold | ⟨rfl, -⟩
        · obtain ⟨k, hk, heq⟩ := h.registered i list' hold
          exact ⟨k, by omega, heq⟩
        · exact ⟨g.issued, by omega, hid⟩
      · intro i info hi
        rw [hissued]
        by_cases heq : i = g.txid.toInt
        · exact ⟨g.issued, by omega, heq.trans hid⟩
        · have hold : g.table.find i = some info := by
            dsimp only at hi
            split at hi
            · rwa [PtrMap.find_insert_of_ne _ _ heq] at hi
            · exact hi
          obtain ⟨k, hk, hki⟩ := h.within i info hold
          exact ⟨k, by omega, hki⟩
  | unknown i v hv hnone =>
      refine h.keep rfl (List.append_nil _).symm (by simp) fun j info hj => ?_
      rw [PtrMap.find_touch] at hj
      exact ⟨info, hj⟩
  | count i v info hv hi hn =>
      refine h.keep rfl (List.append_nil _).symm (by simp) fun j info' hj => ?_
      rw [PtrMap.find_insert] at hj
      split at hj
      · rename_i heq
        exact ⟨info, heq ▸ hi⟩
      · exact ⟨info', hj⟩
  | close i v info hv hi hn =>
      refine h.keep rfl rfl ?_ fun j info' hj => ?_
      · intro m hm
        obtain ⟨conn, -, rfl⟩ := List.mem_map.1 hm
        rfl
      · rw [PtrMap.find_erase] at hj
        split at hj
        · cases hj
        · exact ⟨info', hj⟩

/-- A request is answered. -/
theorem Step.issued_le {a : Arrival C} {g g' : Gtm C} (hstep : Step a g g') :
    g.issued ≤ g'.issued := by
  obtain ⟨ms, hout, -⟩ := hstep.sent
  rw [issued, issued, hout, List.countP_append]
  exact Nat.le_add_right _ _

end Gtm

end Grit
