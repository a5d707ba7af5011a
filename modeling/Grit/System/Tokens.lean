import Grit.DbService.Token
import Grit.System.Basic

/-!
# What is on its way for one transaction

For a participant `p` and a transaction `x`, the messages in flight, the votes that the GTM
holds and the logs that the DBTL has queued are read as tokens. A step of another process only
passes tokens on or loses them. `View` says what a step of the system is for the DbService of
`p`: nothing that it can see, a message to it, or one of its tasks.
-/

namespace Grit

open Cmd DbService Token

namespace Sys

variable {A P C W : Type*} [DecidableEq P]

def isFrom (p : P) : A ⊕ P → Bool
  | .inl _ => false
  | .inr q => q = p

/-- The token of `x` that a packet carries from or to `p`. -/
def packetToken (p : P) (x : Int) : Packet P → Option Token
  | .toGtm q m => if q = p then tokenOfGtm x m else none
  | .toDbService q m => if q = p then tokenOf x m else none
  | .toDbtl q m => if q = p then tokenOfDbtl x m else none

/-- The votes of `p` that the GTM holds; what it will decide is the disjunction of all votes. -/
def heldTokens (p : P) (x : Int) (g : Gtm (A ⊕ P)) : List Token :=
  match g.table.find x with
  | none => []
  | some info => List.replicate (info.connList.countP (isFrom p)) (.verdict info.isConflict)

def taskToken (x : Int) (t : DbtlTask P) : Option Token :=
  if t.txid = x then some (.log t.data) else none

def tokens (p : P) (x : Int) (s : Sys A P C W) : List Token :=
  s.net.filterMap (packetToken p x) ++ heldTokens p x s.gtm ++
    (s.dbtl p).tasks.filterMap (taskToken x)

/-- Tokens are passed on or lost. -/
def Fades (p : P) (x : Int) (s s' : Sys A P C W) : Prop :=
  ∀ f, Inherited f → (tokens p x s').countP f ≤ (tokens p x s).countP f

/-- A DBTL answers its own DbService, and it gives the lsn 0. -/
structure Linked (s : Sys A P C W) : Prop where
  conn : ∀ q t, t ∈ (s.dbtl q).tasks → t.conn = q
  lsn : ∀ q m, .toDbService q m ∈ s.net → m.cmd = kLsn → m.lsn = 0

/-- The step commits `x` at `p`. -/
def isCommit (p : P) (x : Int) : Act A P C → Bool
  | .entityService q _ m => q = p ∧ m.cmd = kCommit ∧ m.txid = x
  | _ => false

def commits (p : P) (x : Int) (l : List (Act A P C)) : Nat := l.countP (isCommit p x)

theorem commits_concat (p : P) (x : Int) (l : List (Act A P C)) (a : Act A P C) :
    commits p x (l ++ [a]) = commits p x l + if isCommit p x a then 1 else 0 := by
  simp [commits, List.countP_singleton]

theorem countP_tokens (p : P) (x : Int) (s : Sys A P C W) (f : Token → Bool) :
    (tokens p x s).countP f = (s.net.filterMap (packetToken p x)).countP f +
      (heldTokens p x s.gtm).countP f + ((s.dbtl p).tasks.filterMap (taskToken x)).countP f := by
  simp only [tokens, List.countP_append]

/-- The net gets smaller. -/
theorem fades_sublist {p : P} {x : Int} {s : Sys A P C W} {net : List (Packet P)}
    (h : net.Sublist s.net) : Fades p x s { s with net := net } := by
  intro f _
  have hle := (h.filterMap (packetToken p x)).countP_le (p := f)
  rw [countP_tokens, countP_tokens]
  dsimp only
  omega

/-! ### Steps of a DbService -/

theorem filterMap_ofDbService (p : P) (x : Int) (es : List (Event C)) :
    (es.filterMap (ofDbService p)).filterMap (packetToken p x) = sent x es := by
  rw [sent, List.filterMap_filterMap]
  apply List.filterMap_congr
  intro e _
  cases e with
  | sendGtm m => simp [ofDbService, packetToken]
  | sendDbtl m => simp [ofDbService, packetToken]
  | _ => rfl

/-- What another DbService sends does not concern `p`. -/
theorem filterMap_ofDbService_of_ne {p q : P} (hq : q ≠ p) (x : Int) (es : List (Event C)) :
    (es.filterMap (ofDbService q)).filterMap (packetToken p x) = [] := by
  rw [List.filterMap_filterMap, List.filterMap_eq_nil_iff]
  intro e _
  cases e with
  | sendGtm m => simp [ofDbService, packetToken, hq]
  | sendDbtl m => simp [ofDbService, packetToken, hq]
  | _ => rfl

theorem setDbService_net {q : P} {s : Sys A P C W} {d : DbService C W} {es : List (Event C)}
    (hout : d.out = (s.dbs q).out ++ es) :
    (s.setDbService q d).net = s.net ++ es.filterMap (ofDbService q) := by
  rw [Sys.setDbService, hout, List.drop_left]

theorem fades_setDbService {p q : P} (hq : q ≠ p) (x : Int) {s : Sys A P C W}
    {d : DbService C W} {es : List (Event C)} (hout : d.out = (s.dbs q).out ++ es) :
    Fades p x s (s.setDbService q d) := by
  intro f _
  rw [countP_tokens, countP_tokens, setDbService_net hout, List.filterMap_append,
    filterMap_ofDbService_of_ne hq, List.append_nil]
  exact Nat.le_refl _

/-- The tokens of `p` after a step of its DbService. -/
theorem countP_setDbService (p : P) (x : Int) {s : Sys A P C W} {d : DbService C W}
    {es : List (Event C)} (hout : d.out = (s.dbs p).out ++ es) (f : Token → Bool) :
    (tokens p x (s.setDbService p d)).countP f =
      (tokens p x s).countP f + (sent x es).countP f := by
  rw [countP_tokens, countP_tokens, setDbService_net hout, List.filterMap_append,
    filterMap_ofDbService, List.countP_append]
  dsimp only [Sys.setDbService]
  omega

omit [DecidableEq P] in
theorem Linked.sublist {s : Sys A P C W} (h : Linked s) {net : List (Packet P)}
    (hnet : net.Sublist s.net) : Linked { s with net := net } :=
  ⟨h.conn, fun q m hm => h.lsn q m (hnet.subset hm)⟩

theorem Linked.setDbService {q : P} {s : Sys A P C W} (h : Linked s) {d : DbService C W}
    {es : List (Event C)} (hout : d.out = (s.dbs q).out ++ es) :
    Linked (s.setDbService q d) := by
  refine ⟨h.conn, ?_⟩
  intro q' m hm
  rw [setDbService_net hout] at hm
  rcases List.mem_append.1 hm with hm | hm
  · exact h.lsn q' m hm
  · exact absurd hm not_toDbService_ofDbService

/-! ### Steps of the GTM -/

/-- The vote of `p` on `x` that a message to the GTM carries. -/
def voteToken (p : P) (x : Int) (a : Gtm.Arrival (A ⊕ P)) : Option Token :=
  (Gtm.voteOf x a).bind fun v => if isFrom p v.1 then some (.verdict v.2) else none

theorem voteToken_toGtm (p q : P) (x : Int) (m : GtmMsg) :
    voteToken p x (⟨.inr q, .gtmMsg m⟩ : Gtm.Arrival (A ⊕ P)) = packetToken p x (.toGtm q m) := by
  by_cases hm : m.cmd = kJudgeConflit ∧ m.txid = x
  · simp [voteToken, Gtm.voteOf, packetToken, tokenOfGtm, isFrom, hm]
  · simp [voteToken, Gtm.voteOf, packetToken, tokenOfGtm, hm]

theorem heldTokens_some {p : P} {x : Int} {g : Gtm (A ⊕ P)} {info : TxidInfo (A ⊕ P)}
    (h : g.table.find x = some info) :
    heldTokens p x g =
      List.replicate (info.connList.countP (isFrom p)) (.verdict info.isConflict) := by
  rw [heldTokens, h]

theorem heldTokens_congr {p : P} {x : Int} {g g' : Gtm (A ⊕ P)}
    (h : g'.table.find x = g.table.find x) : heldTokens p x g' = heldTokens p x g := by
  rw [heldTokens, heldTokens, h]

/-- The decision reaches `p` once for each of its votes. -/
theorem filterMap_decision (p : P) (x i : Int) (b : Bool) (conns : List (A ⊕ P)) :
    ((conns.map fun conn => (conn, Gtm.decision i b)).filterMap ofGtm).filterMap
        (packetToken p x) =
      if i = x then List.replicate (conns.countP (isFrom p)) (.verdict b) else [] := by
  induction conns with
  | nil => simp
  | cons conn conns ih =>
      rw [List.map_cons]
      cases conn with
      | inl a =>
          have hnone : ofGtm ((.inl a, Gtm.decision i b) : (A ⊕ P) × RootMsg) = none := rfl
          rw [List.filterMap_cons_none hnone, ih]
          simp [isFrom]
      | inr q =>
          have hsome : ofGtm ((.inr q, Gtm.decision i b) : (A ⊕ P) × RootMsg) =
              some (.toDbService q (createDbtmMsg kJudgeConflit i b)) := rfl
          rw [List.filterMap_cons_some hsome, List.filterMap_cons, ih]
          by_cases hi : i = x
          · by_cases hq : q = p
            · simp [isFrom, packetToken, tokenOf, createDbtmMsg, hq, hi, List.replicate_succ]
            · simp [isFrom, packetToken, hq, hi]
          · simp [packetToken, tokenOf, createDbtmMsg, hi]

/-- A vote joins the ones that are held. -/
theorem countP_vote (p : P) (info : TxidInfo (A ⊕ P)) (v : (A ⊕ P) × Bool) {f : Token → Bool}
    (hf : Inherited f) :
    (List.replicate ((info.vote v.1 v.2).connList.countP (isFrom p))
        (Token.verdict (info.vote v.1 v.2).isConflict)).countP f ≤
      (List.replicate (info.connList.countP (isFrom p)) (Token.verdict info.isConflict)).countP f +
        (if isFrom p v.1 then some (Token.verdict v.2) else none).toList.countP f := by
  have hor : ∀ b c, f (.verdict (b || c)) = true →
      f (.verdict b) = true ∧ f (.verdict c) = true := by
    intro b c h
    cases b with
    | false =>
        cases c with
        | false => exact ⟨h, h⟩
        | true => exact ⟨hf.verdict h, h⟩
    | true =>
        cases c with
        | false => exact ⟨h, hf.verdict h⟩
        | true => exact ⟨h, h⟩
  by_cases hnew : f (.verdict (info.isConflict || v.2)) = true
  · obtain ⟨hold, hv⟩ := hor _ _ hnew
    by_cases hp : isFrom p v.1 = true
    · simp [TxidInfo.vote, List.countP_replicate, hnew, hold, hv, hp]
    · simp [TxidInfo.vote, List.countP_replicate, hnew, hold, hp]
  · simp [TxidInfo.vote, List.countP_replicate, hnew]

omit [DecidableEq P] in
/-- A message that the GTM sends to a DbService is a decision. -/
theorem cmd_of_mem_ofGtm {out : List ((A ⊕ P) × RootMsg)} {i : Int} {b : Bool}
    {conns : List (A ⊕ P)} (hout : out = conns.map fun conn => (conn, Gtm.decision i b))
    {q : P} {data : DbtmMsg} (hm : .toDbService q data ∈ out.filterMap ofGtm) :
    data.cmd = kJudgeConflit := by
  subst hout
  obtain ⟨v, hv, he⟩ := List.mem_filterMap.1 hm
  obtain ⟨conn, -, rfl⟩ := List.mem_map.1 hv
  cases conn with
  | inl a => simp [ofGtm] at he
  | inr q' =>
      obtain ⟨-, rfl⟩ := Packet.toDbService.inj (Option.some.inj he)
      rfl

omit [DecidableEq P] in
/-- The reply to a request for an id does not go to a DbService. -/
theorem filterMap_ofGtm_txidReply (conn : A ⊕ P) (id : Int) (list : List IpAndPort) :
    ([(conn, Gtm.txidReply id list)].filterMap ofGtm : List (Packet P)) = [] := by
  cases conn with
  | inl a => rfl
  | inr q => rfl

/-- A transaction that is registered starts without votes. -/
theorem heldTokens_register_le (p : P) (x : Int) (g : Gtm (A ⊕ P)) (list : List IpAndPort)
    (out : List ((A ⊕ P) × RootMsg)) (f : Token → Bool) :
    (heldTokens p x { g with
      table :=
        if list.length > 1 then g.table.insert g.txid.toInt (TxidInfo.init list.length)
        else g.table
      txid := g.txid + 1
      out := out }).countP f ≤ (heldTokens p x g).countP f := by
  by_cases hlen : list.length > 1
  · by_cases hx : g.txid.toInt = x
    · simp [heldTokens, hlen, hx, TxidInfo.init]
    · apply Nat.le_of_eq
      refine congrArg _ (heldTokens_congr ?_)
      dsimp only
      rw [if_pos hlen]
      exact PtrMap.find_insert_of_ne _ _ (Ne.symm hx)
  · apply Nat.le_of_eq
    refine congrArg _ (heldTokens_congr ?_)
    dsimp only
    rw [if_neg hlen]

/-- A step of the GTM: a vote moves into the table, the votes of the table become
decisions. -/
theorem gtm_step_tokens {a : Gtm.Arrival (A ⊕ P)} {g g' : Gtm (A ⊕ P)}
    (hstep : Gtm.Step a g g') (p : P) (x : Int) :
    ∃ ms, g'.out = g.out ++ ms ∧
      (∀ f, Inherited f → ((ms.filterMap ofGtm).filterMap (packetToken p x)).countP f +
        (heldTokens p x g').countP f ≤
          (heldTokens p x g).countP f + (voteToken p x a).toList.countP f) ∧
      ∀ q data, .toDbService q data ∈ (ms.filterMap ofGtm : List (Packet P)) →
        data.cmd = kJudgeConflit := by
  cases hstep with
  | skip hv => exact ⟨[], by simp, by simp, by simp⟩
  | untyped _ _ _ _ hv => exact ⟨[], by simp, by simp [heldTokens], by simp⟩
  | register list hv =>
      refine ⟨_, rfl, ?_, ?_⟩
      · intro f _
        rw [filterMap_ofGtm_txidReply, List.filterMap_nil, List.countP_nil, Nat.zero_add]
        exact Nat.le_trans (heldTokens_register_le p x g list _ f) (Nat.le_add_right _ _)
      · rw [filterMap_ofGtm_txidReply]
        simp
  | unknown i v hv h =>
      refine ⟨[], by simp, ?_, by simp⟩
      intro f _
      have hcongr : heldTokens p x { g with table := g.table.touch i, crashed := true } =
          heldTokens p x g := heldTokens_congr (PtrMap.find_touch _ _ _)
      rw [hcongr]
      simp
  | count i v info hv h hn =>
      refine ⟨[], by simp, ?_, by simp⟩
      intro f hf
      rw [List.filterMap_nil, List.filterMap_nil, List.countP_nil, Nat.zero_add]
      by_cases hi : i = x
      · subst hi
        rw [heldTokens_some (PtrMap.find_insert_self _ _ _), heldTokens_some h, voteToken, hv]
        exact countP_vote p info v hf
      · have hcongr : heldTokens p x { g with table := g.table.insert i (info.vote v.1 v.2) } =
            heldTokens p x g := heldTokens_congr (PtrMap.find_insert_of_ne _ _ (Ne.symm hi))
        rw [hcongr]
        exact Nat.le_add_right _ _
  | close i v info hv h hn =>
      refine ⟨_, rfl, ?_, fun q data hm => cmd_of_mem_ofGtm rfl hm⟩
      intro f hf
      rw [filterMap_decision]
      by_cases hi : i = x
      · subst hi
        have hnone : heldTokens p i { g with
            table := g.table.erase i
            out := g.out ++ (info.vote v.1 v.2).connList.map fun conn =>
              (conn, Gtm.decision i (info.vote v.1 v.2).isConflict) } = [] := by
          simp [heldTokens]
        rw [hnone, if_pos rfl, heldTokens_some h, voteToken, hv, List.countP_nil, Nat.add_zero]
        exact countP_vote p info v hf
      · have hcongr : heldTokens p x { g with
            table := g.table.erase i
            out := g.out ++ (info.vote v.1 v.2).connList.map fun conn =>
              (conn, Gtm.decision i (info.vote v.1 v.2).isConflict) } = heldTokens p x g :=
          heldTokens_congr (PtrMap.find_erase_of_ne _ (Ne.symm hi))
        rw [hcongr, if_neg hi, List.countP_nil, Nat.zero_add]
        exact Nat.le_add_right _ _

/-- The GTM takes a step, having taken its vote from the net. -/
theorem fades_setGtm {p : P} {x : Int} {s : Sys A P C W} {a : Gtm.Arrival (A ⊕ P)}
    {g : Gtm (A ⊕ P)} (hstep : Gtm.Step a s.gtm g) {net : List (Packet P)}
    (hnet : ∀ f, (net.filterMap (packetToken p x)).countP f +
      (voteToken p x a).toList.countP f = (s.net.filterMap (packetToken p x)).countP f) :
    Fades p x s ({ s with net := net }.setGtm g) := by
  obtain ⟨ms, hout, hcount, -⟩ := gtm_step_tokens hstep p x
  have hnet' : ({ s with net := net }.setGtm g).net = net ++ ms.filterMap ofGtm := by
    rw [Sys.setGtm, hout, List.drop_left]
  intro f hf
  have hle := hcount f hf
  have hvote := hnet f
  rw [countP_tokens, countP_tokens, hnet', List.filterMap_append, List.countP_append]
  dsimp only [Sys.setGtm]
  omega

theorem Linked.setGtm {s : Sys A P C W} (h : Linked s) {a : Gtm.Arrival (A ⊕ P)}
    {g : Gtm (A ⊕ P)} (hstep : Gtm.Step a s.gtm g) : Linked (s.setGtm g) := by
  refine ⟨h.conn, ?_⟩
  intro q m hm hlsn
  obtain ⟨ms, hout, -, hcmd⟩ := gtm_step_tokens hstep q m.txid
  rw [Sys.setGtm, hout, List.drop_left] at hm
  rcases List.mem_append.1 hm with hm | hm
  · exact h.lsn q m hm hlsn
  · rw [hcmd q m hm] at hlsn
    exact absurd hlsn (by simp)

/-! ### Steps of a DBTL -/

/-- The DBTL of `q` goes to the state `d` and sends `ms` to its DbService. -/
theorem setDbtl_net {q : P} {s : Sys A P C W} {d : Dbtl P} {es : List (DbtlEvent P)}
    (hout : d.out = (s.dbtl q).out ++ es) {ms : List (P × DbtmMsg)} (hms : Dbtl.sends es = ms) :
    (s.setDbtl q d).net = s.net ++ ms.map ofDbtl := by
  rw [Sys.setDbtl, hout, List.drop_left, hms]

theorem fades_setDbtl {p q : P} {x : Int} {s : Sys A P C W} {d : Dbtl P}
    (es : List (DbtlEvent P)) (hout : d.out = (s.dbtl q).out ++ es) (ms : List (P × DbtmMsg))
    (hms : Dbtl.sends es = ms) {net : List (Packet P)} (hnet : net.Sublist s.net)
    (hto : ∀ v ∈ ms, v.1 = q)
    (hcount : q = p → ∀ f, Inherited f → (net.filterMap (packetToken p x)).countP f +
      ((ms.map ofDbtl).filterMap (packetToken p x)).countP f +
        (d.tasks.filterMap (taskToken x)).countP f ≤
          (s.net.filterMap (packetToken p x)).countP f +
            ((s.dbtl q).tasks.filterMap (taskToken x)).countP f) :
    Fades p x s ({ s with net := net }.setDbtl q d) := by
  intro f hf
  have hnet' : ({ s with net := net }.setDbtl q d).net = net ++ ms.map ofDbtl :=
    setDbtl_net (s := { s with net := net }) hout hms
  rw [countP_tokens, countP_tokens, hnet', List.filterMap_append, List.countP_append]
  by_cases hq : q = p
  · have hle := hcount hq f hf
    subst hq
    rw [setDbtl_dbtl_self]
    dsimp only [Sys.setDbtl]
    omega
  · have hnil : (ms.map ofDbtl).filterMap (packetToken p x) = [] := by
      rw [List.filterMap_map, List.filterMap_eq_nil_iff]
      intro v hv
      simp [ofDbtl, packetToken, hto v hv, hq]
    have hle := (hnet.filterMap (packetToken p x)).countP_le (p := f)
    rw [setDbtl_dbtl_of_ne _ (Ne.symm hq), hnil, List.countP_nil]
    dsimp only [Sys.setDbtl]
    omega

theorem Linked.setDbtl {q : P} {s : Sys A P C W} (h : Linked s) {d : Dbtl P}
    (es : List (DbtlEvent P)) (hout : d.out = (s.dbtl q).out ++ es) (ms : List (P × DbtmMsg))
    (hms : Dbtl.sends es = ms) (hlsn : ∀ v ∈ ms, v.2.lsn = 0) (hconn : ∀ t ∈ d.tasks, t.conn = q) :
    Linked (s.setDbtl q d) := by
  constructor
  · intro q' t ht
    by_cases hq : q' = q
    · subst hq
      rw [setDbtl_dbtl_self] at ht
      exact hconn t ht
    · rw [setDbtl_dbtl_of_ne _ hq] at ht
      exact h.conn q' t ht
  · intro q' m hm hcmd
    rw [setDbtl_net hout hms] at hm
    rcases List.mem_append.1 hm with hm | hm
    · exact h.lsn q' m hm hcmd
    · obtain ⟨v, hv, heq⟩ := List.mem_map.1 hm
      obtain ⟨-, rfl⟩ := Packet.toDbService.inj heq
      exact hlsn v hv

/-- A message to a DBTL: a log is queued, or a request for an lsn is answered. -/
theorem dbtlMsg_passes {p q : P} {x : Int} {s : Sys A P C W} (h : Linked s) {i : Nat}
    {m : DbtlMsg} (hnet : s.net[i]? = some (.toDbtl q m)) {d : Dbtl P}
    (hstep : Dbtl.MessageStep q (.dbtlMsg m) (s.dbtl q) d) :
    Linked ({ s with net := s.net.eraseIdx i }.setDbtl q d) ∧
      Fades p x s ({ s with net := s.net.eraseIdx i }.setDbtl q d) := by
  have hsub := List.eraseIdx_sublist s.net i
  have hlinked := h.sublist hsub
  have htake := Bag.countP_filterMap_eraseIdx (packetToken p x) hnet
  cases hstep with
  | skip =>
      refine ⟨hlinked.setDbtl [] (by simp) [] rfl (by simp) (h.conn q),
        fades_setDbtl [] (by simp) [] rfl hsub (by simp) ?_⟩
      intro _ f _
      have hf := htake f
      simp only [List.map_nil, List.filterMap_nil, List.countP_nil]
      omega
  | log data hmsg hcmd t htxid hconn hdata =>
      obtain rfl := RootMsg.dbtlMsg.inj hmsg
      refine ⟨hlinked.setDbtl [] (by simp) [] rfl (by simp) ?_,
        fades_setDbtl [] (by simp) [] rfl hsub (by simp) ?_⟩
      · intro t' ht'
        rcases List.mem_append.1 ht' with ht' | ht'
        · exact h.conn q t' ht'
        · rw [List.mem_singleton.1 ht', hconn]
      · intro hq f _
        have hf := htake f
        have hsame : packetToken p x (.toDbtl q m) = taskToken x t := by
          simp [packetToken, tokenOfDbtl, taskToken, hq, htxid, hcmd, hdata]
        rw [hsame] at hf
        have hadd : ((s.dbtl q).tasks ++ [t]).filterMap (taskToken x) =
            (s.dbtl q).tasks.filterMap (taskToken x) ++ (taskToken x t).toList := by
          cases ht : taskToken x t with
          | none => simp [ht]
          | some tok => simp [ht]
        simp only [List.map_nil, List.filterMap_nil, List.countP_nil]
        rw [hadd, List.countP_append]
        omega
  | lsn data hmsg hcmd b =>
      obtain rfl := RootMsg.dbtlMsg.inj hmsg
      have hms : Dbtl.sends [DbtlEvent.send q (createDbtmMsg kLsn m.txid b)] =
          [(q, createDbtmMsg kLsn m.txid b)] := rfl
      refine ⟨hlinked.setDbtl _ rfl _ hms (by simp [createDbtmMsg]) (h.conn q),
        fades_setDbtl _ rfl _ hms hsub (by simp) ?_⟩
      intro hq f _
      have hf := htake f
      have hsame : ([(q, createDbtmMsg kLsn m.txid b)].map ofDbtl).filterMap (packetToken p x) =
          (packetToken p x (.toDbtl q m)).toList := by
        by_cases hx : m.txid = x
        · simp [ofDbtl, packetToken, tokenOf, tokenOfDbtl, createDbtmMsg, hq, hx, hcmd]
        · simp [ofDbtl, packetToken, tokenOf, tokenOfDbtl, createDbtmMsg, hx]
      rw [hsame]
      dsimp only
      omega

/-- A log that is written becomes a result. -/
theorem dbtlTask_passes {p q : P} {x : Int} {s : Sys A P C W} (h : Linked s) {i : Nat}
    {d : Dbtl P} (hstep : Dbtl.TaskStep i (s.dbtl q) d) :
    Linked (s.setDbtl q d) ∧ Fades p x s (s.setDbtl q d) := by
  have hsub := List.Sublist.refl s.net
  cases hstep with
  | none _ =>
      refine ⟨h.setDbtl [] (by simp) [] rfl (by simp) (h.conn q),
        fades_setDbtl [] (by simp) [] rfl hsub (by simp) ?_⟩
      intro _ f _
      simp
  | stuck t ht s' es htasks hout hes =>
      refine ⟨h.setDbtl es hout _ hes (by simp) ?_, fades_setDbtl es hout _ hes hsub (by simp) ?_⟩
      · intro t' ht'
        rw [htasks] at ht'
        exact h.conn q t' (List.mem_of_mem_eraseIdx ht')
      · intro _ f _
        have hle := ((List.eraseIdx_sublist (s.dbtl q).tasks i).filterMap
          (taskToken x)).countP_le (p := f)
        rw [htasks, List.map_nil, List.filterMap_nil, List.countP_nil]
        omega
  | done t ht s' es htasks hout hes =>
      have hconn := h.conn q t (List.mem_of_getElem? ht)
      rw [hconn] at hes
      refine ⟨h.setDbtl es hout _ hes (by simp [createDbtmMsg]) ?_,
        fades_setDbtl es hout _ hes hsub (by simp) ?_⟩
      · intro t' ht'
        rw [htasks] at ht'
        exact h.conn q t' (List.mem_of_mem_eraseIdx ht')
      · intro hq f hf
        have hcount := Bag.countP_filterMap_eraseIdx (taskToken x) ht f
        rw [htasks, hcount]
        by_cases hx : t.txid = x
        · have hlog : taskToken x t = some (.log t.data) := if_pos hx
          have hres : ([(q, createDbtmMsg kTranSuccess t.txid)].map ofDbtl).filterMap
              (packetToken p x) = [.result] := by
            simp [ofDbtl, packetToken, tokenOf, createDbtmMsg, hq, hx]
          have hle : [Token.result].countP f ≤ [Token.log t.data].countP f := by
            by_cases hr : f .result = true
            · simp [hr, hf.result hr t.data]
            · simp [hr]
          rw [hres, hlog, Option.toList_some]
          omega
        · have hres : ([(q, createDbtmMsg kTranSuccess t.txid)].map ofDbtl).filterMap
              (packetToken p x) = [] := by
            simp [ofDbtl, packetToken, tokenOf, createDbtmMsg, hx]
          rw [hres, List.countP_nil]
          omega

/-! ### What the DbService of `p` sees -/

/-- A step of the system for the DbService of `p` and transaction `x`. -/
inductive View (ops : Wcheck W) (p : P) (x : Int) (s : Sys A P C W) (a : Act A P C)
    (s' : Sys A P C W) : Prop where
  | elsewhere (hdbs : s'.dbs p = s.dbs p) (hfades : Fades p x s s') : View ops p x s a s'
  | message (conn : C) (msg : RootMsg) (hlive : (s.dbs p).crashed = false)
      (hstep : MessageStep conn msg (s.dbs p) (s'.dbs p))
      (hcommit : (inputOf x msg).commits = if isCommit p x a then 1 else 0)
      (hzero : ∀ l, inputOf x msg = .lsn l → l = 0)
      (hcount : ∀ es, (s'.dbs p).out = (s.dbs p).out ++ es → ∀ f,
        (tokens p x s').countP f + (arriving x msg).toList.countP f =
          (tokens p x s).countP f + (sent x es).countP f) : View ops p x s a s'
  | task (i : Nat) (ha : a = .task p i) (hlive : (s.dbs p).crashed = false)
      (hstep : TaskStep ops i (s.dbs p) (s'.dbs p))
      (hcount : ∀ es, (s'.dbs p).out = (s.dbs p).out ++ es → ∀ f,
        (tokens p x s').countP f = (tokens p x s).countP f + (sent x es).countP f) :
      View ops p x s a s'

theorem commits_dbtmMsg (x : Int) (m : DbtmMsg) : (inputOf x (.dbtmMsg m)).commits = 0 := by
  cases h : inputOf x (.dbtmMsg m) with
  | commit => exact absurd h (inputOf_dbtmMsg_ne_commit x m)
  | _ => rfl

theorem commits_dbServiceMsg (p : P) (x : Int) (conn : C) (m : DbServiceMsg) :
    (inputOf x (.dbServiceMsg m)).commits =
      if isCommit p x (.entityService p conn m : Act A P C) then 1 else 0 := by
  by_cases hc : m.cmd = kCommit ∧ m.txid = x
  · simp [inputOf, isCommit, Input.commits, hc]
  · simp [inputOf, isCommit, Input.commits, hc]

theorem inputOf_dbServiceMsg_ne_lsn (x : Int) (m : DbServiceMsg) (l : Int) :
    inputOf x (.dbServiceMsg m) ≠ .lsn l := by
  by_cases hc : m.cmd = kCommit ∧ m.txid = x
  · simp [inputOf, hc]
  · simp [inputOf, hc]

/-- A message of the GTM or the DBTL reaches a DbService. -/
theorem view_dbtmMsg {ops : Wcheck W} {s : Sys A P C W} (h : Linked s) {i : Nat} {conn : C} {q : P}
    {m : DbtmMsg} (hnet : s.net[i]? = some (.toDbService q m)) {d : DbService C W}
    (hlive : (s.dbs q).crashed = false)
    (hstep : DbService.MessageStep conn (.dbtmMsg m) (s.dbs q) d) (p : P) (x : Int) :
    View ops p x s (.deliver i conn) ({ s with net := s.net.eraseIdx i }.setDbService q d) := by
  obtain ⟨es, hout⟩ := hstep.out_extends
  by_cases hq : q = p
  · subst hq
    refine .message conn (.dbtmMsg m) hlive (by rwa [setDbService_dbs_self])
      (commits_dbtmMsg x m) ?_ ?_
    · intro l hl
      obtain ⟨hcmd, hm⟩ := lsn_of_inputOf hl
      rw [← hm]
      exact h.lsn q m (List.mem_of_getElem? hnet) hcmd
    · intro es' hout' f
      rw [setDbService_dbs_self] at hout'
      have hset := countP_setDbService (s := { s with net := s.net.eraseIdx i }) q x hout' f
      have htake := Bag.countP_filterMap_eraseIdx (packetToken q x) hnet f
      have hsame : packetToken q x (.toDbService q m) = arriving x (.dbtmMsg m) := by
        simp [packetToken, arriving]
      rw [hsame] at htake
      rw [hset, countP_tokens, countP_tokens]
      dsimp only
      omega
  · refine .elsewhere (setDbService_dbs_of_ne _ (Ne.symm hq) _) ?_
    intro f hf
    have hset := fades_setDbService (s := { s with net := s.net.eraseIdx i }) hq x hout.symm
    exact Nat.le_trans (hset f hf) (fades_sublist (List.eraseIdx_sublist s.net i) f hf)

/-- Every step keeps the links and is one of the three. -/
theorem view_of_step {ops : Wcheck W} {s s' : Sys A P C W} {a : Act A P C} (h : Linked s)
    (hstep : Step ops s a s') (p : P) (x : Int) : Linked s' ∧ View ops p x s a s' := by
  cases hstep with
  | idle => exact ⟨h, .elsewhere rfl fun f _ => Nat.le_refl _⟩
  | lost i conn =>
      have hsub := List.eraseIdx_sublist s.net i
      exact ⟨h.sublist hsub, .elsewhere rfl (fades_sublist hsub)⟩
  | getTxid a transType g hlive hstep =>
      refine ⟨h.setGtm hstep, .elsewhere rfl (fades_setGtm hstep ?_)⟩
      intro f
      simp [voteToken, Gtm.voteOf, createGtmMsg]
  | gtmMsg i conn q m hnet g hlive hstep =>
      have hsub := List.eraseIdx_sublist s.net i
      refine ⟨(h.sublist hsub).setGtm hstep, .elsewhere rfl (fades_setGtm hstep ?_)⟩
      intro f
      rw [voteToken_toGtm]
      exact (Bag.countP_filterMap_eraseIdx (packetToken p x) hnet f).symm
  | entityService q conn m d hlive hstep =>
      obtain ⟨es, hout⟩ := hstep.out_extends
      refine ⟨h.setDbService hout.symm, ?_⟩
      by_cases hq : q = p
      · subst hq
        refine .message conn (.dbServiceMsg m) hlive (by rwa [setDbService_dbs_self])
          (commits_dbServiceMsg q x conn m)
          (fun l hl => absurd hl (inputOf_dbServiceMsg_ne_lsn x m l)) ?_
        intro es' hout' f
        rw [setDbService_dbs_self] at hout'
        exact countP_setDbService q x hout' f
      · exact .elsewhere (setDbService_dbs_of_ne _ (Ne.symm hq) _)
          (fades_setDbService hq x hout.symm)
  | dbtmMsg i conn q m hnet d hlive hstep =>
      obtain ⟨es, hout⟩ := hstep.out_extends
      exact ⟨(h.sublist (List.eraseIdx_sublist s.net i)).setDbService hout.symm,
        view_dbtmMsg h hnet hlive hstep p x⟩
  | task q i d hlive hstep =>
      obtain ⟨es, hout⟩ := hstep.out_extends
      refine ⟨h.setDbService hout.symm, ?_⟩
      by_cases hq : q = p
      · subst hq
        refine .task i rfl hlive (by rwa [setDbService_dbs_self]) ?_
        intro es' hout' f
        rw [setDbService_dbs_self] at hout'
        exact countP_setDbService q x hout' f
      · exact .elsewhere (setDbService_dbs_of_ne _ (Ne.symm hq) _)
          (fades_setDbService hq x hout.symm)
  | dbtlMsg i conn q m hnet d hstep =>
      obtain ⟨hlinked, hfades⟩ := dbtlMsg_passes (p := p) (x := x) h hnet hstep
      exact ⟨hlinked, .elsewhere rfl hfades⟩
  | dbtlTask q i d hstep =>
      obtain ⟨hlinked, hfades⟩ := dbtlTask_passes (p := p) (x := x) h hstep
      exact ⟨hlinked, .elsewhere rfl hfades⟩

/-! ### Logs on their way -/

/-- A DBTL sends no logs. -/
theorem countP_isLog_ofDbtl (p : P) (x : Int) (ms : List (P × DbtmMsg)) :
    ((ms.map ofDbtl).filterMap (packetToken p x)).countP isLog = 0 := by
  rw [List.countP_eq_zero]
  intro tok htok
  obtain ⟨packet, hpacket, hsome⟩ := List.mem_filterMap.1 htok
  obtain ⟨v, -, rfl⟩ := List.mem_map.1 hpacket
  obtain ⟨-, htoken⟩ := Option.ite_none_right_eq_some.1 hsome
  simp [isLog_of_tokenOf htoken]

/-- A log of `x` that is on its way to be written has been sent; each is written once. -/
theorem step_logs {ops : Wcheck W} {s s' : Sys A P C W} {a : Act A P C} (h : Linked s)
    (hstep : Step ops s a s') (p : P) (x : Int) :
    ∃ sent, logs x (s'.dbs p).out = logs x (s.dbs p).out ++ sent ∧
      (tokens p x s').countP isLog ≤ (tokens p x s).countP isLog + sent.length := by
  obtain ⟨-, hview⟩ := view_of_step h hstep p x
  cases hview with
  | elsewhere hdbs hfades =>
      exact ⟨[], by rw [hdbs, List.append_nil], hfades _ inherited_isLog⟩
  | message conn msg hlive hmsg hcommit hzero hcount =>
      obtain ⟨es, hout⟩ := hmsg.out_extends
      have hle := hcount es hout.symm isLog
      rw [countP_isLog_sent] at hle
      exact ⟨logs x es, by rw [← hout, logs_append], by omega⟩
  | task i ha hlive htask hcount =>
      obtain ⟨es, hout⟩ := htask.out_extends
      have heq := hcount es hout.symm isLog
      rw [countP_isLog_sent] at heq
      exact ⟨logs x es, by rw [← hout, logs_append], Nat.le_of_eq heq⟩

/-- A task of a DBTL takes its log from the tokens. -/
theorem countP_isLog_runTask {p : P} {s : Sys A P C W} {i : Nat} {t : DbtlTask P}
    (ht : (s.dbtl p).tasks[i]? = some t) (x : Int) :
    (tokens p x (s.setDbtl p ((s.dbtl p).runTask i))).countP isLog + (if t.txid = x then 1 else 0) =
      (tokens p x s).countP isLog := by
  have htasks : ((s.dbtl p).runTask i).tasks = (s.dbtl p).tasks.eraseIdx i := by
    have hstep := Dbtl.runTask_step i (s.dbtl p)
    generalize (s.dbtl p).runTask i = d at hstep
    cases hstep with
    | none h => simp [ht] at h
    | stuck _ _ _ _ htasks _ _ => exact htasks
    | done _ _ _ _ htasks _ _ => exact htasks
  have htake := Bag.countP_filterMap_eraseIdx (taskToken x) ht isLog
  have hone : (taskToken x t).toList.countP isLog = if t.txid = x then 1 else 0 := by
    by_cases hx : t.txid = x
    · simp [taskToken, hx, isLog]
    · simp [taskToken, hx]
  rw [countP_tokens, countP_tokens, setDbtl_dbtl_self, htasks]
  dsimp only [Sys.setDbtl]
  rw [List.filterMap_append, List.countP_append, countP_isLog_ofDbtl]
  omega

omit [DecidableEq P] in
theorem linked_init (transInfo : String → List IpAndPort) (txid : BitVec 32) (w : P → W)
    (useRocksDb : P → Bool) : Linked (init transInfo txid w useRocksDb : Sys A P C W) := by
  constructor
  · intro q t ht
    simp [init, Dbtl.init] at ht
  · intro q m hm
    simp [init] at hm

end Sys

end Grit
