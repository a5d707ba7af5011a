import Grit.DbService.Owed
import Grit.Dbtl.Storage
import Grit.System.Tokens

/-!
# Runs in which no process ends

While every process is alive, no message is lost: a token of a transaction is passed on by the
GTM and the DBTLs and taken over by the DbService that it is for. `LiveStep` lists the steps of
such a system exactly, and `LiveView` says what a step is for one participant, as `View` does
for any system, but with the tokens counted from below.
-/

namespace Grit

open Cmd DbService Token

/-- A property that a token keeps while it is passed on. -/
structure Token.Lasting (f : Token → Bool) : Prop where
  verdict : ∀ b c, f (.verdict b) = f (.verdict c)
  result : ∀ data, f (.log data) = true → f .result = true

theorem Token.lasting_isWork : Lasting isWork := ⟨fun _ _ => rfl, fun _ _ => rfl⟩

theorem Token.lasting_lsn : Lasting fun tok => tok = .lsn :=
  ⟨fun _ _ => by simp, fun _ h => absurd h (by simp)⟩

namespace DbService

variable {C W : Type*}

theorem act_message_of_live (ops : Wcheck W) {d : DbService C W} (h : d.crashed = false)
    (conn : C) (msg : RootMsg) : d.act ops (.message conn msg) = d.onMessage conn msg := by
  simp [act, andThen, h]

theorem act_task_of_live (ops : Wcheck W) {d : DbService C W} (h : d.crashed = false) (i : Nat) :
    d.act ops (.task i) = d.runTask ops i := by
  simp [act, andThen, h]

end DbService

namespace Sys

variable {A P C W : Type*}

/-- No process has ended. -/
structure Live (s : Sys A P C W) : Prop where
  gtm : s.gtm.crashed = false
  dbs : ∀ p, (s.dbs p).crashed = false
  dbtl : ∀ p, (s.dbtl p).crashed = false

variable [DecidableEq P]

/-! ### Steps of a live system -/

/-- The outcomes of a step while every process is alive. -/
inductive LiveStep (ops : Wcheck W) (s : Sys A P C W) : Act A P C → Sys A P C W → Prop where
  | absent (i : Nat) (conn : C) (hnet : s.net[i]? = none) : LiveStep ops s (.deliver i conn) s
  | getTxid (a : A) (transType : String) (g : Gtm (A ⊕ P))
      (hstep : Gtm.Step
        ⟨.inl a, .gtmMsg (createGtmMsg kGetTxid 0 false (some transType))⟩ s.gtm g) :
      LiveStep ops s (.getTxid a transType) (s.setGtm g)
  | gtmMsg (i : Nat) (conn : C) (p : P) (m : GtmMsg) (hnet : s.net[i]? = some (.toGtm p m))
      (g : Gtm (A ⊕ P)) (hstep : Gtm.Step ⟨.inr p, .gtmMsg m⟩ s.gtm g) :
      LiveStep ops s (.deliver i conn) ({ s with net := s.net.eraseIdx i }.setGtm g)
  | entityService (p : P) (conn : C) (m : DbServiceMsg) (d : DbService C W)
      (hstep : MessageStep conn (.dbServiceMsg m) (s.dbs p) d) :
      LiveStep ops s (.entityService p conn m) (s.setDbService p d)
  | dbtmMsg (i : Nat) (conn : C) (p : P) (m : DbtmMsg)
      (hnet : s.net[i]? = some (.toDbService p m)) (d : DbService C W)
      (hstep : MessageStep conn (.dbtmMsg m) (s.dbs p) d) :
      LiveStep ops s (.deliver i conn) ({ s with net := s.net.eraseIdx i }.setDbService p d)
  | task (p : P) (i : Nat) :
      LiveStep ops s (.task p i) (s.setDbService p ((s.dbs p).runTask ops i))
  | dbtlMsg (i : Nat) (conn : C) (p : P) (m : DbtlMsg) (hnet : s.net[i]? = some (.toDbtl p m)) :
      LiveStep ops s (.deliver i conn)
        ({ s with net := s.net.eraseIdx i }.setDbtl p ((s.dbtl p).onMessage p (.dbtlMsg m)))
  | dbtlTask (p : P) (i : Nat) :
      LiveStep ops s (.dbtlTask p i) (s.setDbtl p ((s.dbtl p).runTask i))

theorem Live.step {s : Sys A P C W} (h : Live s) (ops : Wcheck W) (a : Act A P C) :
    LiveStep ops s a (s.step ops a) := by
  cases a with
  | getTxid a transType => exact .getTxid a transType _ (Gtm.receive_step h.gtm _)
  | entityService p conn m =>
      dsimp only [Sys.step]
      rw [act_message_of_live ops (h.dbs p)]
      exact .entityService p conn m _ (onMessage_step conn _ (h.dbs p))
  | deliver i conn =>
      dsimp only [Sys.step]
      cases hnet : s.net[i]? with
      | none => exact .absent i conn hnet
      | some packet =>
          cases packet with
          | toGtm p m => exact .gtmMsg i conn p m hnet _ (Gtm.receive_step h.gtm _)
          | toDbService p m =>
              dsimp only [receive]
              rw [act_message_of_live ops (h.dbs p)]
              exact .dbtmMsg i conn p m hnet _ (onMessage_step conn _ (h.dbs p))
          | toDbtl p m =>
              dsimp only [receive]
              rw [if_neg (by simp [h.dbtl p])]
              exact .dbtlMsg i conn p m hnet
  | task p i =>
      dsimp only [Sys.step]
      rw [act_task_of_live ops (h.dbs p)]
      exact .task p i
  | dbtlTask p i =>
      dsimp only [Sys.step]
      rw [if_neg (by simp [h.dbtl p])]
      exact .dbtlTask p i

/-! ### A process that has ended stays so -/

omit [DecidableEq P] in
theorem live_of_receive {g : Gtm (A ⊕ P)} {a : Gtm.Arrival (A ⊕ P)}
    (h : (g.receive a).crashed = false) : g.crashed = false := by
  by_contra hc
  rw [Gtm.receive, if_pos (by simpa using hc)] at h
  exact hc h

theorem live_of_setDbService {ops : Wcheck W} {s s₀ : Sys A P C W} (hs₀ : s₀.dbs = s.dbs) {q : P}
    {a : DbService.Act C}
    (h : ∀ p, ((s₀.setDbService q ((s.dbs q).act ops a)).dbs p).crashed = false) (p : P) :
    (s.dbs p).crashed = false := by
  have hp := h p
  by_cases hpq : p = q
  · subst hpq
    rw [setDbService_dbs_self] at hp
    exact live_of_act hp
  · rwa [setDbService_dbs_of_ne _ hpq, hs₀] at hp

theorem live_of_setDbtl {s s₀ : Sys A P C W} (hs₀ : s₀.dbtl = s.dbtl) {q : P} {d : Dbtl P}
    (hq : (s.dbtl q).crashed = false) (h : ∀ p, ((s₀.setDbtl q d).dbtl p).crashed = false)
    (p : P) : (s.dbtl p).crashed = false := by
  have hp := h p
  by_cases hpq : p = q
  · rwa [hpq]
  · rwa [setDbtl_dbtl_of_ne _ hpq, hs₀] at hp

theorem Live.of_step {ops : Wcheck W} {s : Sys A P C W} {a : Act A P C}
    (h : Live (s.step ops a)) : Live s := by
  cases a with
  | getTxid a transType => exact ⟨live_of_receive h.gtm, h.dbs, h.dbtl⟩
  | entityService p conn m => exact ⟨h.gtm, live_of_setDbService rfl h.dbs, h.dbtl⟩
  | deliver i conn =>
      dsimp only [Sys.step] at h
      split at h
      · exact h
      · rename_i packet hnet
        cases packet with
        | toGtm p m => exact ⟨live_of_receive h.gtm, h.dbs, h.dbtl⟩
        | toDbService p m => exact ⟨h.gtm, live_of_setDbService rfl h.dbs, h.dbtl⟩
        | toDbtl p m =>
            dsimp only [receive] at h
            split at h
            · exact ⟨h.gtm, h.dbs, h.dbtl⟩
            · rename_i hc
              exact ⟨h.gtm, h.dbs, live_of_setDbtl rfl (by simpa using hc) h.dbtl⟩
  | task p i => exact ⟨h.gtm, live_of_setDbService rfl h.dbs, h.dbtl⟩
  | dbtlTask p i =>
      dsimp only [Sys.step] at h
      split at h
      · exact h
      · rename_i hc
        exact ⟨h.gtm, h.dbs, live_of_setDbtl rfl (by simpa using hc) h.dbtl⟩

theorem Live.of_append {ops : Wcheck W} {s : Sys A P C W} {l l' : List (Act A P C)}
    (h : Live (run ops s (l ++ l'))) : Live (run ops s l) := by
  induction l' using List.reverseRecOn with
  | nil => rwa [List.append_nil] at h
  | append_singleton l' a ih =>
      rw [← List.append_assoc, run_concat] at h
      exact ih h.of_step

/-! ### Tokens are passed on -/

/-- No token is lost. -/
def Retains (p : P) (x : Int) (s s' : Sys A P C W) : Prop :=
  ∀ f, Lasting f → (tokens p x s).countP f ≤ (tokens p x s').countP f

/-- A step of a DbService that takes nothing from the net that concerns `p`. -/
theorem retains_setDbService {p : P} {x : Int} (q : P) {s : Sys A P C W} (s₀ : Sys A P C W)
    (d : DbService C W) (hgtm : s₀.gtm = s.gtm) (hdbtl : s₀.dbtl = s.dbtl)
    (hnet : ∀ f, (s₀.net.filterMap (packetToken p x)).countP f =
      (s.net.filterMap (packetToken p x)).countP f) :
    Retains p x s (s₀.setDbService q d) := by
  intro f _
  rw [countP_tokens, countP_tokens, ← hnet f]
  dsimp only [setDbService]
  rw [List.filterMap_append, List.countP_append, hgtm, hdbtl]
  omega

/-- A vote joins the ones that are held. -/
theorem countP_vote_of_lasting (p : P) (info : TxidInfo (A ⊕ P)) (v : (A ⊕ P) × Bool)
    {f : Token → Bool} (hf : Lasting f) :
    (List.replicate ((info.vote v.1 v.2).connList.countP (isFrom p))
        (Token.verdict (info.vote v.1 v.2).isConflict)).countP f =
      (List.replicate (info.connList.countP (isFrom p)) (Token.verdict info.isConflict)).countP f +
        (if isFrom p v.1 then some (Token.verdict v.2) else none).toList.countP f := by
  have hsame : ∀ b, f (.verdict b) = f (.verdict false) := fun b => hf.verdict b false
  by_cases hp : isFrom p v.1 = true
  · by_cases hfv : f (.verdict false) = true
    · simp [TxidInfo.vote, List.countP_replicate, hsame, hp, hfv]
    · simp [TxidInfo.vote, List.countP_replicate, hsame, hp, hfv]
  · simp [TxidInfo.vote, List.countP_replicate, hsame, hp]

/-- What the GTM takes, it holds or sends on, unless it ends. -/
theorem gtm_step_retains {first : BitVec 32} {a : Gtm.Arrival (A ⊕ P)} {g g' : Gtm (A ⊕ P)}
    (hnumbered : Gtm.Numbered first g) (hstep : Gtm.Step a g g') (hlive : g'.crashed = false)
    (hids : g'.issued < 4294967296) (p : P) (x : Int) :
    ∃ ms, g'.out = g.out ++ ms ∧ ∀ f, Lasting f →
      (heldTokens p x g).countP f + (voteToken p x a).toList.countP f ≤
        ((ms.filterMap ofGtm).filterMap (packetToken p x)).countP f +
          (heldTokens p x g').countP f := by
  have hmore := Nat.lt_of_le_of_lt hstep.issued_le hids
  have hnone : (∀ i, Gtm.voteOf i a = none) → voteToken p x a = none := by
    intro hv
    rw [voteToken, hv x]
    rfl
  have hother : ∀ {i : Int} {v}, Gtm.voteOf i a = some v → i ≠ x → voteToken p x a = none := by
    intro i v hv hi
    rw [voteToken, Gtm.voteOf_of_ne hv (Ne.symm hi)]
    rfl
  cases hstep with
  | skip hv => exact ⟨[], by simp, by simp [hnone hv]⟩
  | untyped _ _ _ _ hv => simp at hlive
  | register list hv =>
      refine ⟨_, rfl, ?_⟩
      intro f _
      rw [hnone hv, Option.toList_none, List.countP_nil, Nat.add_zero]
      refine Nat.le_add_left_of_le ?_
      by_cases hx : x = g.txid.toInt
      · rw [heldTokens, hx, hnumbered.find_txid hmore]
        exact Nat.zero_le _
      · refine Nat.le_of_eq (congrArg _ (heldTokens_congr ?_).symm)
        dsimp only
        split
        · exact PtrMap.find_insert_of_ne _ _ hx
        · rfl
  | unknown i v hv h => simp at hlive
  | count i v info hv h hn =>
      refine ⟨[], by simp, ?_⟩
      intro f hf
      rw [List.filterMap_nil, List.filterMap_nil, List.countP_nil, Nat.zero_add]
      by_cases hi : i = x
      · subst hi
        rw [heldTokens_some h, heldTokens_some (PtrMap.find_insert_self _ _ _), voteToken, hv]
        exact (countP_vote_of_lasting p info v hf).ge
      · have hcongr : heldTokens p x { g with table := g.table.insert i (info.vote v.1 v.2) } =
            heldTokens p x g := heldTokens_congr (PtrMap.find_insert_of_ne _ _ (Ne.symm hi))
        rw [hcongr, hother hv hi]
        exact Nat.le_refl _
  | close i v info hv h hn =>
      refine ⟨_, rfl, ?_⟩
      intro f hf
      rw [filterMap_decision]
      by_cases hi : i = x
      · subst hi
        rw [if_pos rfl, heldTokens_some h, voteToken, hv]
        exact Nat.le_add_right_of_le (countP_vote_of_lasting p info v hf).ge
      · have hcongr : heldTokens p x { g with
            table := g.table.erase i
            out := g.out ++ (info.vote v.1 v.2).connList.map fun conn =>
              (conn, Gtm.decision i (info.vote v.1 v.2).isConflict) } = heldTokens p x g :=
          heldTokens_congr (PtrMap.find_erase_of_ne _ (Ne.symm hi))
        rw [hcongr, hother hv hi, if_neg hi, List.countP_nil, Nat.zero_add]
        exact Nat.le_refl _

theorem retains_setGtm {first : BitVec 32} {p : P} {x : Int} {s : Sys A P C W}
    {a : Gtm.Arrival (A ⊕ P)} {g : Gtm (A ⊕ P)} (hnumbered : Gtm.Numbered first s.gtm)
    (hstep : Gtm.Step a s.gtm g) (hlive : g.crashed = false) (hids : g.issued < 4294967296)
    {net : List (Packet P)}
    (hnet : ∀ f, (net.filterMap (packetToken p x)).countP f +
      (voteToken p x a).toList.countP f = (s.net.filterMap (packetToken p x)).countP f) :
    Retains p x s ({ s with net := net }.setGtm g) := by
  obtain ⟨ms, hout, hcount⟩ := gtm_step_retains hnumbered hstep hlive hids p x
  have hnet' : ({ s with net := net }.setGtm g).net = net ++ ms.filterMap ofGtm := by
    rw [Sys.setGtm, hout, List.drop_left]
  intro f hf
  have hle := hcount f hf
  have hvote := hnet f
  rw [countP_tokens, countP_tokens, hnet', List.filterMap_append, List.countP_append]
  dsimp only [Sys.setGtm]
  omega

end Sys

namespace Dbtl

variable {C : Type*}

/-- What `onMessage` does with each command. -/
theorem onMessage_cases (conn : C) (m : DbtlMsg) (s : Dbtl C) :
    (m.cmd = kLog ∧ ∃ t : DbtlTask C, t.txid = m.txid ∧ t.data = m.data ∧
        s.onMessage conn (.dbtlMsg m) = { s with tasks := s.tasks ++ [t] }) ∨
      (m.cmd = kLsn ∧ ∃ b, s.onMessage conn (.dbtlMsg m) = { s with
        applyLsn := s.applyLsn + 1
        out := s.out ++ [.send conn (createDbtmMsg kLsn m.txid b)] }) ∨
      m.cmd ≠ kLog ∧ m.cmd ≠ kLsn ∧ s.onMessage conn (.dbtlMsg m) = s := by
  unfold onMessage
  dsimp only
  split
  · rename_i hcmd
    refine Or.inl ⟨hcmd, ?_⟩
    rw [solve, hcmd]
    dsimp only
    split
    · exact ⟨_, rfl, rfl, rfl⟩
    · exact ⟨_, rfl, rfl, rfl⟩
  · rename_i hcmd
    refine Or.inr (Or.inl ⟨hcmd, ?_⟩)
    rw [solve, hcmd]
    dsimp only [retResult, emit]
    split
    · exact ⟨false, rfl⟩
    · exact ⟨_, rfl⟩
  · rename_i hlog hlsn
    exact Or.inr (Or.inr ⟨hlog, hlsn, rfl⟩)

theorem eq_logTask (t : DbtlTask C) :
    ∃ useRocksDb, t = logTask useRocksDb t.txid t.data t.conn := by
  cases t with
  | writeToDisk txid data conn => exact ⟨false, rfl⟩
  | writeToDiskByRocksDb txid data conn => exact ⟨true, rfl⟩

/-- A log after which the process is alive has been reported as a success. -/
theorem runTask_done {i : Nat} {t : DbtlTask C} {s : Dbtl C} (ht : s.tasks[i]? = some t)
    (hs : s.crashed = false) (hlive : (s.runTask i).crashed = false) :
    (s.runTask i).tasks = s.tasks.eraseIdx i ∧ ∃ es, (s.runTask i).out = s.out ++ es ∧
      sends es = [(t.conn, createDbtmMsg kTranSuccess t.txid)] := by
  obtain ⟨useRocksDb, htask⟩ := eq_logTask t
  have hrun : s.runTask i = { s with tasks := s.tasks.eraseIdx i }.exec
      (logTask useRocksDb t.txid t.data t.conn) := by
    rw [runTask, ht, ← htask]
  cases hdata : decodeLogs t.data with
  | none =>
      have hcrash := (exec_logTask_of_none useRocksDb t.txid hdata t.conn
        { s with tasks := s.tasks.eraseIdx i }).1
      rw [← hrun, hlive] at hcrash
      exact absurd hcrash (by simp)
  | some logs =>
      have hexec := exec_logTask_of_some useRocksDb t.txid hdata t.conn
        (s := { s with tasks := s.tasks.eraseIdx i }) hs
      rw [hrun, hexec]
      exact ⟨rfl, _, rfl, sends_logEvents useRocksDb t.txid logs t.conn⟩

end Dbtl

namespace Sys

variable {A P C W : Type*} [DecidableEq P]

/-- The DBTL of `q` goes to the state `d` and sends `ms` to its DbService. -/
theorem retains_setDbtl {p q : P} {x : Int} {s : Sys A P C W} {d : Dbtl P}
    (net : List (Packet P)) (es : List (DbtlEvent P)) (hout : d.out = (s.dbtl q).out ++ es)
    (hother : q ≠ p → ∀ f, (s.net.filterMap (packetToken p x)).countP f ≤
      (net.filterMap (packetToken p x)).countP f)
    (hcount : q = p → ∀ f, Lasting f → (s.net.filterMap (packetToken p x)).countP f +
        ((s.dbtl q).tasks.filterMap (taskToken x)).countP f ≤
      (net.filterMap (packetToken p x)).countP f +
        (((Dbtl.sends es).map ofDbtl).filterMap (packetToken p x)).countP f +
          (d.tasks.filterMap (taskToken x)).countP f) :
    Retains p x s ({ s with net := net }.setDbtl q d) := by
  intro f hf
  have hnet : ({ s with net := net }.setDbtl q d).net = net ++ (Dbtl.sends es).map ofDbtl :=
    setDbtl_net (s := { s with net := net }) hout rfl
  rw [countP_tokens, countP_tokens, hnet, List.filterMap_append, List.countP_append]
  by_cases hq : q = p
  · have hle := hcount hq f hf
    subst hq
    rw [setDbtl_dbtl_self]
    dsimp only [Sys.setDbtl]
    omega
  · have hle := hother hq f
    rw [setDbtl_dbtl_of_ne _ (Ne.symm hq)]
    dsimp only [Sys.setDbtl]
    omega

/-- A message to a DBTL: a log is queued, and a request for an lsn is answered. -/
theorem retains_dbtlMsg {p q : P} {x : Int} {s : Sys A P C W} {i : Nat} {m : DbtlMsg}
    (hnet : s.net[i]? = some (.toDbtl q m)) :
    Retains p x s
      ({ s with net := s.net.eraseIdx i }.setDbtl q ((s.dbtl q).onMessage q (.dbtlMsg m))) := by
  have htake := Bag.countP_filterMap_eraseIdx (packetToken p x) hnet
  have hother : q ≠ p → ∀ f, (s.net.filterMap (packetToken p x)).countP f ≤
      ((s.net.eraseIdx i).filterMap (packetToken p x)).countP f := by
    intro hq f
    have hnone : packetToken p x (.toDbtl q m) = none := by simp [packetToken, hq]
    have hf := htake f
    rw [hnone] at hf
    exact hf.le
  rcases Dbtl.onMessage_cases q m (s.dbtl q) with ⟨hcmd, t, htxid, hdata, heq⟩ |
    ⟨hcmd, b, heq⟩ | ⟨hlog, hlsn, heq⟩
  · rw [heq]
    refine retains_setDbtl _ [] (by simp) hother ?_
    intro hq f _
    have hsame : packetToken p x (.toDbtl q m) = taskToken x t := by
      simp [packetToken, tokenOfDbtl, taskToken, hq, htxid, hcmd, hdata]
    have hadd : ((s.dbtl q).tasks ++ [t]).filterMap (taskToken x) =
        (s.dbtl q).tasks.filterMap (taskToken x) ++ (taskToken x t).toList := by
      cases ht : taskToken x t with
      | none => simp [ht]
      | some tok => simp [ht]
    have hf := htake f
    rw [hsame] at hf
    rw [hadd, List.countP_append]
    omega
  · rw [heq]
    refine retains_setDbtl _ _ rfl hother ?_
    intro hq f _
    have hsame : ((Dbtl.sends [DbtlEvent.send q (createDbtmMsg kLsn m.txid b)]).map
        ofDbtl).filterMap (packetToken p x) = (packetToken p x (.toDbtl q m)).toList := by
      by_cases hx : m.txid = x
      · simp [Dbtl.sends, ofDbtl, packetToken, tokenOf, tokenOfDbtl, createDbtmMsg, hq, hx, hcmd]
      · simp [Dbtl.sends, ofDbtl, packetToken, tokenOf, tokenOfDbtl, createDbtmMsg, hx]
    have hf := htake f
    rw [hsame]
    dsimp only
    omega
  · rw [heq]
    refine retains_setDbtl _ [] (by simp) hother ?_
    intro hq f _
    have hnone : packetToken p x (.toDbtl q m) = none := by
      by_cases hx : m.txid = x
      · cases hcmd : m.cmd with
        | kLog => exact absurd hcmd hlog
        | kLsn => exact absurd hcmd hlsn
        | _ => simp [packetToken, tokenOfDbtl, hq, hx, hcmd]
      · simp [packetToken, tokenOfDbtl, hx]
    have hf := htake f
    rw [hnone, Option.toList_none, List.countP_nil] at hf
    omega

/-- A log that is written becomes a result. -/
theorem retains_dbtlTask {p q : P} {x : Int} {s : Sys A P C W} (h : Linked s) {i : Nat}
    (hs : (s.dbtl q).crashed = false) (hlive : ((s.dbtl q).runTask i).crashed = false) :
    Retains p x s (s.setDbtl q ((s.dbtl q).runTask i)) := by
  cases ht : (s.dbtl q).tasks[i]? with
  | none =>
      have hrun : (s.dbtl q).runTask i = s.dbtl q := by rw [Dbtl.runTask, ht]
      rw [hrun]
      exact retains_setDbtl s.net [] (by simp) (fun _ _ => Nat.le_refl _)
        fun _ _ _ => by simp
  | some t =>
      obtain ⟨htasks, es, hout, hes⟩ := Dbtl.runTask_done ht hs hlive
      refine retains_setDbtl s.net es hout (fun _ _ => Nat.le_refl _) ?_
      intro hq f hf
      have hconn := h.conn q t (List.mem_of_getElem? ht)
      have hcount := Bag.countP_filterMap_eraseIdx (taskToken x) ht f
      rw [hes, hconn, htasks, hcount]
      by_cases hx : t.txid = x
      · have hlog : taskToken x t = some (.log t.data) := if_pos hx
        have hres : ([(q, createDbtmMsg kTranSuccess t.txid)].map ofDbtl).filterMap
            (packetToken p x) = [.result] := by
          simp [ofDbtl, packetToken, tokenOf, createDbtmMsg, hq, hx]
        have hle : [Token.log t.data].countP f ≤ [Token.result].countP f := by
          by_cases hl : f (.log t.data) = true
          · simp [hl, hf.result t.data hl]
          · simp [hl]
        rw [hres, hlog, Option.toList_some]
        omega
      · have hnone : taskToken x t = none := if_neg hx
        rw [hnone, Option.toList_none, List.countP_nil]
        omega

/-! ### What the DbService of `p` sees -/

/-- What holds in every run in which no process has ended. -/
structure Orderly (first : BitVec 32) (s : Sys A P C W) : Prop where
  linked : Linked s
  wellFormed : ∀ p, WellFormed (s.dbs p)
  numbered : Gtm.Numbered first s.gtm

/-- A step of a live system for the DbService of `p` and transaction `x`. -/
inductive LiveView (ops : Wcheck W) (p : P) (x : Int) (s s' : Sys A P C W) : Prop where
  | elsewhere (hdbs : s'.dbs p = s.dbs p) (hretains : Retains p x s s') : LiveView ops p x s s'
  | message (conn : C) (msg : RootMsg) (hstep : MessageStep conn msg (s.dbs p) (s'.dbs p))
      (hcount : ∀ es, (s'.dbs p).out = (s.dbs p).out ++ es → ∀ f,
        (tokens p x s').countP f + (arriving x msg).toList.countP f =
          (tokens p x s).countP f + (sent x es).countP f) : LiveView ops p x s s'
  | task (i : Nat) (hdbs : s'.dbs p = (s.dbs p).runTask ops i)
      (hcount : ∀ es, (s'.dbs p).out = (s.dbs p).out ++ es → ∀ f,
        (tokens p x s').countP f = (tokens p x s).countP f + (sent x es).countP f) :
      LiveView ops p x s s'

theorem LiveStep.view {ops : Wcheck W} {first : BitVec 32} {s s' : Sys A P C W} {a : Act A P C}
    (h : Orderly first s) (hlive : Live s) (hstep : LiveStep ops s a s') (hlive' : Live s')
    (hids : s'.gtm.issued < 4294967296) (p : P) (x : Int) : LiveView ops p x s s' := by
  cases hstep with
  | absent => exact .elsewhere rfl fun f _ => Nat.le_refl _
  | getTxid a transType g hgtm =>
      refine .elsewhere rfl (retains_setGtm h.numbered hgtm hlive'.gtm hids ?_)
      intro f
      simp [voteToken, Gtm.voteOf, createGtmMsg]
  | gtmMsg i conn q m hnet g hgtm =>
      refine .elsewhere rfl (retains_setGtm h.numbered hgtm hlive'.gtm hids ?_)
      intro f
      rw [voteToken_toGtm]
      exact (Bag.countP_filterMap_eraseIdx (packetToken p x) hnet f).symm
  | entityService q conn m d hmsg =>
      by_cases hq : q = p
      · subst hq
        refine .message conn (.dbServiceMsg m) (by rwa [setDbService_dbs_self]) ?_
        intro es hout f
        rw [setDbService_dbs_self] at hout
        exact countP_setDbService q x hout f
      · exact .elsewhere (setDbService_dbs_of_ne _ (Ne.symm hq) _)
          (retains_setDbService q s d rfl rfl fun _ => rfl)
  | dbtmMsg i conn q m hnet d hmsg =>
      have htake := Bag.countP_filterMap_eraseIdx (packetToken p x) hnet
      by_cases hq : q = p
      · subst hq
        refine .message conn (.dbtmMsg m) (by rwa [setDbService_dbs_self]) ?_
        intro es hout f
        rw [setDbService_dbs_self] at hout
        have hset := countP_setDbService (s := { s with net := s.net.eraseIdx i }) q x hout f
        have hf := htake f
        have hsame : packetToken q x (.toDbService q m) = arriving x (.dbtmMsg m) := by
          simp [packetToken, arriving]
        rw [hsame] at hf
        rw [hset, countP_tokens, countP_tokens]
        dsimp only
        omega
      · refine .elsewhere (setDbService_dbs_of_ne _ (Ne.symm hq) _)
          (retains_setDbService q { s with net := s.net.eraseIdx i } d rfl rfl ?_)
        intro f
        have hnone : packetToken p x (.toDbService q m) = none := by simp [packetToken, hq]
        have hf := htake f
        rw [hnone, Option.toList_none, List.countP_nil] at hf
        exact hf.symm
  | task q i =>
      by_cases hq : q = p
      · subst hq
        refine .task i (setDbService_dbs_self _ _ _) ?_
        intro es hout f
        rw [setDbService_dbs_self] at hout
        exact countP_setDbService q x hout f
      · exact .elsewhere (setDbService_dbs_of_ne _ (Ne.symm hq) _)
          (retains_setDbService q s _ rfl rfl fun _ => rfl)
  | dbtlMsg i conn q m hnet => exact .elsewhere rfl (retains_dbtlMsg hnet)
  | dbtlTask q i =>
      refine .elsewhere rfl (retains_dbtlTask h.linked (hlive.dbtl q) ?_)
      have hq := hlive'.dbtl q
      rwa [setDbtl_dbtl_self] at hq

theorem wellFormed_setDbService {q : P} {s s₀ : Sys A P C W} (h : ∀ p, WellFormed (s.dbs p))
    (hs₀ : s₀.dbs = s.dbs) {d : DbService C W} (hd : WellFormed d) (p : P) :
    WellFormed ((s₀.setDbService q d).dbs p) := by
  by_cases hpq : p = q
  · subst hpq
    rwa [setDbService_dbs_self]
  · rw [setDbService_dbs_of_ne _ hpq, hs₀]
    exact h p

omit [DecidableEq P] in
theorem Orderly.setGtm {first : BitVec 32} {s s₀ : Sys A P C W} (h : Orderly first s)
    {a : Gtm.Arrival (A ⊕ P)} {g : Gtm (A ⊕ P)} (hlinked : Linked (s₀.setGtm g))
    (hdbs : s₀.dbs = s.dbs) (hgtm : Gtm.Step a s.gtm g) : Orderly first (s₀.setGtm g) := by
  refine ⟨hlinked, ?_, h.numbered.step hgtm⟩
  intro p
  dsimp only [Sys.setGtm]
  rw [hdbs]
  exact h.wellFormed p

theorem Orderly.step {ops : Wcheck W} {first : BitVec 32} {s : Sys A P C W} {a : Act A P C}
    (h : Orderly first s) (hlive : Live (s.step ops a)) : Orderly first (s.step ops a) := by
  have hlinked : Linked (s.step ops a) := by
    have hview := fun q => (view_of_step h.linked (step_step ops s a) q 0).1
    exact ⟨fun q => (hview q).conn q, fun q => (hview q).lsn q⟩
  have hstep := hlive.of_step.step ops a
  generalize s.step ops a = s' at *
  cases hstep with
  | absent => exact h
  | getTxid a transType g hgtm => exact h.setGtm hlinked rfl hgtm
  | gtmMsg i conn q m hnet g hgtm => exact h.setGtm hlinked rfl hgtm
  | entityService q conn m d hmsg =>
      have hd := hlive.dbs q
      rw [setDbService_dbs_self] at hd
      exact ⟨hlinked, wellFormed_setDbService h.wellFormed rfl
        ((h.wellFormed q).messageStep hmsg hd), h.numbered⟩
  | dbtmMsg i conn q m hnet d hmsg =>
      have hd := hlive.dbs q
      rw [setDbService_dbs_self] at hd
      exact ⟨hlinked, wellFormed_setDbService h.wellFormed rfl
        ((h.wellFormed q).messageStep hmsg hd), h.numbered⟩
  | task q i =>
      exact ⟨hlinked, wellFormed_setDbService h.wellFormed rfl
        ((h.wellFormed q).taskStep (runTask_step ops i _)), h.numbered⟩
  | dbtlMsg i conn q m hnet => exact ⟨hlinked, h.wellFormed, h.numbered⟩
  | dbtlTask q i => exact ⟨hlinked, h.wellFormed, h.numbered⟩

theorem orderly_run (ops : Wcheck W) (transInfo : String → List IpAndPort) (txid : BitVec 32)
    (w : P → W) (useRocksDb : P → Bool) (l : List (Act A P C))
    (hlive : Live (run ops (init transInfo txid w useRocksDb) l)) :
    Orderly txid (run ops (init transInfo txid w useRocksDb) l) := by
  induction l using List.reverseRecOn with
  | nil =>
      exact ⟨linked_init transInfo txid w useRocksDb, fun p => wellFormed_init (w p),
        Gtm.numbered_init transInfo txid⟩
  | append_singleton l a ih =>
      rw [run_concat] at hlive ⊢
      exact (ih hlive.of_step).step hlive

end Sys

end Grit
