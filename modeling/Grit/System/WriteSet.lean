import Grit.LogPlayer.Handover
import Grit.LogPlayer.Replay
import Grit.System.Custody

/-!
# Write sets on their way to the storage servers

The system with the log player of each DBTL. Both are one process: a task that has written a log
plays it, and connections, replies of the storage servers and polls of the timers may come
between any other steps. What is sent for a transaction is the write set that has passed its
check.
-/

namespace Grit

open Cmd DbService Token

namespace Sys

variable {A P C W : Type*} [DecidableEq P]

/-- Only a task of the DBTL of `p` plays there. -/
theorem step_dbtl (ops : Wcheck W) (s : Sys A P C W) (a : Act A P C) (p : P) :
    Dbtl.Silent (s.dbtl p) ((s.step ops a).dbtl p) ∨
      ∃ i, a = .dbtlTask p i ∧ (s.dbtl p).crashed = false ∧
        s.step ops a = s.setDbtl p ((s.dbtl p).runTask i) := by
  cases a with
  | dbtlTask q i =>
      by_cases hc : (s.dbtl q).crashed = true
      · have hsame : s.step ops (.dbtlTask q i) = s := if_pos hc
        rw [hsame]
        exact Or.inl (Dbtl.silent_refl _)
      · have hstep : s.step ops (.dbtlTask q i) = s.setDbtl q ((s.dbtl q).runTask i) := if_neg hc
        by_cases hq : p = q
        · subst hq
          exact Or.inr ⟨i, rfl, by simpa using hc, hstep⟩
        · rw [hstep, setDbtl_dbtl_of_ne _ hq]
          exact Or.inl (Dbtl.silent_refl _)
  | deliver i conn =>
      have hstep := step_step ops s (.deliver i conn)
      generalize s.step ops (.deliver i conn) = s' at hstep
      refine Or.inl ?_
      cases hstep with
      | dbtlMsg _ _ q m hnet d hmsg =>
          by_cases hq : p = q
          · subst hq
            rw [setDbtl_dbtl_self]
            exact Dbtl.silent_of_messageStep hmsg
          · rw [setDbtl_dbtl_of_ne _ hq]
            exact Dbtl.silent_refl _
      | _ => exact Dbtl.silent_refl _
  | _ => exact Or.inl (Dbtl.silent_refl _)

end Sys

/-! ### The system with its log players -/

/-- The processes; the log player of `p` is a part of its DBTL. -/
structure Deployment (A P C W D : Type*) where
  sys : Sys A P C W
  players : P → LogPlayer D

namespace Deployment

variable {A P C W D : Type*} [DecidableEq P]

inductive Act (A P C D : Type*) where
  | sys (a : Sys.Act A P C)
  | connect (p : P) (conn : D)
  | reply (p : P) (data : LogPlayerMsg)
  | poll (p : P) (reading : Nat)

def init (transInfo : String → List IpAndPort) (txid : BitVec 32) (w : P → W)
    (useRocksDb : P → Bool)
    (config : P → LpConfig) (reading : P → Nat) : Deployment A P C W D :=
  { sys := Sys.init transInfo txid w useRocksDb
    players := fun p => LogPlayer.init (config p) (reading p) }

/-- A DBTL ends with its log player. -/
def join (s : Deployment A P C W D) : Deployment A P C W D :=
  { s with sys := { s.sys with dbtl := fun p =>
      { s.sys.dbtl p with crashed := (s.sys.dbtl p).crashed || (s.players p).crashed } } }

/-- The system goes to the state `sys`; each log player plays what its DBTL has given to it. -/
def setSys (sys : Sys A P C W) (s : Deployment A P C W D) : Deployment A P C W D :=
  { sys
    players := fun p =>
      (Dbtl.plays ((sys.dbtl p).out.drop (s.sys.dbtl p).out.length)).foldl
        (fun player txid => player.playLog ((sys.dbtl p).logTable txid) txid) (s.players p) }

omit [DecidableEq P] in
theorem setSys_players {sys : Sys A P C W} {s : Deployment A P C W D} {p : P}
    {es : List (DbtlEvent P)} (hout : (sys.dbtl p).out = (s.sys.dbtl p).out ++ es) :
    (s.setSys sys).players p = (Dbtl.plays es).foldl
      (fun player txid => player.playLog ((sys.dbtl p).logTable txid) txid) (s.players p) := by
  simp only [setSys, hout, List.drop_left]

def setPlayer (p : P) (player : LogPlayer D) (s : Deployment A P C W D) :
    Deployment A P C W D :=
  if (s.sys.dbtl p).crashed then s
  else { s with players := Function.update s.players p player }

def step (ops : Wcheck W) (s : Deployment A P C W D) : Act A P C D → Deployment A P C W D
  | .sys a => (s.setSys (s.sys.step ops a)).join
  | .connect p conn => (s.setPlayer p ((s.players p).onDbConnection conn)).join
  | .reply p data => (s.setPlayer p ((s.players p).onMessage data)).join
  | .poll p reading =>
      (s.setPlayer p ((s.players p).poll (s.sys.dbtl p).logTable reading)).join

def run (ops : Wcheck W) (s : Deployment A P C W D) (l : List (Act A P C D)) :
    Deployment A P C W D :=
  l.foldl (step ops) s

theorem run_concat (ops : Wcheck W) (s : Deployment A P C W D) (l : List (Act A P C D))
    (a : Act A P C D) : run ops s (l ++ [a]) = step ops (run ops s l) a :=
  List.foldl_concat ..

def isCommit (p : P) (x : Int) : Act A P C D → Bool
  | .sys a => Sys.isCommit p x a
  | _ => false

/-- How often `x` is committed at `p`. -/
def commits (p : P) (x : Int) (l : List (Act A P C D)) : Nat := l.countP (isCommit p x)

theorem commits_concat (p : P) (x : Int) (l : List (Act A P C D)) (a : Act A P C D) :
    commits p x (l ++ [a]) = commits p x l + if isCommit p x a then 1 else 0 := by
  simp [commits, List.countP_singleton]

/-- The table and the log player of `p`. -/
def site (p : P) (s : Deployment A P C W D) : LogSite D :=
  ⟨(s.sys.dbtl p).logTable, s.players p⟩

/-- The invariant for the participant `p` and the transaction `x`, after `k` commits: `l` is what
has happened at the log site of `p`, where each log comes from a `kLog` message of its own. -/
structure Traced (p : P) (x : Int) (k : Nat) (l : List (LogSite.Op D))
    (s : Deployment A P C W D) : Prop where
  custody : Sys.InCustody p x k s.sys
  written : (Sys.tokens p x s.sys).countP isLog + l.countP (LogSite.isLogOf x) ≤
    (logs x (s.sys.dbs p).out).length
  content : ∀ items, .log x items ∈ l →
    some (items.map LogPlayer.encodeLog) ∈ logs x (s.sys.dbs p).out
  sent : ∀ pos conn msg, .send pos conn msg ∈ (s.players p).out → msg.txid = x →
    ∃ items, .log x items ∈ l ∧ msg = createDbMsg x (some (items.map LogPlayer.encodeLog))
  live : (s.sys.dbtl p).crashed = false → (s.players p).crashed = false →
    (s.site p).Replayed x l

section Steps

variable {p : P} {x : Int} {k : Nat} {l : List (LogSite.Op D)} {s : Deployment A P C W D}

theorem Traced.join (h : Traced p x k l s) : Traced p x k l s.join where
  custody := ⟨⟨h.custody.linked.conn, h.custody.linked.lsn⟩, h.custody.checked,
    h.custody.custody, h.custody.live⟩
  written := h.written
  content := h.content
  sent := h.sent
  live := by
    intro hlive
    obtain ⟨hdbtl, hplayer⟩ := Bool.or_eq_false_iff.1 hlive
    exact fun _ => h.live hdbtl hplayer

omit [DecidableEq P] in
theorem join_live (s : Deployment A P C W D) (p : P)
    (h : (s.join.sys.dbtl p).crashed = false) : (s.join.players p).crashed = false :=
  (Bool.or_eq_false_iff.1 h).2

/-- The log site of `p` takes an operation, and the state `s'` is reached. -/
theorem Traced.operate (h : Traced p x k l s) (hlive : (s.sys.dbtl p).crashed = false)
    (hplayer : (s.players p).crashed = false) {k' : Nat} (hk : k' ≤ 1) {op : LogSite.Op D}
    {s' : Deployment A P C W D} (hcustody : Sys.InCustody p x k' s'.sys)
    (hdbs : s'.sys.dbs p = s.sys.dbs p) (hsite : s'.site p = (s.site p).step op)
    (hwritten : (Sys.tokens p x s'.sys).countP isLog +
      (if LogSite.isLogOf x op then 1 else 0) ≤ (Sys.tokens p x s.sys).countP isLog)
    (hcontent : ∀ items, op = .log x items →
      some (items.map LogPlayer.encodeLog) ∈ logs x (s.sys.dbs p).out) :
    Traced p x k' (l ++ [op]) s' := by
  have hwritten' : (Sys.tokens p x s'.sys).countP isLog +
      (l ++ [op]).countP (LogSite.isLogOf x) ≤ (logs x (s'.sys.dbs p).out).length := by
    have hold := h.written
    rw [hdbs, LogSite.countP_isLogOf_concat]
    omega
  have honce : (l ++ [op]).countP (LogSite.isLogOf x) ≤ 1 := by
    have hlogs := hcustody.logs_le
    omega
  have hreplayed : (s'.site p).Replayed x (l ++ [op]) := by
    rw [hsite]
    exact (h.live hlive hplayer).step honce hplayer
  refine ⟨hcustody, hwritten', ?_, ?_, fun _ _ => hreplayed⟩
  · intro items hitems
    rw [hdbs]
    rcases List.mem_append.1 hitems with hitems | hitems
    · exact h.content items hitems
    · exact hcontent items (List.mem_singleton.1 hitems).symm
  · intro pos conn msg hsend hx
    exact hreplayed.sent hsend hx

/-- A step of the system in which the DBTL of `p` plays nothing. -/
theorem Traced.silent (h : Traced p x k l s) {ops : Wcheck W} {a : Sys.Act A P C}
    {sys : Sys A P C W} (hstep : Sys.Step ops s.sys a sys) {k' : Nat}
    (hcustody : Sys.InCustody p x k' sys)
    (hsilent : Dbtl.Silent (s.sys.dbtl p) (sys.dbtl p)) : Traced p x k' l (s.setSys sys) := by
  obtain ⟨new, hlogs, htokens⟩ := Sys.step_logs h.custody.linked hstep p x
  have hplayers : (s.setSys sys).players p = s.players p := by
    obtain ⟨es, hout, hes⟩ := hsilent.out
    rw [setSys_players hout, hes, List.foldl_nil]
  refine ⟨hcustody, ?_, ?_, ?_, ?_⟩
  · have hold := h.written
    change (Sys.tokens p x sys).countP isLog + _ ≤ (logs x (sys.dbs p).out).length
    rw [hlogs, List.length_append]
    omega
  · intro items hitems
    change _ ∈ logs x (sys.dbs p).out
    rw [hlogs]
    exact List.mem_append_left _ (h.content items hitems)
  · rw [hplayers]
    exact h.sent
  · intro hlive hplayer
    rw [hplayers] at hplayer
    have hsite : (s.setSys sys).site p = s.site p := by
      rw [site, hplayers]
      exact congrArg (LogSite.mk · _) (hsilent.table hlive)
    have hlive' : (s.sys.dbtl p).crashed = false := by
      cases hc : (s.sys.dbtl p).crashed with
      | false => rfl
      | true => exact hlive.symm.trans (hsilent.crashed hc) ▸ rfl
    rw [hsite]
    exact h.live hlive' hplayer

/-- A task of the DBTL of `p` plays its log. -/
theorem Traced.play (h : Traced p x k l s) (hlive : (s.sys.dbtl p).crashed = false)
    (hplayer : (s.players p).crashed = false) {k' : Nat} (hk : k' ≤ 1) {i : Nat}
    {t : DbtlTask P} {items : List LogInfo} (ht : (s.sys.dbtl p).tasks[i]? = some t)
    (hplays : Dbtl.Plays t items (s.sys.dbtl p) ((s.sys.dbtl p).runTask i))
    (hcustody : Sys.InCustody p x k' (s.sys.setDbtl p ((s.sys.dbtl p).runTask i))) :
    Traced p x k' (l ++ [.log t.txid items])
      (s.setSys (s.sys.setDbtl p ((s.sys.dbtl p).runTask i))) := by
  refine h.operate hlive hplayer hk hcustody rfl ?_ ?_ ?_
  · obtain ⟨es, hout, hes⟩ := hplays.out
    have hstep : (s.site p).step (.log t.txid items) =
        ((s.site p).addLogs t.txid items).play t.txid := if_neg (by simp [site, hplayer])
    rw [hstep]
    simp only [site, setSys, Sys.setDbtl_dbtl_self, hplays.table, hout, List.drop_left, hes,
      List.foldl_cons, List.foldl_nil]
    rfl
  · have htake := Sys.countP_isLog_runTask ht x
    simp only [LogSite.isLogOf, decide_eq_true_eq]
    exact Nat.le_of_eq htake
  · intro items' heq
    obtain ⟨hx, rfl⟩ := LogSite.Op.log.inj heq
    rw [← hplays.data]
    refine h.custody.custody.carried t.data ?_
    have htoken : Token.log t.data ∈ (s.sys.dbtl p).tasks.filterMap (Sys.taskToken x) :=
      List.mem_filterMap.2 ⟨t, List.mem_of_getElem? ht, if_pos hx⟩
    exact List.mem_append_right _ htoken

theorem Traced.setPlayer (h : Traced p x k l s) (hk : k ≤ 1)
    (hjoin : (s.sys.dbtl p).crashed = false → (s.players p).crashed = false) {q : P}
    {player : LogPlayer D} (op : LogSite.Op D) (hop : LogSite.isLogOf x op = false)
    (hstep : (s.players q).crashed = false →
      (s.site q).step op = ⟨(s.sys.dbtl q).logTable, player⟩) :
    ∃ l', Traced p x k l' (s.setPlayer q player) := by
  unfold Deployment.setPlayer
  split
  · exact ⟨l, h⟩
  · rename_i hlive
    by_cases hq : q = p
    · subst hq
      have hlive' : (s.sys.dbtl q).crashed = false := by simpa using hlive
      have hplayer := hjoin hlive'
      refine ⟨l ++ [op], h.operate hlive' hplayer hk h.custody rfl ?_ ?_ ?_⟩
      · rw [hstep hplayer]
        simp [site]
      · rw [hop]
        exact Nat.le_refl _
      · rintro items rfl
        simp [LogSite.isLogOf] at hop
    · have hsame : Function.update s.players q player p = s.players p :=
        Function.update_of_ne (Ne.symm hq) _ _
      refine ⟨l, h.custody, h.written, h.content, ?_, ?_⟩
      · dsimp only
        rw [hsame]
        exact h.sent
      · dsimp only [site]
        rw [hsame]
        exact h.live

theorem Traced.step (h : Traced p x k l s) {ops : Wcheck W}
    (hjoin : (s.sys.dbtl p).crashed = false → (s.players p).crashed = false)
    {a : Act A P C D} (hk : k + (if isCommit p x a then 1 else 0) ≤ 1) :
    ∃ l', Traced p x (k + if isCommit p x a then 1 else 0) l' (s.step ops a) := by
  have hlift : ∀ {k' : Nat} {s' : Deployment A P C W D}, (∃ l', Traced p x k' l' s') →
      ∃ l', Traced p x k' l' s'.join := fun ⟨l', h'⟩ => ⟨l', h'.join⟩
  cases a with
  | sys a =>
      have hsys := Sys.step_step ops s.sys a
      have hcustody := h.custody.step hk hsys
      refine hlift ?_
      rcases Sys.step_dbtl ops s.sys a p with hsilent | ⟨i, rfl, hlive, heq⟩
      · exact ⟨l, h.silent hsys hcustody hsilent⟩
      · rcases Dbtl.runTask_plays i hlive with hsilent | ⟨t, items, ht, hplays⟩
        · refine ⟨l, h.silent hsys hcustody ?_⟩
          rwa [heq, Sys.setDbtl_dbtl_self]
        · rw [heq] at hcustody ⊢
          exact ⟨_, h.play hlive (hjoin hlive) hk ht hplays hcustody⟩
  | connect q conn =>
      exact hlift (h.setPlayer hk hjoin (.connect conn) rfl fun hc => if_neg (by simp [site, hc]))
  | reply q data =>
      exact hlift (h.setPlayer hk hjoin (.reply data) rfl fun hc => if_neg (by simp [site, hc]))
  | poll q reading =>
      exact hlift (h.setPlayer hk hjoin (.poll reading) rfl fun hc => if_neg (by simp [site, hc]))

end Steps

section Runs

variable (ops : Wcheck W) (transInfo : String → List IpAndPort) (txid : BitVec 32) (w : P → W)
  (useRocksDb : P → Bool) (config : P → LpConfig) (reading : P → Nat)

theorem traced_init (p : P) (x : Int) :
    Traced p x 0 []
      (init transInfo txid w useRocksDb config reading : Deployment A P C W D) where
  custody := Sys.inCustody_init transInfo txid w useRocksDb p x
  written := Nat.le_refl _
  content := by simp
  sent := by simp [init, LogPlayer.init]
  live := fun _ _ => LogSite.replayed_init x (config p) (reading p)

theorem run_live (l : List (Act A P C D)) (p : P)
    (h : ((run ops (init transInfo txid w useRocksDb config reading) l).sys.dbtl p).crashed =
      false) :
    ((run ops (init transInfo txid w useRocksDb config reading) l).players p).crashed =
      false := by
  cases l using List.reverseRecOn with
  | nil => rfl
  | append_singleton l a =>
      rw [run_concat] at h ⊢
      cases a with
      | _ => exact join_live _ p h

theorem traced_run (p : P) (x : Int) (l : List (Act A P C D)) (hcommit : commits p x l ≤ 1) :
    ∃ l', Traced p x (commits p x l) l'
      (run ops (init transInfo txid w useRocksDb config reading) l) := by
  induction l using List.reverseRecOn with
  | nil => exact ⟨[], traced_init transInfo txid w useRocksDb config reading p x⟩
  | append_singleton l a ih =>
      have hlive := run_live ops transInfo txid w useRocksDb config reading l p
      rw [commits_concat] at hcommit ⊢
      rw [run_concat]
      obtain ⟨l', h⟩ := ih (Nat.le_of_add_right_le hcommit)
      exact h.step hlive hcommit

/-- In every run in which `p` handles one commit of the transaction at most, it sends one log for
it at most; and whatever its log player sends for the transaction, at first or again, is the write
set of the transaction in its one local check, which found no conflict. -/
theorem sent_writeSet (p : P) (x : Int) (l : List (Act A P C D)) (hcommit : commits p x l ≤ 1) :
    (logs x ((run ops (init transInfo txid w useRocksDb config reading) l).sys.dbs p).out
      ).length ≤ 1 ∧
      ∀ pos conn msg, .send pos conn msg ∈
          ((run ops (init transInfo txid w useRocksDb config reading) l).players p).out →
        msg.txid = x →
        ∃ t, checks x
            ((run ops (init transInfo txid w useRocksDb config reading) l).sys.dbs p).out =
              [(t, false)] ∧
          msg.writeSet = some (encodeSet t.writeSet) := by
  obtain ⟨l', h⟩ := traced_run ops transInfo txid w useRocksDb config reading p x l hcommit
  refine ⟨Nat.le_trans h.custody.logs_le hcommit, ?_⟩
  intro pos conn msg hsend hx
  obtain ⟨items, hitems, rfl⟩ := h.sent pos conn msg hsend hx
  obtain ⟨t, ht, hdata⟩ := h.custody.custody.content _ (h.content items hitems)
  refine ⟨t, ?_, hdata⟩
  obtain ⟨c, hc⟩ := List.length_eq_one_iff.1 (Nat.le_antisymm
    (Nat.le_trans h.custody.checked hcommit) (List.length_pos_of_mem ht))
  rw [hc] at ht ⊢
  rw [List.mem_singleton.1 ht]

end Runs

/-- The transaction of `Sys.successRun`, which is written at the first participant while two
storage servers are connected. -/
def storeRun : List (Act Unit Bool Unit Bool) :=
  [.connect false false, .connect false true] ++ Sys.successRun.map .sys

def storeEnd : Deployment Unit Bool Unit (List Info) Bool :=
  run Wcheck.contract (init (fun _ => [⟨"a", 1⟩, ⟨"b", 2⟩]) 0 (fun _ => []) (fun _ => false)
    (fun _ => LogSite.threeRetries) fun _ => 0) storeRun

theorem sent_writeSet_store :
    (storeEnd.players false).out =
      [.playLog 0, .send 0 false (createDbMsg 0 (some [⟨some "k", some "a", some "v"⟩])),
        .send 1 true (createDbMsg 0 (some [⟨some "k", some "a", some "v"⟩]))] ∧
      ∃ t, checks 0 (storeEnd.sys.dbs false).out = [(t, false)] ∧
        some [⟨some "k", some "a", some "v"⟩] = some (encodeSet t.writeSet) :=
  ⟨by decide, (sent_writeSet Wcheck.contract (fun _ => [⟨"a", 1⟩, ⟨"b", 2⟩]) 0 (fun _ => [])
    (fun _ => false) (fun _ => LogSite.threeRetries) (fun _ => 0) false 0 storeRun
    (by decide)).2 0 false
      (createDbMsg 0 (some [⟨some "k", some "a", some "v"⟩])) (by decide) rfl⟩

end Deployment

end Grit
