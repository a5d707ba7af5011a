import Grit.System.Basic

/-!
# The DbService without message callbacks

`Dbtm::init` makes a client for the DBTL and one for the GTM and sets a connection callback on
each, but no message callback. What a peer replies over such a connection is read by the default
callback, which discards it, and `onMessage` never sees it. This is the system with that wiring: a
reply is dropped where `Sys` hands it to the DbService.

No lsn ever arrives then, so that a commit is only noted. The DbServices ask for lsns and do nothing
else: nothing is validated, voted on, logged or returned.
-/

namespace Grit

open Cmd

namespace DbService

variable {C W : Type*}

/-- The process has only asked for lsns, and has nothing else to do: no transaction has its lsn. -/
structure Unanswered (d : DbService C W) : Prop where
  out : ∀ e ∈ d.out, ∃ txid, e = .sendDbtl (createDbtlMsg kLsn txid)
  tasks : d.crashed = false → ∀ task ∈ d.tasks, ∃ txid, task = .getLsn txid
  lsn : d.crashed = false → ∀ p t, d.heap p = some t → t.lsn ≤ 0

theorem unanswered_init (w : W) : Unanswered (init w : DbService C W) :=
  ⟨by simp [init], by simp [init], by simp [init]⟩

theorem Unanswered.stuck {d d' : DbService C W} (h : Unanswered d) (hout : d'.out = d.out)
    (hc : d'.crashed = true) : Unanswered d' :=
  ⟨hout ▸ h.out, by simp [hc], by simp [hc]⟩

theorem collect_lsn_le {t : Transaction} (h : t.lsn ≤ 0) (rset wset : List Data) :
    (t.collect rset wset).lsn ≤ 0 := by
  unfold Transaction.collect
  dsimp only
  split
  · exact Int.le_refl 0
  · exact h

/-- An object is stored that has no lsn. -/
theorem lsn_le_update {heap : Nat → Option Transaction} {p : Nat} {t' : Transaction}
    (h : ∀ q t, heap q = some t → t.lsn ≤ 0) (ht' : t'.lsn ≤ 0) :
    ∀ q t, Function.update heap p (some t') q = some t → t.lsn ≤ 0 := by
  intro q t ht
  by_cases hq : q = p
  · subst hq
    rw [Function.update_self] at ht
    exact Option.some.inj ht ▸ ht'
  · rw [Function.update_of_ne hq] at ht
    exact h q t ht

/-- The transaction that a message of an entity service finds or creates has no lsn yet. -/
theorem Unanswered.opened {d d₁ : DbService C W} {txid : Int} {p : Nat} {t : Transaction}
    (h : Unanswered d) (hlive : d.crashed = false) (hopen : Opened txid d p t d₁) :
    t.lsn ≤ 0 ∧ d₁.out = d.out ∧ d₁.tasks = d.tasks ∧
      ∀ q u, d₁.heap q = some u → u.lsn ≤ 0 := by
  cases hopen with
  | old p t hp ht => exact ⟨h.lsn hlive p t ht, rfl, rfl, h.lsn hlive⟩
  | new hnone =>
      have hlsn : (Transaction.init txid).lsn ≤ 0 := by simp [Transaction.init]
      exact ⟨hlsn, rfl, rfl, lsn_le_update (h.lsn hlive) hlsn⟩

theorem Unanswered.messageStep {conn : C} {m : DbServiceMsg} {d d' : DbService C W}
    (h : Unanswered d) (hlive : d.crashed = false)
    (hstep : MessageStep conn (.dbServiceMsg m) d d') : Unanswered d' := by
  cases hstep with
  | skip => exact h
  | stuck _ hout hc => exact h.stuck hout hc
  | collect data hmsg hcmd p t d₁ hopen rset wset =>
      obtain ⟨hlsn, hout, htasks, hheap⟩ := h.opened hlive hopen
      refine ⟨hout ▸ h.out, fun _ task htask => ?_, fun _ => ?_⟩
      · rw [htasks] at htask
        rcases List.mem_append.1 htask with hold | hnew
        · exact h.tasks hlive task hold
        · split at hnew
          · exact ⟨_, List.mem_singleton.1 hnew⟩
          · exact absurd hnew (by simp)
      · exact lsn_le_update hheap (collect_lsn_le hlsn rset wset)
  | commitEarly data hmsg hcmd p t hp ht hneg =>
      exact ⟨h.out, h.tasks, fun _ => lsn_le_update (h.lsn hlive) (Int.not_lt.1 hneg)⟩
  | commitReady data hmsg hcmd p t hp ht hpos =>
      exact absurd (h.lsn hlive p t ht) (Int.not_le.2 hpos)
  | lsnEarly data hmsg => cases hmsg
  | lsnReady data hmsg => cases hmsg
  | decision data hmsg => cases hmsg
  | result data hmsg => cases hmsg

theorem Unanswered.taskStep {ops : Wcheck W} {i : Nat} {d d' : DbService C W} (h : Unanswered d)
    (hlive : d.crashed = false) (hstep : TaskStep ops i d d') : Unanswered d' := by
  have hask : ∀ {task}, d.tasks[i]? = some task → ∃ txid, task = .getLsn txid :=
    fun htask => h.tasks hlive _ (List.mem_of_getElem? htask)
  cases hstep with
  | none => exact h
  | getLsn txid htask =>
      refine ⟨?_, fun _ task hmem => ?_, h.lsn⟩
      · intro e he
        rcases List.mem_append.1 he with hold | hnew
        · exact h.out e hold
        · exact ⟨txid, List.mem_singleton.1 hnew⟩
      · exact h.tasks hlive task (List.mem_of_mem_eraseIdx hmem)
  | dangling p htask =>
      obtain ⟨_, hget⟩ := hask htask
      cases hget
  | judge p t htask =>
      obtain ⟨_, hget⟩ := hask htask
      cases hget
  | ignore data htask =>
      obtain ⟨_, hget⟩ := hask htask
      cases hget
  | solve data htask =>
      obtain ⟨_, hget⟩ := hask htask
      cases hget

end DbService

namespace Sys

variable {A P C W : Type*}

/-- A step of the system as it is wired: a reply to a DbService is dropped when it arrives. -/
def stepAsWired [DecidableEq P] (ops : Wcheck W) (s : Sys A P C W) (a : Act A P C) :
    Sys A P C W :=
  match a with
  | .deliver i _ =>
      match s.net[i]? with
      | some (.toDbService _ _) => { s with net := s.net.eraseIdx i }
      | _ => step ops s a
  | _ => step ops s a

def runAsWired [DecidableEq P] (ops : Wcheck W) (s : Sys A P C W) (l : List (Act A P C)) :
    Sys A P C W :=
  l.foldl (stepAsWired ops) s

/-- Lsns are asked for and handed out, and transaction ids are given to applications. -/
structure Unheard (s : Sys A P C W) : Prop where
  dbs : ∀ p, (s.dbs p).Unanswered
  dbtl : ∀ p, (s.dbtl p).tasks = [] ∧
    ∀ e ∈ (s.dbtl p).out, ∃ m, e = .send p m ∧ m.cmd = kLsn
  gtm : ∀ v ∈ s.gtm.out, ∃ a, v.1 = .inl a
  net : ∀ m ∈ s.net, (∃ p m', m = .toDbService p m') ∨
    ∃ p txid, m = .toDbtl p (createDbtlMsg kLsn txid)

theorem unheard_init (transInfo : String → List IpAndPort) (txid : BitVec 32) (w : P → W)
    (useRocksDb : P → Bool) : Unheard (init transInfo txid w useRocksDb : Sys A P C W) where
  dbs p := DbService.unanswered_init (w p)
  dbtl p := ⟨rfl, by simp [init, Dbtl.init]⟩
  gtm := by simp [init, Gtm.init]
  net := by simp [init]

theorem Unheard.shrink {s : Sys A P C W} (h : Unheard s) (i : Nat) :
    Unheard { s with net := s.net.eraseIdx i } :=
  ⟨h.dbs, h.dbtl, h.gtm, fun m hm => h.net m (List.mem_of_mem_eraseIdx hm)⟩

/-- The DBTL has handed out lsns only. -/
theorem Unheard.setDbtl [DecidableEq P] {s : Sys A P C W} (h : Unheard s) (p : P) {d : Dbtl P}
    (htasks : d.tasks = []) (hout : ∀ e ∈ d.out, ∃ m, e = .send p m ∧ m.cmd = kLsn) :
    Unheard (s.setDbtl p d) := by
  refine ⟨h.dbs, ?_, h.gtm, fun m hm => ?_⟩
  · exact (Function.forall_update_iff s.dbtl fun q d => d.tasks = [] ∧
      ∀ e ∈ d.out, ∃ m, e = .send q m ∧ m.cmd = kLsn).2 ⟨⟨htasks, hout⟩, fun q _ => h.dbtl q⟩
  · rcases List.mem_append.1 hm with hold | hnew
    · exact h.net m hold
    · obtain ⟨v, -, rfl⟩ := List.mem_map.1 hnew
      exact Or.inl ⟨v.1, v.2, rfl⟩

/-- The DbService has asked for lsns only. -/
theorem Unheard.setDbService [DecidableEq P] {s : Sys A P C W} (h : Unheard s) (p : P)
    {d : DbService C W} (hd : d.Unanswered) : Unheard (s.setDbService p d) := by
  refine ⟨?_, h.dbtl, h.gtm, fun m hm => ?_⟩
  · exact (Function.forall_update_iff s.dbs fun _ d => d.Unanswered).2 ⟨hd, fun q _ => h.dbs q⟩
  · rcases List.mem_append.1 hm with hold | hnew
    · exact h.net m hold
    · obtain ⟨e, he, hof⟩ := List.mem_filterMap.1 hnew
      obtain ⟨txid, rfl⟩ := hd.out e (List.mem_of_mem_drop he)
      exact Or.inr ⟨p, txid, (Option.some.inj hof).symm⟩

/-- The GTM has replied to applications only. -/
theorem Unheard.setGtm {s : Sys A P C W} (h : Unheard s) {g : Gtm (A ⊕ P)}
    (hg : ∀ v ∈ g.out, ∃ a, v.1 = .inl a) : Unheard (s.setGtm g) := by
  refine ⟨h.dbs, h.dbtl, hg, fun m hm => ?_⟩
  rcases List.mem_append.1 hm with hold | hnew
  · exact h.net m hold
  · obtain ⟨v, hv, hof⟩ := List.mem_filterMap.1 hnew
    obtain ⟨a, ha⟩ := hg v (List.mem_of_mem_drop hv)
    obtain ⟨conn, m'⟩ := v
    obtain rfl : conn = .inl a := ha
    exact absurd hof (by simp [ofGtm])

/-- A request for a transaction id is answered to the application. -/
theorem out_of_getTxid {a : A} {transType : String} {g g' : Gtm (A ⊕ P)}
    (hstep : Gtm.Step
      ⟨.inl a, .gtmMsg (createGtmMsg kGetTxid 0 false (some transType))⟩ g g')
    (h : ∀ v ∈ g.out, ∃ a, v.1 = .inl a) : ∀ v ∈ g'.out, ∃ a, v.1 = .inl a := by
  have hno : ∀ {i} {v : (A ⊕ P) × Bool}, Gtm.voteOf i
      ⟨.inl a, .gtmMsg (createGtmMsg kGetTxid 0 false (some transType))⟩ ≠ some v := by
    simp [Gtm.voteOf, createGtmMsg]
  cases hstep with
  | skip => exact h
  | untyped => exact h
  | register list =>
      intro v hv
      rcases List.mem_append.1 hv with hold | hnew
      · exact h v hold
      · exact ⟨a, by rw [List.mem_singleton.1 hnew]⟩
  | unknown i v hv => exact absurd hv hno
  | count i v info hv => exact absurd hv hno
  | close i v info hv => exact absurd hv hno

/-- A request for an lsn is answered, and nothing is queued. -/
theorem Unheard.dbtlMsg [DecidableEq P] {s : Sys A P C W} (h : Unheard s) {p : P} {txid : Int}
    {d : Dbtl P}
    (hstep : Dbtl.MessageStep p (.dbtlMsg (createDbtlMsg kLsn txid)) (s.dbtl p) d) :
    Unheard (s.setDbtl p d) := by
  obtain ⟨htasks, hout⟩ := h.dbtl p
  cases hstep with
  | skip => exact h.setDbtl p htasks hout
  | log data hmsg hcmd =>
      cases hmsg
      cases hcmd
  | lsn data hmsg hcmd b =>
      refine h.setDbtl p htasks fun e he => ?_
      rcases List.mem_append.1 he with hold | hnew
      · exact hout e hold
      · exact ⟨_, List.mem_singleton.1 hnew, rfl⟩

theorem Unheard.step [DecidableEq P] {ops : Wcheck W} {s s' : Sys A P C W} {a : Act A P C}
    (h : Unheard s) (hstep : Step ops s a s')
    (hdrop : ∀ i conn p m, a = .deliver i conn → s.net[i]? ≠ some (.toDbService p m)) :
    Unheard s' := by
  cases hstep with
  | idle => exact h
  | lost i conn => exact h.shrink i
  | getTxid a transType g hlive hstep => exact h.setGtm (out_of_getTxid hstep h.gtm)
  | gtmMsg i conn p m hnet =>
      rcases h.net _ (List.mem_of_getElem? hnet) with ⟨_, _, hm⟩ | ⟨_, _, hm⟩
      · cases hm
      · cases hm
  | entityService p conn m d hlive hstep =>
      exact h.setDbService p ((h.dbs p).messageStep hlive hstep)
  | dbtmMsg i conn p m hnet => exact absurd hnet (hdrop i conn p m rfl)
  | task p i d hlive hstep => exact h.setDbService p ((h.dbs p).taskStep hlive hstep)
  | dbtlMsg i conn p m hnet d hstep =>
      rcases h.net _ (List.mem_of_getElem? hnet) with ⟨_, _, hm⟩ | ⟨_, txid, hm⟩
      · cases hm
      · cases hm
        exact (h.shrink i).dbtlMsg hstep
  | dbtlTask p i d hstep =>
      obtain ⟨htasks, hout⟩ := h.dbtl p
      cases hstep with
      | none => exact h.setDbtl p htasks hout
      | stuck t ht => simp [htasks] at ht
      | done t ht => simp [htasks] at ht

theorem Unheard.stepAsWired [DecidableEq P] {s : Sys A P C W} (h : Unheard s) (ops : Wcheck W)
    (a : Act A P C) : Unheard (stepAsWired ops s a) := by
  have hstep := step_step ops s a
  unfold Sys.stepAsWired
  cases a with
  | deliver i conn =>
      dsimp only
      split
      · exact h.shrink i
      · rename_i hnet
        refine h.step hstep ?_
        intro j conn' p m heq hj
        cases heq
        exact hnet p m hj
  | _ => exact h.step hstep (by simp)

/-- As the DbServices are wired, in every run each of them has only asked its DBTL for lsns: it has
validated, voted for, logged and returned nothing. The DBTLs have only replied with lsns, and the
GTM has only replied to applications. -/
theorem unheard_run [DecidableEq P] (ops : Wcheck W) (transInfo : String → List IpAndPort)
    (txid : BitVec 32) (w : P → W) (useRocksDb : P → Bool) (l : List (Act A P C)) (p : P) :
    (∀ e ∈ ((runAsWired ops (init transInfo txid w useRocksDb) l).dbs p).out,
        ∃ x, e = .sendDbtl (createDbtlMsg kLsn x)) ∧
      (∀ e ∈ ((runAsWired ops (init transInfo txid w useRocksDb) l).dbtl p).out,
        ∃ m, e = .send p m ∧ m.cmd = kLsn) ∧
      ∀ v ∈ (runAsWired ops (init transInfo txid w useRocksDb) l).gtm.out, ∃ a, v.1 = .inl a := by
  have hrun : Unheard (runAsWired ops (init transInfo txid w useRocksDb) l) := by
    unfold runAsWired
    induction l using List.reverseRecOn with
    | nil => exact unheard_init transInfo txid w useRocksDb
    | append_singleton l a ih =>
        rw [List.foldl_append]
        exact ih.stepAsWired ops a
  exact ⟨(hrun.dbs p).out, (hrun.dbtl p).2, hrun.gtm⟩

end Sys

end Grit
