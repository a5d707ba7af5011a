import Grit.DbService.MhashCheck
import Grit.System.Exclusion

/-!
# No write is ever stored

With `Mhash` no transaction with a key passes its local check, so that every write set that is
cached, logged and played is empty. This is followed here through the whole system: whatever
the hash function, the transactions and the order of steps, no DBTL writes an item.
-/

namespace Grit

open Cmd DbService

namespace DbService

variable {C : Type*} {hash : String → UInt64}

/-- The event hands no item on to be stored. -/
def Blank : Event C → Prop
  | .cacheRWSet t => t.writeSet = []
  | .sendDbtl m => m.cmd = kLog → m.data = some []
  | _ => True

theorem encodeSet_nil : encodeSet [] = [] := rfl

/-- Changes elsewhere than in the table of the DBTM. -/
theorem Untouched.keep {d d' : DbService C Mhash} (h : Untouched d)
    (hwcheck : d'.wcheck = d.wcheck) (htable : d'.dbtmTable = d.dbtmTable)
    (hnext : d.next ≤ d'.next)
    (hheap : ∀ y q, d.dbtmTable.find y = some q → d'.heap q = d.heap q) : Untouched d' := by
  refine ⟨hwcheck.trans h.wcheck, ?_, ?_⟩
  · intro y q hq
    rw [htable] at hq
    exact Nat.lt_of_lt_of_le (h.held_lt y q hq) hnext
  · intro y q t hq ht
    rw [htable] at hq
    rw [hheap y q hq] at ht
    exact h.held y q t hq ht

/-- Changing an object that `txidTrans` holds. -/
theorem Untouched.store {d : DbService C Mhash} (h : Untouched d) (hwf : WellFormed d)
    {y : Int} {p : Nat} (hp : d.txidTrans.find y = some p) (t : Transaction)
    (table : PtrMap Int C) (tasks : List Task) (out : List (Event C)) :
    Untouched { d with
      table := table
      heap := Function.update d.heap p (some t)
      tasks := tasks
      out := out } := by
  refine h.keep rfl rfl (Nat.le_refl _) ?_
  intro z q hq
  have hne : q ≠ p := by
    intro heq
    subst heq
    exact hwf.apart z y q hq hp
  exact Function.update_of_ne hne _ _

theorem Untouched.opened {d d₁ : DbService C Mhash} (h : Untouched d) {y : Int} {p : Nat}
    {t : Transaction} (hopen : Opened y d p t d₁) : Untouched d₁ := by
  cases hopen with
  | old => exact h
  | new hnone =>
      refine h.keep rfl rfl (Nat.le_succ _) ?_
      intro z q hq
      exact Function.update_of_ne (Nat.ne_of_lt (h.held_lt z q hq)) _ _

theorem Untouched.messageStep {conn : C} {msg : RootMsg} {d d' : DbService C Mhash}
    (h : Untouched d) (hwf : WellFormed d) (hstep : MessageStep conn msg d d')
    (hlive : d'.crashed = false) : Untouched d' := by
  cases hstep with
  | skip => exact h
  | stuck _ hout hc => simp [hc] at hlive
  | collect data hmsg hcmd p t d₁ hopen rset wset =>
      exact (h.opened hopen).store (hwf.opened hopen).1 (opened_find hopen).1 _ _ _ _
  | commitEarly data hmsg hcmd p t hp => exact h.store hwf hp _ _ _ _
  | commitReady data hmsg hcmd p t hp => exact h.store hwf hp _ _ _ _
  | lsnEarly data hmsg hcmd p t hp => exact h.store hwf hp _ _ _ _
  | lsnReady data hmsg hcmd p t hp => exact h.store hwf hp _ _ _ _
  | decision => exact h.keep rfl rfl (Nat.le_refl _) fun _ _ _ => rfl
  | result data hmsg hcmd d' hret => exact untouched_of_retStep h hret

theorem MessageStep.blank {W : Type*} {conn : C} {msg : RootMsg} {d d' : DbService C W}
    (hstep : MessageStep conn msg d d') : ∃ es, d'.out = d.out ++ es ∧ ∀ e ∈ es, Blank e := by
  cases hstep with
  | skip => exact ⟨[], by simp, by simp⟩
  | stuck _ hout hc => exact ⟨[], by simp [hout], by simp⟩
  | collect data hmsg hcmd p t d₁ hopen rset wset =>
      exact ⟨[], by simp [(opened_find hopen).2.2], by simp⟩
  | commitEarly => exact ⟨[], by simp, by simp⟩
  | commitReady => exact ⟨_, rfl, by simp [Blank]⟩
  | lsnEarly => exact ⟨[], by simp, by simp⟩
  | lsnReady => exact ⟨_, rfl, by simp [Blank]⟩
  | decision => exact ⟨[], by simp, by simp⟩
  | result data hmsg hcmd d' hret =>
      cases hret with
      | lost => exact ⟨_, rfl, by simp [Blank]⟩
      | sent => exact ⟨_, rfl, by simp [Blank]⟩

/-- A validation keeps the table empty, and passes transactions without keys only. -/
theorem Untouched.judgeStep {p : Nat} {t : Transaction} {d d' : DbService C Mhash}
    (h : Untouched d) (ht : d.heap p = some t) (hp : p < d.next)
    (hstep : JudgeStep (Mhash.wcheck hash) p t d d') :
    (d'.crashed = false → Untouched d') ∧ ∃ es, d'.out = d.out ++ es ∧ ∀ e ∈ es, Blank e := by
  have hpass : ∀ {w ks}, localCheck (Mhash.wcheck hash) t d.wcheck = some (w, ks, false) →
      w = Mhash.init ∧ t.writeSet = [] := by
    intro w ks hcheck
    obtain ⟨hr, hw⟩ := localCheck_mhash_ne hash t _ w ks hcheck
    rw [localCheck_mhash_nil hash t _ hr hw] at hcheck
    cases hcheck
    exact ⟨h.wcheck, hw⟩
  have hheld : t.writeSet = [] → ∀ u, d.heap p = some u → u.writeSet = [] := by
    intro hw u hu
    rw [ht, Option.some.injEq] at hu
    exact hu ▸ hw
  cases hstep with
  | stuck hnone => exact ⟨by simp, _, rfl, by simp [prologue, Blank]⟩
  | vote w ks hcheck hg =>
      obtain ⟨hinit, hw⟩ := hpass hcheck
      refine ⟨fun _ => untouched_hold h hinit rfl rfl rfl hp (hheld hw), _, rfl, ?_⟩
      simp [prologue, Blank]
  | cacheStuck w ks hcheck hg hins =>
      obtain ⟨-, hw⟩ := hpass hcheck
      exact ⟨by simp, _, rfl, by simp [prologue, Blank, hw]⟩
  | cache w w' ks hcheck hg hins =>
      obtain ⟨hinit, hw⟩ := hpass hcheck
      have hinit' : w' = Mhash.init := by
        rw [hw, insertAll] at hins
        cases hins
        exact hinit
      refine ⟨fun _ => untouched_hold h hinit' rfl rfl rfl hp (hheld hw), _, rfl, ?_⟩
      simp [prologue, Blank, hw, createDbtlMsg, encodeSet_nil]
  | failLost => exact ⟨by simp, _, rfl, by simp [prologue, Blank]⟩
  | fail w ks conn heap c vote hcheck =>
      -- On the empty table a check never answers with a conflict.
      exfalso
      rw [h.wcheck] at hcheck
      by_cases he : t.readSet = [] ∧ t.writeSet = []
      · rw [localCheck_mhash_nil hash t _ he.1 he.2] at hcheck
        simp at hcheck
      · rw [localCheck_mhash_init hash t he] at hcheck
        simp at hcheck

theorem SolveStep.blank {data : DbtmMsg} {d d' : DbService C Mhash} (h : Untouched d)
    (hstep : SolveStep (Mhash.wcheck hash) data d d') :
    ∃ es, d'.out = d.out ++ es ∧ ∀ e ∈ es, Blank e := by
  cases hstep with
  | missing => exact ⟨[], by simp, by simp⟩
  | dangling => exact ⟨[], by simp, by simp⟩
  | cacheStuck p t hp ht hd hw => exact ⟨_, rfl, by simpa [Blank] using h.held _ p t hp ht⟩
  | cache p t w tail hp ht hd hw htail =>
      have hempty := h.held _ p t hp ht
      refine ⟨_, rfl, ?_⟩
      rcases htail with ⟨rfl, -⟩ | rfl
      · simp [Blank, hempty, createDbtlMsg, encodeSet_nil]
      · simp [Blank, hempty, createDbtlMsg, encodeSet_nil]
  | fail d' hd hret =>
      cases hret with
      | lost => exact ⟨_, List.append_assoc _ _ _, by simp [Blank]⟩
      | sent => exact ⟨_, List.append_assoc _ _ _, by simp [Blank]⟩

theorem Untouched.taskStep {i : Nat} {d d' : DbService C Mhash} (h : Untouched d)
    (hwf : WellFormed d) (hstep : TaskStep (Mhash.wcheck hash) i d d') :
    (d'.crashed = false → Untouched d') ∧ ∃ es, d'.out = d.out ++ es ∧ ∀ e ∈ es, Blank e := by
  have herase : Untouched { d with tasks := d.tasks.eraseIdx i } :=
    h.keep rfl rfl (Nat.le_refl _) fun _ _ _ => rfl
  cases hstep with
  | none => exact ⟨fun _ => h, [], by simp, by simp⟩
  | getLsn =>
      refine ⟨fun _ => ?_, _, rfl, by simp [Blank, createDbtlMsg]⟩
      exact h.keep rfl rfl (Nat.le_refl _) fun _ _ _ => rfl
  | dangling => exact ⟨by simp, [], by simp, by simp⟩
  | judge p t htask ht d' hjudge =>
      exact herase.judgeStep ht (hwf.queued p (List.mem_of_getElem? htask)) hjudge
  | ignore => exact ⟨fun _ => herase, [], by simp, by simp⟩
  | solve data htask hcmd d' hsolve =>
      have hblank := SolveStep.blank herase hsolve
      exact ⟨untouched_of_solveStep hash herase hsolve, hblank⟩

end DbService

namespace Dbtl

variable {C : Type*}

/-- The event stores no item. -/
def Bare : DbtlEvent C → Prop
  | .write _ _ => False
  | .rocksWrite batch => batch = []
  | _ => True

/-- Nothing is stored, and nothing is queued to be stored. -/
structure Empty (d : Dbtl C) : Prop where
  tasks : ∀ t ∈ d.tasks, t.data = some []
  logTable : ∀ x, d.logTable x = []
  out : ∀ e ∈ d.out, Bare e

theorem empty_init (useRocksDb : Bool) : Empty (init useRocksDb : Dbtl C) := by
  refine ⟨?_, fun _ => rfl, ?_⟩
  · intro t ht
    simp [init] at ht
  · intro e he
    simp [init] at he

theorem Empty.messageStep {conn : C} {m : DbtlMsg} {d d' : Dbtl C} (h : Empty d)
    (hm : m.cmd = kLog → m.data = some []) (hstep : MessageStep conn (.dbtlMsg m) d d') :
    Empty d' := by
  cases hstep with
  | skip => exact h
  | log data hmsg hcmd t htxid hconn hdata =>
      obtain rfl := RootMsg.dbtlMsg.inj hmsg
      refine ⟨?_, h.logTable, h.out⟩
      intro t' ht'
      rcases List.mem_append.1 ht' with ht' | ht'
      · exact h.tasks t' ht'
      · rw [List.mem_singleton.1 ht', hdata, hm hcmd]
  | lsn data hmsg hcmd b =>
      refine ⟨h.tasks, h.logTable, ?_⟩
      intro e he
      rcases List.mem_append.1 he with he | he
      · exact h.out e he
      · rw [List.mem_singleton.1 he]
        trivial

theorem Empty.runTask {d : Dbtl C} (h : Empty d) (i : Nat) : Empty (d.runTask i) := by
  unfold Dbtl.runTask
  cases htask : d.tasks[i]? with
  | none => exact h
  | some t =>
      have hdata := h.tasks t (List.mem_of_getElem? htask)
      have htasks : ∀ t' ∈ d.tasks.eraseIdx i, t'.data = some [] := fun t' ht' =>
        h.tasks t' (List.mem_of_mem_eraseIdx ht')
      have hout : ∀ es : List (DbtlEvent C), (∀ e ∈ es, Bare e) → ∀ e ∈ d.out ++ es, Bare e := by
        intro es hes e he
        rcases List.mem_append.1 he with he | he
        · exact h.out e he
        · exact hes e he
      cases t with
      | writeToDisk x data conn =>
          obtain rfl : data = some [] := hdata
          simp only [exec, writeToDisk, writeItems, retResult, emit, List.append_assoc]
          split
          · exact ⟨htasks, h.logTable, hout _ (by simp [Bare])⟩
          · exact ⟨htasks, h.logTable, hout _ (by simp [Bare])⟩
      | writeToDiskByRocksDb x data conn =>
          obtain rfl : data = some [] := hdata
          refine ⟨htasks, h.logTable, ?_⟩
          simp only [exec, writeToDiskByRocksDb, retResult, emit, Option.bind_some,
            List.mapM_nil, List.append_assoc]
          exact hout _ (by simp [Bare])

end Dbtl

namespace Sys

variable {A P C : Type*} [DecidableEq P] {hash : String → UInt64}

/-- Nothing in the system is a write. -/
structure Unwritten (s : Sys A P C Mhash) : Prop where
  linked : Linked s
  dbs : ∀ p, (s.dbs p).crashed = false → WellFormed (s.dbs p) ∧ Untouched (s.dbs p)
  out : ∀ p, ∀ e ∈ (s.dbs p).out, Blank e
  net : ∀ p m, .toDbtl p m ∈ s.net → m.cmd = kLog → m.data = some []
  dbtl : ∀ p, (s.dbtl p).Empty

omit [DecidableEq P] in
theorem unwritten_init (transInfo : String → List IpAndPort) (txid : BitVec 32)
    (useRocksDb : P → Bool) :
    Unwritten (init transInfo txid (fun _ => Mhash.init) useRocksDb : Sys A P C Mhash) := by
  refine ⟨linked_init transInfo txid _ useRocksDb, ?_, ?_, ?_, ?_⟩
  · intro p _
    refine ⟨wellFormed_init _, rfl, ?_, ?_⟩
    · simp [init, DbService.init]
    · simp [init, DbService.init]
  · intro p e he
    simp [init, DbService.init] at he
  · intro p m hm
    simp [init] at hm
  · exact fun p => Dbtl.empty_init (useRocksDb p)

omit [DecidableEq P] in
theorem Unwritten.sublist {s : Sys A P C Mhash} (h : Unwritten s) {net : List (Packet P)}
    (hnet : net.Sublist s.net) : Unwritten { s with net := net } :=
  ⟨h.linked.sublist hnet, h.dbs, h.out, fun p m hm => h.net p m (hnet.subset hm), h.dbtl⟩

omit [DecidableEq P] in
theorem Unwritten.setGtm {s : Sys A P C Mhash} (h : Unwritten s) {g : Gtm (A ⊕ P)}
    (hlinked : Linked (s.setGtm g)) : Unwritten (s.setGtm g) := by
  refine ⟨hlinked, h.dbs, h.out, ?_, h.dbtl⟩
  intro p m hm
  rcases List.mem_append.1 hm with hm | hm
  · exact h.net p m hm
  · obtain ⟨v, -, hv⟩ := List.mem_filterMap.1 hm
    unfold ofGtm at hv
    split at hv
    · simp at hv
    · simp at hv

theorem Unwritten.setDbService {q : P} {s : Sys A P C Mhash} (h : Unwritten s)
    {d : DbService C Mhash} {es : List (Event C)} (hout : d.out = (s.dbs q).out ++ es)
    (hes : ∀ e ∈ es, Blank e) (hd : d.crashed = false → WellFormed d ∧ Untouched d) :
    Unwritten (s.setDbService q d) := by
  refine ⟨h.linked.setDbService hout, ?_, ?_, ?_, h.dbtl⟩
  · intro p hlive
    by_cases hp : p = q
    · subst hp
      rw [setDbService_dbs_self] at hlive ⊢
      exact hd hlive
    · rw [setDbService_dbs_of_ne _ hp] at hlive ⊢
      exact h.dbs p hlive
  · intro p e he
    by_cases hp : p = q
    · subst hp
      rw [setDbService_dbs_self, hout] at he
      rcases List.mem_append.1 he with he | he
      · exact h.out p e he
      · exact hes e he
    · rw [setDbService_dbs_of_ne _ hp] at he
      exact h.out p e he
  · intro p m hm
    rw [setDbService_net hout] at hm
    rcases List.mem_append.1 hm with hm | hm
    · exact h.net p m hm
    · obtain ⟨e, he, hsome⟩ := List.mem_filterMap.1 hm
      cases e with
      | sendDbtl m' =>
          obtain ⟨-, rfl⟩ := Packet.toDbtl.inj (Option.some.inj hsome)
          exact hes _ he
      | sendGtm m' => simp [ofDbService] at hsome
      | _ => simp [ofDbService] at hsome

theorem Unwritten.setDbtl {q : P} {s : Sys A P C Mhash} (h : Unwritten s) {d : Dbtl P}
    (hlinked : Linked (s.setDbtl q d)) (hd : d.Empty) : Unwritten (s.setDbtl q d) := by
  refine ⟨hlinked, h.dbs, h.out, ?_, ?_⟩
  · intro p m hm
    rcases List.mem_append.1 hm with hm | hm
    · exact h.net p m hm
    · obtain ⟨v, -, hv⟩ := List.mem_map.1 hm
      simp [ofDbtl] at hv
  · intro p
    by_cases hp : p = q
    · subst hp
      rw [setDbtl_dbtl_self]
      exact hd
    · rw [setDbtl_dbtl_of_ne _ hp]
      exact h.dbtl p

/-- `Step` does not say what a task of a DBTL writes; that case is in `Unwritten.step`. -/
theorem Unwritten.of_step {s s' : Sys A P C Mhash} {a : Act A P C} (h : Unwritten s)
    (hstep : Step (Mhash.wcheck hash) s a s') (ha : ∀ q i, a ≠ .dbtlTask q i) :
    Unwritten s' := by
  have hlinked : ∀ p : P, Linked s' := fun p => (view_of_step h.linked hstep p 0).1
  cases hstep with
  | idle => exact h
  | lost i conn => exact h.sublist (List.eraseIdx_sublist _ _)
  | getTxid a transType g hlive hstep => exact h.setGtm (h.linked.setGtm hstep)
  | gtmMsg i conn q m hnet g hlive hstep =>
      exact (h.sublist (List.eraseIdx_sublist _ _)).setGtm (hlinked q)
  | entityService q conn m d hlive hstep =>
      obtain ⟨hwf, huntouched⟩ := h.dbs q hlive
      obtain ⟨es, hout, hes⟩ := hstep.blank
      exact h.setDbService hout hes fun hlive' =>
        ⟨hwf.messageStep hstep hlive', huntouched.messageStep hwf hstep hlive'⟩
  | dbtmMsg i conn q m hnet d hlive hstep =>
      obtain ⟨hwf, huntouched⟩ := h.dbs q hlive
      obtain ⟨es, hout, hes⟩ := hstep.blank
      have hless := h.sublist (List.eraseIdx_sublist s.net i)
      exact hless.setDbService hout hes fun hlive' =>
        ⟨hwf.messageStep hstep hlive', huntouched.messageStep hwf hstep hlive'⟩
  | task q i d hlive hstep =>
      obtain ⟨hwf, huntouched⟩ := h.dbs q hlive
      obtain ⟨hkeep, es, hout, hes⟩ := huntouched.taskStep hwf hstep
      exact h.setDbService hout hes fun hlive' => ⟨hwf.taskStep hstep, hkeep hlive'⟩
  | dbtlMsg i conn q m hnet d hstep =>
      have hless := h.sublist (List.eraseIdx_sublist s.net i)
      have hm := h.net q m (List.mem_of_getElem? hnet)
      exact hless.setDbtl (hlinked q) ((h.dbtl q).messageStep hm hstep)
  | dbtlTask q i d hstep => exact absurd rfl (ha q i)

theorem Unwritten.step {s : Sys A P C Mhash} (h : Unwritten s) (a : Act A P C) :
    Unwritten (s.step (Mhash.wcheck hash) a) := by
  have hstep := step_step (Mhash.wcheck hash) s a
  cases a with
  | dbtlTask q i =>
      have hlinked := (view_of_step h.linked hstep q 0).1
      dsimp only [Sys.step] at hlinked ⊢
      split at hlinked
      · rename_i hc
        rw [if_pos hc]
        exact h
      · rename_i hc
        rw [if_neg hc]
        exact h.setDbtl hlinked ((h.dbtl q).runTask i)
  | _ => exact h.of_step hstep (by simp)

/-- In every run of the system with the table of the code, whatever the hash function: every
transaction that is cached has an empty write set, the log table of every DBTL is empty, and no
DBTL has written an item to a file or a database. -/
theorem nothing_stored (hash : String → UInt64) (transInfo : String → List IpAndPort)
    (txid : BitVec 32) (useRocksDb : P → Bool) (l : List (Act A P C)) (p : P) :
    (∀ t, .cacheRWSet t ∈ ((run (Mhash.wcheck hash)
        (init transInfo txid (fun _ => Mhash.init) useRocksDb) l).dbs p).out →
      t.writeSet = []) ∧
    (∀ x, ((run (Mhash.wcheck hash)
        (init transInfo txid (fun _ => Mhash.init) useRocksDb) l).dbtl p).logTable x = []) ∧
    ∀ e ∈ ((run (Mhash.wcheck hash)
        (init transInfo txid (fun _ => Mhash.init) useRocksDb) l).dbtl p).out, Dbtl.Bare e := by
  have h : Unwritten (run (Mhash.wcheck hash)
      (init transInfo txid (fun _ => Mhash.init) useRocksDb) l) := by
    induction l using List.reverseRecOn with
    | nil => exact unwritten_init transInfo txid useRocksDb
    | append_singleton l a ih =>
        rw [run_concat]
        exact ih.step a
  exact ⟨fun t ht => h.out p _ ht, (h.dbtl p).logTable, (h.dbtl p).out⟩

end Sys

end Grit
