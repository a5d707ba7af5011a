import Grit.Library.History
import Grit.System.Live
import Grit.System.Queues

/-!
# The system on its thread pools

In `Sys` any queued task may be the next one to run, and it is taken and run in one step. Here each
DbService has the pool of `dbtmThreadNum` threads that its constructor makes, and each DBTL the one
of one thread: a handler queues its tasks in the pool, a worker takes them in their order, and it
runs a task some time after it has taken it, while others take and run theirs. Every such run is one
of `Sys` in which the same messages are sent and handled.

What is interleaved is the work of the pools: queueing, notifying, waking up, taking a task and
running it. The body of a task is one step, as a handler is. The source runs it without a lock, so
that two bodies may also overlap; such runs are not among those described here.
-/

namespace Grit

open Cmd DbService

namespace CondPool

variable {α : Type*}

/-- The steps of a pool on its own, while it is not destroyed. -/
inductive Move where
  | notifyOne (i : Nat)
  | wake (i : Nat)
  | work (i : Nat)
deriving DecidableEq, Repr

def Move.call : Move → Call α
  | .notifyOne i => .notifyOne i
  | .wake i => .wake i
  | .work i => .work i

theorem move_frame (p : CondPool α) (m : Move) :
    (p.step m.call).enqueued = p.enqueued ∧ (p.step m.call).stop = p.stop := by
  cases m with
  | notifyOne i =>
      dsimp only [Move.call, step, notifyOne]
      split_ifs
      all_goals exact ⟨rfl, rfl⟩
  | wake i =>
      dsimp only [Move.call, step, wake]
      split_ifs
      all_goals exact ⟨rfl, rfl⟩
  | work i =>
      obtain ⟨henqueued, hstop, -⟩ := work_frame i p
      exact ⟨henqueued, hstop⟩

/-- A step executes one task at most. -/
theorem StepOf.executed_cases {p p' : CondPool α} (h : StepOf p p') :
    p'.executed = p.executed ∨ ∃ task, p'.executed = p.executed ++ [task] := by
  cases h with
  | execute l₁ l₂ task hw => exact Or.inr ⟨task, rfl⟩
  | _ => exact Or.inl rfl

/-- The pool of a process that still has the tasks `q` to run. -/
structure Serves (threads : Nat) (p : CondPool α) (q : List α) : Prop where
  reached : ∃ l, p = run threads l
  running : p.stop = false
  queue : (p.executed ++ q).Perm p.enqueued

theorem serves_init (threads : Nat) : Serves threads (init threads : CondPool α) [] :=
  ⟨⟨[], rfl⟩, rfl, List.Perm.refl _⟩

theorem Serves.enqueue {threads : Nat} {p : CondPool α} {q : List α} (h : Serves threads p q)
    (task : α) : Serves threads (p.enqueue task) (q ++ [task]) := by
  obtain ⟨l, hl⟩ := h.reached
  refine ⟨⟨l ++ [.enqueue task], by rw [run_concat, ← hl]; rfl⟩, ?_, ?_⟩
  · simp [CondPool.enqueue, h.running]
  · simp only [CondPool.enqueue, h.running, Bool.false_eq_true, if_false]
    rw [← List.append_assoc]
    exact h.queue.append_right [task]

theorem Serves.enqueueAll {threads : Nat} {p : CondPool α} {q : List α} (h : Serves threads p q)
    (tasks : List α) :
    Serves threads (tasks.foldl (fun p task => p.enqueue task) p) (q ++ tasks) := by
  induction tasks generalizing p q with
  | nil => rwa [List.append_nil]
  | cons task tasks ih =>
      have hrest := ih (h.enqueue task)
      rwa [List.append_assoc] at hrest

/-- What is to be run is held by the workers or queued. -/
theorem Serves.perm {threads : Nat} {p : CondPool α} {q : List α} (h : Serves threads p q) :
    q.Perm (p.held ++ p.tasks) := by
  obtain ⟨l, hl⟩ := h.reached
  have hsound := sound_pool threads l
  rw [← hl] at hsound
  have horder : p.enqueued = p.taken ++ p.tasks := hsound.order
  have hheld : (p.executed ++ p.held).Perm p.taken := hsound.held
  have hqueue := h.queue
  rw [horder] at hqueue
  have hall : (p.executed ++ q).Perm (p.executed ++ (p.held ++ p.tasks)) := by
    rw [← List.append_assoc]
    exact hqueue.trans (hheld.append_right p.tasks).symm
  exact (List.perm_append_left_iff p.executed).1 hall

/-- The task that a step executes is one of those to be run. -/
theorem Serves.move {threads : Nat} {p : CondPool α} {q : List α} (h : Serves threads p q)
    (m : Move) :
    (p.step m.call).executed = p.executed ∧ Serves threads (p.step m.call) q ∨
      ∃ task i, (p.step m.call).executed = p.executed ++ [task] ∧ q[i]? = some task ∧
        Serves threads (p.step m.call) (q.eraseIdx i) := by
  obtain ⟨henqueued, hstop⟩ := move_frame p m
  obtain ⟨l, hl⟩ := h.reached
  have hreached : ∃ l', p.step m.call = run threads l' :=
    ⟨l ++ [m.call], by rw [run_concat, ← hl]⟩
  rcases (step_stepOf p m.call).executed_cases with hsame | ⟨task, hexecuted⟩
  · refine Or.inl ⟨hsame, hreached, hstop.trans h.running, ?_⟩
    rw [hsame, henqueued]
    exact h.queue
  · obtain ⟨l', hl'⟩ := hreached
    have honce : (p.step m.call).executed.Subperm (p.step m.call).enqueued := by
      rw [hl']
      exact (sound_pool threads l').executed_subperm
    rw [hexecuted, henqueued] at honce
    have hmem : task ∈ q := by
      have hsub := (List.subperm_append_left p.executed).1 (honce.trans h.queue.symm.subperm)
      exact List.singleton_subperm_iff.1 hsub
    obtain ⟨i, hi⟩ := List.getElem?_of_mem hmem
    refine Or.inr ⟨task, i, hexecuted, hi, ⟨l', hl'⟩, hstop.trans h.running, ?_⟩
    rw [hexecuted, henqueued, List.append_assoc]
    exact ((Bag.perm_eraseIdx hi).append_left p.executed).trans h.queue

/-- One pool among others changes. -/
theorem serves_update {ι : Type*} [DecidableEq ι] {threads : ι → Nat} {pools : ι → CondPool α}
    {q q' : ι → List α} (h : ∀ k, Serves (threads k) (pools k) (q k)) {k : ι} {p : CondPool α}
    (hk : Serves (threads k) p (q' k)) (hother : ∀ j, j ≠ k → q' j = q j) (j : ι) :
    Serves (threads j) (Function.update pools k p j) (q' j) := by
  by_cases hj : j = k
  · subst hj
    rwa [Function.update_self]
  · rw [Function.update_of_ne hj, hother j hj]
    exact h j

end CondPool

/-- The system with the pools of its processes. The queues of the pools take the place of those of
the processes, which are empty. -/
structure PooledSys (A P C W : Type*) where
  sys : Sys A P C W
  dbsPool : P → CondPool Task
  dbtlPool : P → CondPool (DbtlTask P)

namespace PooledSys

variable {A P C W : Type*}

/-- What can happen next: a request is sent, a message is delivered, or a pool makes a step. -/
inductive Act (A P C : Type*) where
  | getTxid (a : A) (transType : String)
  | entityService (p : P) (conn : C) (m : DbServiceMsg)
  | deliver (i : Nat) (conn : C)
  | dbsPool (p : P) (m : CondPool.Move)
  | dbtlPool (p : P) (m : CondPool.Move)

/-- The handler that runs. -/
def Act.handler : Act A P C → Option (Sys.Act A P C)
  | .getTxid a transType => some (.getTxid a transType)
  | .entityService p conn m => some (.entityService p conn m)
  | .deliver i conn => some (.deliver i conn)
  | _ => none

/-- `threads p` is `dbtmThreadNum` of the DbService of `p`. -/
def init (threads : P → Nat) (transInfo : String → List IpAndPort) (txid : BitVec 32) (w : P → W)
    (useRocksDb : P → Bool) : PooledSys A P C W :=
  { sys := Sys.init transInfo txid w useRocksDb
    dbsPool := fun p => CondPool.init (threads p)
    dbtlPool := fun _ => CondPool.init 1 }

/-- What a handler has queued goes to the pools. -/
def handle (t : Sys A P C W) (s : PooledSys A P C W) : PooledSys A P C W :=
  { sys := t.cleared
    dbsPool := fun p => (t.dbs p).tasks.foldl (fun pool task => pool.enqueue task) (s.dbsPool p)
    dbtlPool := fun p => (t.dbtl p).tasks.foldl (fun pool task => pool.enqueue task)
      (s.dbtlPool p) }

variable [DecidableEq P]

/-- The pool of the DbService of `p` goes to `pool`; what was executed on the way is run. -/
def serveDbs (ops : Wcheck W) (p : P) (pool : CondPool Task) (s : PooledSys A P C W) :
    PooledSys A P C W :=
  { s with
    sys := s.sys.setDbService p
      ((pool.executed.drop (s.dbsPool p).executed.length).foldl (fun d task => d.exec ops task)
        (s.sys.dbs p))
    dbsPool := Function.update s.dbsPool p pool }

def serveDbtl (p : P) (pool : CondPool (DbtlTask P)) (s : PooledSys A P C W) :
    PooledSys A P C W :=
  { s with
    sys := s.sys.setDbtl p
      ((s.sys.dbtl p).execAll (pool.executed.drop (s.dbtlPool p).executed.length))
    dbtlPool := Function.update s.dbtlPool p pool }

/-- A step of a handler or of a pool; where the pool executes a task, its whole body is part of the
step. The threads of a process that has ended do nothing. -/
def step (ops : Wcheck W) (s : PooledSys A P C W) : Act A P C → PooledSys A P C W
  | .getTxid a transType => s.handle (s.sys.step ops (.getTxid a transType))
  | .entityService p conn m => s.handle (s.sys.step ops (.entityService p conn m))
  | .deliver i conn => s.handle (s.sys.step ops (.deliver i conn))
  | .dbsPool p m =>
      if (s.sys.dbs p).crashed then s else s.serveDbs ops p ((s.dbsPool p).step m.call)
  | .dbtlPool p m =>
      if (s.sys.dbtl p).crashed then s else s.serveDbtl p ((s.dbtlPool p).step m.call)

def run (ops : Wcheck W) (s : PooledSys A P C W) (l : List (Act A P C)) : PooledSys A P C W :=
  l.foldl (step ops) s

theorem run_concat (ops : Wcheck W) (s : PooledSys A P C W) (l : List (Act A P C))
    (a : Act A P C) : run ops s (l ++ [a]) = (run ops s l).step ops a := List.foldl_concat ..

/-! ### The simulation -/

/-- `t` has the state of `s`, and queues what the pools of `s` have to run. -/
structure Simulated (threads : P → Nat) (s : PooledSys A P C W) (t : Sys A P C W) : Prop where
  sys : s.sys = t.cleared
  dbs : ∀ p, CondPool.Serves (threads p) (s.dbsPool p) (t.dbs p).tasks
  dbtl : ∀ p, CondPool.Serves 1 (s.dbtlPool p) (t.dbtl p).tasks

variable {threads : P → Nat} (ops : Wcheck W) {s : PooledSys A P C W} {t : Sys A P C W}

theorem Simulated.handle (h : Simulated threads s t) {a : Sys.Act A P C}
    (ha : Sys.isHandler a = true) :
    Simulated threads (s.handle (s.sys.step ops a)) (t.step ops a) := by
  have hqueued := Sys.queued_step ops t ha
  rw [h.sys]
  refine ⟨hqueued.cleared.symm, fun p => ?_, fun p => ?_⟩
  · rw [hqueued.dbs p]
    exact (h.dbs p).enqueueAll _
  · rw [hqueued.dbtl p]
    exact (h.dbtl p).enqueueAll _

/-- A worker of a DbService executes a task: it is run in `t`. -/
theorem Simulated.execDbs (h : Simulated threads s t) {p : P}
    (hlive : (s.sys.dbs p).crashed = false) {pool : CondPool Task} {task : Task} {i : Nat}
    (hexecuted : pool.executed = (s.dbsPool p).executed ++ [task])
    (hi : (t.dbs p).tasks[i]? = some task)
    (hserves : CondPool.Serves (threads p) pool ((t.dbs p).tasks.eraseIdx i)) :
    Simulated threads (s.serveDbs ops p pool) (t.step ops (.task p i)) := by
  have hlive' : (t.dbs p).crashed = false := by
    rw [h.sys] at hlive
    exact hlive
  have hrun : (t.dbs p).act ops (.task i) =
      ((t.dbs p).exec ops task).withTasks ((t.dbs p).tasks.eraseIdx i) := by
    rw [act_task_of_live ops hlive', runTask, hi]
    exact frames_exec ops task (t.dbs p) _
  have hexec : (pool.executed.drop (s.dbsPool p).executed.length).foldl
      (fun d task => d.exec ops task) (s.sys.dbs p) = ((t.dbs p).exec ops task).withTasks [] := by
    rw [hexecuted, List.drop_left, h.sys]
    exact frames_exec ops task (t.dbs p) []
  dsimp only [Sys.step, serveDbs]
  rw [hrun, hexec, h.sys]
  refine ⟨?_, CondPool.serves_update h.dbs ?_ ?_, h.dbtl⟩
  · rw [Sys.cleared_setDbService]
    rfl
  · rw [Sys.setDbService_dbs_self]
    exact hserves
  · intro q hq
    rw [Sys.setDbService_dbs_of_ne _ hq]

theorem Simulated.execDbtl (h : Simulated threads s t) {p : P}
    (hlive : (s.sys.dbtl p).crashed = false) {pool : CondPool (DbtlTask P)} {task : DbtlTask P}
    {i : Nat} (hexecuted : pool.executed = (s.dbtlPool p).executed ++ [task])
    (hi : (t.dbtl p).tasks[i]? = some task)
    (hserves : CondPool.Serves 1 pool ((t.dbtl p).tasks.eraseIdx i)) :
    Simulated threads (s.serveDbtl p pool) (t.step ops (.dbtlTask p i)) := by
  have hlive' : ¬ (t.dbtl p).crashed = true := by
    rw [h.sys] at hlive
    exact Bool.eq_false_iff.1 hlive
  have hrun : (t.dbtl p).runTask i =
      ((t.dbtl p).exec task).withTasks ((t.dbtl p).tasks.eraseIdx i) := by
    rw [Dbtl.runTask, hi]
    exact Dbtl.exec_withTasks task (t.dbtl p) _
  have hexec : (s.sys.dbtl p).execAll (pool.executed.drop (s.dbtlPool p).executed.length) =
      ((t.dbtl p).exec task).withTasks [] := by
    rw [hexecuted, List.drop_left, h.sys]
    exact Dbtl.exec_withTasks task (t.dbtl p) []
  dsimp only [Sys.step, serveDbtl]
  rw [if_neg hlive', hrun, hexec, h.sys]
  refine ⟨?_, h.dbs, CondPool.serves_update h.dbtl ?_ ?_⟩
  · rw [Sys.cleared_setDbtl]
    rfl
  · rw [Sys.setDbtl_dbtl_self]
    exact hserves
  · intro q hq
    rw [Sys.setDbtl_dbtl_of_ne _ hq]

/-- A pool makes a step without executing a task. -/
theorem Simulated.idleDbs (h : Simulated threads s t) {p : P} {pool : CondPool Task}
    (hexecuted : pool.executed = (s.dbsPool p).executed)
    (hserves : CondPool.Serves (threads p) pool (t.dbs p).tasks) :
    Simulated threads (s.serveDbs ops p pool) t := by
  dsimp only [serveDbs]
  rw [hexecuted, List.drop_length, List.foldl_nil, Sys.setDbService_self]
  exact ⟨h.sys, CondPool.serves_update h.dbs hserves fun _ _ => rfl, h.dbtl⟩

theorem Simulated.idleDbtl (h : Simulated threads s t) {p : P} {pool : CondPool (DbtlTask P)}
    (hexecuted : pool.executed = (s.dbtlPool p).executed)
    (hserves : CondPool.Serves 1 pool (t.dbtl p).tasks) :
    Simulated threads (s.serveDbtl p pool) t := by
  have hself : s.sys.setDbtl p (s.sys.dbtl p) = s.sys := by simp [Sys.setDbtl, Dbtl.sends]
  dsimp only [serveDbtl]
  rw [hexecuted, List.drop_length, Dbtl.execAll, List.foldl_nil, hself]
  exact ⟨h.sys, h.dbs, CondPool.serves_update h.dbtl hserves fun _ _ => rfl⟩

/-- A handler is followed by the same one, a step of a pool by a task or by nothing. -/
theorem Simulated.step (h : Simulated threads s t) (a : Act A P C) :
    (∃ a', a.handler = some a' ∧ Simulated threads (s.step ops a) (t.step ops a')) ∨
      a.handler = none ∧ ∃ ts, ts.filter Sys.isHandler = [] ∧
        Simulated threads (s.step ops a) (Sys.run ops t ts) := by
  cases a with
  | getTxid a transType => exact Or.inl ⟨.getTxid a transType, rfl, h.handle ops rfl⟩
  | entityService p conn m => exact Or.inl ⟨.entityService p conn m, rfl, h.handle ops rfl⟩
  | deliver i conn => exact Or.inl ⟨.deliver i conn, rfl, h.handle ops rfl⟩
  | dbsPool p m =>
      refine Or.inr ⟨rfl, ?_⟩
      dsimp only [PooledSys.step]
      split
      · exact ⟨[], rfl, h⟩
      · rename_i hc
        rcases (h.dbs p).move m with ⟨hexecuted, hserves⟩ | ⟨task, i, hexecuted, hi, hserves⟩
        · exact ⟨[], rfl, h.idleDbs ops hexecuted hserves⟩
        · exact ⟨[.task p i], rfl,
            h.execDbs ops (Bool.eq_false_iff.2 hc) hexecuted hi hserves⟩
  | dbtlPool p m =>
      refine Or.inr ⟨rfl, ?_⟩
      dsimp only [PooledSys.step]
      split
      · exact ⟨[], rfl, h⟩
      · rename_i hc
        rcases (h.dbtl p).move m with ⟨hexecuted, hserves⟩ | ⟨task, i, hexecuted, hi, hserves⟩
        · exact ⟨[], rfl, h.idleDbtl hexecuted hserves⟩
        · exact ⟨[.dbtlTask p i], rfl,
            h.execDbtl ops (Bool.eq_false_iff.2 hc) hexecuted hi hserves⟩

/-- The run `l'` of `Sys` from `t` follows the run `l` from `s` step by step. -/
inductive Follows (threads : P → Nat) (ops : Wcheck W) (s : PooledSys A P C W)
    (t : Sys A P C W) : List (Act A P C) → List (Sys.Act A P C) → Prop where
  | nil (h : Simulated threads s t) : Follows threads ops s t [] []
  | handler (l : List (Act A P C)) (l' : List (Sys.Act A P C)) (a : Act A P C)
      (a' : Sys.Act A P C) (hl : Follows threads ops s t l l') (ha : a.handler = some a')
      (h : Simulated threads (run ops s (l ++ [a])) (Sys.run ops t (l' ++ [a']))) :
      Follows threads ops s t (l ++ [a]) (l' ++ [a'])
  | pool (l : List (Act A P C)) (l' ts : List (Sys.Act A P C)) (a : Act A P C)
      (hl : Follows threads ops s t l l') (ha : a.handler = none)
      (hts : ts.filter Sys.isHandler = [])
      (h : Simulated threads (run ops s (l ++ [a])) (Sys.run ops t (l' ++ ts))) :
      Follows threads ops s t (l ++ [a]) (l' ++ ts)

variable {ops} {l : List (Act A P C)} {l' : List (Sys.Act A P C)}

theorem Follows.simulated (h : Follows threads ops s t l l') :
    Simulated threads (run ops s l) (Sys.run ops t l') := by
  cases h with
  | nil h => exact h
  | handler l l' a a' hl ha h => exact h
  | pool l l' ts a hl ha hts h => exact h

theorem Follows.handlers (h : Follows threads ops s t l l') :
    l'.filter Sys.isHandler = l.filterMap Act.handler := by
  induction h with
  | nil => rfl
  | handler l l' a a' hl ha h ih =>
      have ha' : Sys.isHandler a' = true := by
        cases a with
        | getTxid => cases ha; rfl
        | entityService => cases ha; rfl
        | deliver => cases ha; rfl
        | dbsPool => simp [Act.handler] at ha
        | dbtlPool => simp [Act.handler] at ha
      simp [List.filterMap_append, ih, ha, ha']
  | pool l l' ts a hl ha hts h ih =>
      rw [List.filter_append, hts, List.filterMap_append, ih]
      simp [ha]

/-- A handler and what was done before it. -/
theorem Follows.split {pre post : List (Act A P C)} {a : Act A P C} {a' : Sys.Act A P C}
    (h : Follows threads ops s t (pre ++ a :: post) l') (ha : a.handler = some a') :
    ∃ l₁ l₂, l' = l₁ ++ a' :: l₂ ∧ Follows threads ops s t pre l₁ := by
  generalize hl : pre ++ a :: post = l at h
  induction h generalizing post with
  | nil => simp at hl
  | handler l l' b b' hb hhandler hsim ih =>
      rcases History.concat_eq_append_cons hl.symm with ⟨-, rfl, rfl⟩ | ⟨post', -, hinit⟩
      · obtain rfl : a' = b' := Option.some.inj (ha.symm.trans hhandler)
        exact ⟨l', [], rfl, hb⟩
      · obtain ⟨l₁, l₂, rfl, hpre⟩ := ih hinit.symm
        exact ⟨l₁, l₂ ++ [b'], by simp, hpre⟩
  | pool l l' ts b hb hnone hts hsim ih =>
      rcases History.concat_eq_append_cons hl.symm with ⟨-, rfl, -⟩ | ⟨post', -, hinit⟩
      · simp [ha] at hnone
      · obtain ⟨l₁, l₂, rfl, hpre⟩ := ih hinit.symm
        exact ⟨l₁, l₂ ++ ts, by simp, hpre⟩

theorem exists_follows (h : Simulated threads s t) (ops : Wcheck W) (l : List (Act A P C)) :
    ∃ l', Follows threads ops s t l l' := by
  induction l using List.reverseRecOn with
  | nil => exact ⟨[], .nil h⟩
  | append_singleton l a ih =>
      obtain ⟨l', hl'⟩ := ih
      rcases hl'.simulated.step ops a with ⟨a', ha, hstep⟩ | ⟨ha, ts, hts, hstep⟩
      · refine ⟨l' ++ [a'], .handler l l' a a' hl' ha ?_⟩
        rw [run_concat, Sys.run_concat]
        exact hstep
      · refine ⟨l' ++ ts, .pool l l' ts a hl' ha hts ?_⟩
        rw [run_concat, Sys.run, List.foldl_append]
        exact hstep

omit [DecidableEq P] in
theorem simulated_init (threads : P → Nat) (transInfo : String → List IpAndPort) (txid : BitVec 32)
    (w : P → W) (useRocksDb : P → Bool) :
    Simulated threads (init threads transInfo txid w useRocksDb : PooledSys A P C W)
      (Sys.init transInfo txid w useRocksDb) :=
  ⟨rfl, fun _ => CondPool.serves_init _, fun _ => CondPool.serves_init _⟩

/-- If the bodies of tasks do not overlap, every run of the system on its thread pools is a run of
`Sys` in which the same requests are sent and the same messages delivered, in the same order: the
processes and the messages in flight are the same, and `Sys` has queued what the workers hold and
the pools have queued. -/
theorem pools_refine (threads : P → Nat) (ops : Wcheck W)
    (transInfo : String → List IpAndPort) (txid : BitVec 32) (w : P → W) (useRocksDb : P → Bool)
    (l : List (Act A P C)) :
    ∃ l', l'.filter Sys.isHandler = l.filterMap Act.handler ∧
      (run ops (init threads transInfo txid w useRocksDb) l).sys =
        (Sys.run ops (Sys.init transInfo txid w useRocksDb) l').cleared ∧
      ∀ p, ((Sys.run ops (Sys.init transInfo txid w useRocksDb) l').dbs p).tasks.Perm
          (((run ops (init threads transInfo txid w useRocksDb) l).dbsPool p).held ++
            ((run ops (init threads transInfo txid w useRocksDb) l).dbsPool p).tasks) ∧
        ((Sys.run ops (Sys.init transInfo txid w useRocksDb) l').dbtl p).tasks.Perm
          (((run ops (init threads transInfo txid w useRocksDb) l).dbtlPool p).held ++
            ((run ops (init threads transInfo txid w useRocksDb) l).dbtlPool p).tasks) := by
  obtain ⟨l', hfollows⟩ :=
    exists_follows (simulated_init threads transInfo txid w useRocksDb) ops l
  have h := hfollows.simulated
  exact ⟨l', hfollows.handlers, h.sys, fun p => ⟨(h.dbs p).perm, (h.dbtl p).perm⟩⟩

end PooledSys

end Grit
