import Grit.ThreadPool.Drain

/-!
# The thread pool with its condition variable

`ThreadPool` lets a waiting worker look at the queue at any time. Here a worker that finds nothing
to do is blocked until it is notified: by the `notify_one` of an `enqueue`, which comes after the
section and may find no worker blocked, by the `notify_all` of the destructor, or without a reason.
The blocked workers and the notifications are forgotten by `pool`, and every run is one of
`ThreadPool` then.
-/

namespace Grit

/-- Where a worker stands. `lock` is before the section, for the first time or after a wakeup;
`blocked` is inside of `condition.wait`. -/
inductive Thread (α : Type*) where
  | test
  | lock
  | blocked
  | holds (task : α)
  | exited
deriving DecidableEq, Repr

namespace Thread

variable {α : Type*}

/-- The worker of `ThreadPool`. -/
def worker : Thread α → Worker α
  | .test => .test
  | .lock => .wait
  | .blocked => .wait
  | .holds task => .holds task
  | .exited => .exited

def isBlocked : Thread α → Bool
  | .blocked => true
  | _ => false

/-- The worker is about to look at the queue. -/
def isReady : Thread α → Bool
  | .test => true
  | .lock => true
  | _ => false

def isBusy : Thread α → Bool
  | .holds _ => true
  | _ => false

/-- The effect of a notification. -/
def awaken : Thread α → Thread α
  | .blocked => .lock
  | w => w

@[simp]
theorem worker_awaken (w : Thread α) : w.awaken.worker = w.worker := by
  cases w with
  | _ => rfl

theorem isBlocked_awaken (w : Thread α) : w.awaken.isBlocked = false := by
  cases w with
  | _ => rfl

end Thread

/-- `notices` counts the callers of `enqueue` that have left the section and not called
`notify_one` yet; `notified` says that the destructor has called `notify_all`. -/
structure CondPool (α : Type*) where
  workers : List (Thread α)
  tasks : List α
  stop : Bool
  notices : Nat
  notified : Bool
  joined : Nat
  enqueued : List α
  taken : List α
  executed : List α

namespace CondPool

variable {α : Type*}

/-- Whose step it is. `notifyOne i` lets a caller of `enqueue` notify the worker at position `i`,
and `wake i` wakes this worker up without a reason. -/
inductive Call (α : Type*) where
  | enqueue (task : α)
  | notifyOne (i : Nat)
  | wake (i : Nat)
  | work (i : Nat)
  | destroy
deriving Repr

def init (threads : Nat) : CondPool α :=
  { workers := List.replicate threads .test, tasks := [], stop := false, notices := 0,
    notified := false, joined := 0, enqueued := [], taken := [], executed := [] }

/-- The section of `enqueue`. -/
def enqueue (task : α) (p : CondPool α) : CondPool α :=
  if p.stop then p
  else { p with
    tasks := p.tasks ++ [task]
    notices := p.notices + 1
    enqueued := p.enqueued ++ [task] }

/-- `condition.notify_one()`: one of the blocked workers goes on, if there are any. -/
def notifyOne (i : Nat) (p : CondPool α) : CondPool α :=
  if p.notices = 0 then p
  else if p.workers[i]?.any Thread.isBlocked then
    { p with workers := p.workers.set i .lock, notices := p.notices - 1 }
  else if p.workers.any Thread.isBlocked then p
  else { p with notices := p.notices - 1 }

def wake (i : Nat) (p : CondPool α) : CondPool α :=
  if p.workers[i]?.any Thread.isBlocked then { p with workers := p.workers.set i .lock } else p

/-- The next step of the worker at position `i`. The section tests the condition of `wait`, and
with it the worker either goes on or is blocked. -/
def work (i : Nat) (p : CondPool α) : CondPool α :=
  match p.workers[i]? with
  | some .test =>
      if p.stop then { p with workers := p.workers.set i .exited }
      else { p with workers := p.workers.set i .lock }
  | some .lock =>
      match p.tasks with
      | [] =>
          if p.stop then { p with workers := p.workers.set i .exited }
          else { p with workers := p.workers.set i .blocked }
      | task :: tasks =>
          { p with
            workers := p.workers.set i (.holds task)
            tasks := tasks
            taken := p.taken ++ [task] }
  | some (.holds task) =>
      { p with workers := p.workers.set i .test, executed := p.executed ++ [task] }
  | _ => p

/-- The next step of the destructor: it sets `stop`, notifies all workers, and joins them. -/
def destroy (p : CondPool α) : CondPool α :=
  if p.stop then
    if p.notified then
      match p.workers[p.joined]? with
      | some .exited => { p with joined := p.joined + 1 }
      | _ => p
    else { p with workers := p.workers.map Thread.awaken, notified := true }
  else { p with stop := true }

def step (p : CondPool α) : Call α → CondPool α
  | .enqueue task => p.enqueue task
  | .notifyOne i => p.notifyOne i
  | .wake i => p.wake i
  | .work i => p.work i
  | .destroy => p.destroy

def run (threads : Nat) (l : List (Call α)) : CondPool α := l.foldl step (init threads)

theorem run_concat (threads : Nat) (l : List (Call α)) (c : Call α) :
    run threads (l ++ [c]) = (run threads l).step c := List.foldl_concat ..

/-- The destructor has joined every worker. -/
def Joined (p : CondPool α) : Prop :=
  p.stop = true ∧ p.notified = true ∧ p.joined = p.workers.length

/-! ### What can happen in one step -/

/-- The outcomes of a step. The worker that it is about stands between `l₁` and `l₂`. -/
inductive StepOf (p : CondPool α) : CondPool α → Prop where
  | skip : StepOf p p
  | enqueue (task : α) (hstop : p.stop = false) :
      StepOf p { p with
        tasks := p.tasks ++ [task]
        notices := p.notices + 1
        enqueued := p.enqueued ++ [task] }
  | notify (l₁ l₂ : List (Thread α)) (hw : p.workers = l₁ ++ .blocked :: l₂)
      (hn : p.notices ≠ 0) :
      StepOf p { p with workers := l₁ ++ .lock :: l₂, notices := p.notices - 1 }
  | unheard (hw : p.workers.countP Thread.isBlocked = 0) :
      StepOf p { p with notices := p.notices - 1 }
  | wake (l₁ l₂ : List (Thread α)) (hw : p.workers = l₁ ++ .blocked :: l₂) :
      StepOf p { p with workers := l₁ ++ .lock :: l₂ }
  | enter (l₁ l₂ : List (Thread α)) (hw : p.workers = l₁ ++ .test :: l₂)
      (hstop : p.stop = false) : StepOf p { p with workers := l₁ ++ .lock :: l₂ }
  | leave (l₁ l₂ : List (Thread α)) (hw : p.workers = l₁ ++ .test :: l₂)
      (hstop : p.stop = true) : StepOf p { p with workers := l₁ ++ .exited :: l₂ }
  | take (l₁ l₂ : List (Thread α)) (hw : p.workers = l₁ ++ .lock :: l₂) (task : α)
      (tasks : List α) (htasks : p.tasks = task :: tasks) :
      StepOf p { p with
        workers := l₁ ++ .holds task :: l₂
        tasks := tasks
        taken := p.taken ++ [task] }
  | drained (l₁ l₂ : List (Thread α)) (hw : p.workers = l₁ ++ .lock :: l₂)
      (hstop : p.stop = true) (htasks : p.tasks = []) :
      StepOf p { p with workers := l₁ ++ .exited :: l₂ }
  | block (l₁ l₂ : List (Thread α)) (hw : p.workers = l₁ ++ .lock :: l₂)
      (hstop : p.stop = false) (htasks : p.tasks = []) :
      StepOf p { p with workers := l₁ ++ .blocked :: l₂ }
  | execute (l₁ l₂ : List (Thread α)) (task : α) (hw : p.workers = l₁ ++ .holds task :: l₂) :
      StepOf p { p with
        workers := l₁ ++ .test :: l₂
        executed := p.executed ++ [task] }
  | stop (hstop : p.stop = false) : StepOf p { p with stop := true }
  | notifyAll (hstop : p.stop = true) (hn : p.notified = false) :
      StepOf p { p with workers := p.workers.map Thread.awaken, notified := true }
  | join (hstop : p.stop = true) (hn : p.notified = true)
      (hw : p.workers[p.joined]? = some .exited) :
      StepOf p { p with joined := p.joined + 1 }

/-- The worker at a position, and the others. -/
theorem exists_around {l : List (Thread α)} {i : Nat} {w : Thread α} (h : l[i]? = some w) :
    ∃ l₁ l₂, l = l₁ ++ w :: l₂ ∧ ∀ w', l.set i w' = l₁ ++ w' :: l₂ := by
  obtain ⟨hi, rfl⟩ := List.getElem?_eq_some_iff.1 h
  refine ⟨l.take i, l.drop (i + 1), ?_, fun w' => List.set_eq_take_append_cons_drop.trans ?_⟩
  · rw [← List.drop_eq_getElem_cons hi, List.take_append_drop]
  · rw [if_pos hi]

theorem exists_blocked {l : List (Thread α)} {i : Nat} (h : l[i]?.any Thread.isBlocked = true) :
    ∃ l₁ l₂, l = l₁ ++ .blocked :: l₂ ∧ ∀ w', l.set i w' = l₁ ++ w' :: l₂ := by
  cases hw : l[i]? with
  | none => simp [hw] at h
  | some w =>
      have hblocked : w = .blocked := by
        cases w with
        | blocked => rfl
        | _ => simp [hw, Thread.isBlocked] at h
      subst hblocked
      exact exists_around hw

theorem work_step (i : Nat) (p : CondPool α) : StepOf p (p.work i) := by
  unfold work
  split
  · rename_i hw
    obtain ⟨l₁, l₂, hl, hset⟩ := exists_around hw
    simp only [hset]
    split
    · rename_i hstop
      exact .leave l₁ l₂ hl hstop
    · rename_i hstop
      exact .enter l₁ l₂ hl (Bool.eq_false_iff.2 hstop)
  · rename_i hw
    obtain ⟨l₁, l₂, hl, hset⟩ := exists_around hw
    simp only [hset]
    split
    · rename_i htasks
      split
      · rename_i hstop
        exact .drained l₁ l₂ hl hstop htasks
      · rename_i hstop
        exact .block l₁ l₂ hl (Bool.eq_false_iff.2 hstop) htasks
    · rename_i task tasks htasks
      exact .take l₁ l₂ hl task tasks htasks
  · rename_i task hw
    obtain ⟨l₁, l₂, hl, hset⟩ := exists_around hw
    simp only [hset]
    exact .execute l₁ l₂ task hl
  · exact .skip

theorem step_stepOf (p : CondPool α) (c : Call α) : StepOf p (p.step c) := by
  cases c with
  | enqueue task =>
      dsimp only [step, enqueue]
      split
      · exact .skip
      · rename_i hstop
        exact .enqueue task (Bool.eq_false_iff.2 hstop)
  | notifyOne i =>
      dsimp only [step, notifyOne]
      split
      · exact .skip
      · rename_i hn
        split
        · rename_i hw
          obtain ⟨l₁, l₂, hl, hset⟩ := exists_blocked hw
          rw [hset]
          exact .notify l₁ l₂ hl hn
        · split
          · exact .skip
          · rename_i hnone
            refine .unheard (List.countP_eq_zero.2 fun w hw hblocked => hnone ?_)
            exact List.any_eq_true.2 ⟨w, hw, hblocked⟩
  | wake i =>
      dsimp only [step, wake]
      split
      · rename_i hw
        obtain ⟨l₁, l₂, hl, hset⟩ := exists_blocked hw
        rw [hset]
        exact .wake l₁ l₂ hl
      · exact .skip
  | work i => exact work_step i p
  | destroy =>
      dsimp only [step, destroy]
      split
      · rename_i hstop
        split
        · rename_i hn
          split
          · rename_i hw
            exact .join hstop hn hw
          · exact .skip
        · rename_i hn
          exact .notifyAll hstop (Bool.eq_false_iff.2 hn)
      · rename_i hstop
        exact .stop (Bool.eq_false_iff.2 hstop)

theorem StepOf.executed_prefix {p p' : CondPool α} (h : StepOf p p') :
    p.executed <+: p'.executed := by
  cases h with
  | execute l₁ l₂ task hw => exact List.prefix_append _ _
  | _ => exact List.prefix_refl _

/-- A worker neither queues a task nor stops the pool. -/
theorem work_frame (i : Nat) (p : CondPool α) :
    (p.work i).enqueued = p.enqueued ∧ (p.work i).stop = p.stop ∧
      (p.work i).notices = p.notices := by
  unfold work
  split
  · split
    · exact ⟨rfl, rfl, rfl⟩
    · exact ⟨rfl, rfl, rfl⟩
  · split
    · split
      · exact ⟨rfl, rfl, rfl⟩
      · exact ⟨rfl, rfl, rfl⟩
    · exact ⟨rfl, rfl, rfl⟩
  · exact ⟨rfl, rfl, rfl⟩
  · exact ⟨rfl, rfl, rfl⟩

/-! ### The pool without the condition variable -/

/-- What `ThreadPool` knows of the state. -/
def pool (p : CondPool α) : ThreadPool α :=
  { workers := p.workers.map Thread.worker, tasks := p.tasks, stop := p.stop, joined := p.joined,
    enqueued := p.enqueued, taken := p.taken, executed := p.executed }

theorem pool_workers {p : CondPool α} {l₁ l₂ : List (Thread α)} {w : Thread α}
    (h : p.workers = l₁ ++ w :: l₂) :
    p.pool.workers[l₁.length]? = some w.worker ∧ ∀ w' : Thread α,
      p.pool.workers.set l₁.length w'.worker = (l₁ ++ w' :: l₂).map Thread.worker := by
  have hmap : p.pool.workers = l₁.map Thread.worker ++ w.worker :: l₂.map Thread.worker := by
    simp [pool, h]
  have hlength : l₁.length = (l₁.map Thread.worker).length := (List.length_map _).symm
  rw [hmap, hlength]
  refine ⟨?_, fun w' => ?_⟩
  · rw [List.getElem?_append_right (Nat.le_refl _), Nat.sub_self]
    rfl
  · rw [List.set_append_right _ _ (Nat.le_refl _), Nat.sub_self]
    simp

/-- A step is one of `ThreadPool`, or `ThreadPool` does not see it. -/
theorem StepOf.refines {p p' : CondPool α} (h : StepOf p p') :
    p'.pool = p.pool ∨ ∃ c, p'.pool = p.pool.step c := by
  -- a worker that moves without a change for `ThreadPool`
  have hsame : ∀ {l₁ l₂ : List (Thread α)} {w : Thread α} (w' : Thread α),
      p.workers = l₁ ++ w :: l₂ → w'.worker = w.worker →
        (l₁ ++ w' :: l₂).map Thread.worker = p.workers.map Thread.worker := by
    intro l₁ l₂ w w' hw heq
    simp [hw, heq]
  cases h with
  | skip => exact Or.inl rfl
  | enqueue task hstop =>
      refine Or.inr ⟨.enqueue task, ?_⟩
      simp [pool, ThreadPool.step, ThreadPool.enqueue, hstop]
  | notify l₁ l₂ hw hn =>
      refine Or.inl ?_
      simp only [pool, hsame .lock hw rfl]
  | unheard hw => exact Or.inl rfl
  | wake l₁ l₂ hw =>
      refine Or.inl ?_
      simp only [pool, hsame .lock hw rfl]
  | enter l₁ l₂ hw hstop =>
      obtain ⟨hget, hset⟩ := pool_workers hw
      refine Or.inr ⟨.work l₁.length, ?_⟩
      have hnew := hset .lock
      simp only [Thread.worker] at hget hnew
      simp only [ThreadPool.step, ThreadPool.work, hget, hnew]
      simp [pool, hstop]
  | leave l₁ l₂ hw hstop =>
      obtain ⟨hget, hset⟩ := pool_workers hw
      refine Or.inr ⟨.work l₁.length, ?_⟩
      have hnew := hset .exited
      simp only [Thread.worker] at hget hnew
      simp only [ThreadPool.step, ThreadPool.work, hget, hnew]
      simp [pool, hstop]
  | take l₁ l₂ hw task tasks htasks =>
      obtain ⟨hget, hset⟩ := pool_workers hw
      refine Or.inr ⟨.work l₁.length, ?_⟩
      have hnew := hset (.holds task)
      have hqueue : p.pool.tasks = task :: tasks := htasks
      simp only [Thread.worker] at hget hnew
      simp only [ThreadPool.step, ThreadPool.work, hget, hqueue, hnew]
      rfl
  | drained l₁ l₂ hw hstop htasks =>
      obtain ⟨hget, hset⟩ := pool_workers hw
      refine Or.inr ⟨.work l₁.length, ?_⟩
      have hnew := hset .exited
      have hqueue : p.pool.tasks = [] := htasks
      simp only [Thread.worker] at hget hnew
      simp only [ThreadPool.step, ThreadPool.work, hget, hqueue, hnew]
      simp [pool, hstop, htasks]
  | block l₁ l₂ hw hstop htasks =>
      refine Or.inl ?_
      simp only [pool, hsame .blocked hw rfl]
  | execute l₁ l₂ task hw =>
      obtain ⟨hget, hset⟩ := pool_workers hw
      refine Or.inr ⟨.work l₁.length, ?_⟩
      have hnew := hset .test
      simp only [Thread.worker] at hget hnew
      simp only [ThreadPool.step, ThreadPool.work, hget, hnew]
      rfl
  | stop hstop =>
      refine Or.inr ⟨.destroy, ?_⟩
      simp [pool, ThreadPool.step, ThreadPool.destroy, hstop]
  | notifyAll hstop hn =>
      refine Or.inl ?_
      simp [pool]
  | join hstop hn hw =>
      refine Or.inr ⟨.destroy, ?_⟩
      simp [pool, ThreadPool.step, ThreadPool.destroy, hstop, hw, Thread.worker]

/-- Every run is one of `ThreadPool`. -/
theorem exists_run (threads : Nat) (l : List (Call α)) :
    ∃ l', (run threads l).pool = ThreadPool.run threads l' := by
  induction l using List.reverseRecOn with
  | nil =>
      refine ⟨[], ?_⟩
      simp [run, init, pool, ThreadPool.run, ThreadPool.init, Thread.worker]
  | append_singleton l c ih =>
      obtain ⟨l', hl'⟩ := ih
      rw [run_concat]
      rcases (step_stepOf (run threads l) c).refines with heq | ⟨c', heq⟩
      · exact ⟨l', heq.trans hl'⟩
      · refine ⟨l' ++ [c'], ?_⟩
        rw [heq, hl', ThreadPool.run_concat]

theorem sound_pool (threads : Nat) (l : List (Call α)) :
    ThreadPool.Sound (run threads l).pool := by
  obtain ⟨l', hl'⟩ := exists_run threads l
  rw [hl']
  exact ThreadPool.sound_run threads l'

/-! ### One worker -/

/-- The tasks that were taken and are not executed yet. -/
def held (p : CondPool α) : List α := p.pool.held

/-- With one worker, tasks are executed in the order in which they were queued. -/
structure Fifo (p : CondPool α) : Prop where
  single : p.workers.length = 1
  taken : p.taken = p.executed ++ p.held
  enqueued : p.enqueued = p.taken ++ p.tasks

theorem fifo_init : Fifo (init 1 : CondPool α) := ⟨rfl, rfl, rfl⟩

theorem held_single {p : CondPool α} {w : Thread α} (h : p.workers = [w]) :
    p.held = w.worker.task.toList := by
  cases w with
  | _ => simp [held, pool, ThreadPool.held, h, Thread.worker, Worker.task]

theorem StepOf.fifo {p p' : CondPool α} (hstep : StepOf p p') (h : Fifo p) : Fifo p' := by
  obtain ⟨w, hone⟩ := List.length_eq_one_iff.1 h.single
  have hsplit : ∀ {l₁ l₂ : List (Thread α)} {v : Thread α}, p.workers = l₁ ++ v :: l₂ →
      l₁ = [] ∧ l₂ = [] ∧ w = v := by
    intro l₁ l₂ v hw
    rw [hone] at hw
    rcases l₁ with - | ⟨u, l₁⟩
    · simpa [eq_comm, and_comm] using hw
    · simp at hw
  have htaken := h.taken
  have henqueued := h.enqueued
  rw [held_single hone] at htaken
  cases hstep with
  | skip => exact h
  | enqueue task hstop =>
      refine ⟨h.single, h.taken, ?_⟩
      simp [henqueued]
  | unheard => exact ⟨h.single, h.taken, h.enqueued⟩
  | stop => exact ⟨h.single, h.taken, h.enqueued⟩
  | join => exact ⟨h.single, h.taken, h.enqueued⟩
  | notifyAll hstop hn =>
      refine ⟨(List.length_map _).trans h.single, ?_, h.enqueued⟩
      have hnew := held_single (p := { p with
        workers := p.workers.map Thread.awaken, notified := true }) (w := w.awaken) (by simp [hone])
      rw [hnew, Thread.worker_awaken]
      exact htaken
  | take l₁ l₂ hw task tasks htasks =>
      obtain ⟨rfl, rfl, rfl⟩ := hsplit hw
      refine ⟨rfl, ?_, by simp [henqueued, htasks]⟩
      rw [held_single (w := .holds task) rfl, htaken]
      simp [Thread.worker, Worker.task]
  | execute l₁ l₂ task hw =>
      obtain ⟨rfl, rfl, rfl⟩ := hsplit hw
      refine ⟨rfl, ?_, h.enqueued⟩
      rw [held_single (w := .test) rfl, htaken]
      simp [Thread.worker, Worker.task]
  | notify l₁ l₂ hw hn =>
      obtain ⟨rfl, rfl, rfl⟩ := hsplit hw
      exact ⟨rfl, htaken, h.enqueued⟩
  | wake l₁ l₂ hw =>
      obtain ⟨rfl, rfl, rfl⟩ := hsplit hw
      exact ⟨rfl, htaken, h.enqueued⟩
  | enter l₁ l₂ hw hstop =>
      obtain ⟨rfl, rfl, rfl⟩ := hsplit hw
      exact ⟨rfl, htaken, h.enqueued⟩
  | leave l₁ l₂ hw hstop =>
      obtain ⟨rfl, rfl, rfl⟩ := hsplit hw
      exact ⟨rfl, htaken, h.enqueued⟩
  | drained l₁ l₂ hw hstop htasks =>
      obtain ⟨rfl, rfl, rfl⟩ := hsplit hw
      exact ⟨rfl, htaken, h.enqueued⟩
  | block l₁ l₂ hw hstop htasks =>
      obtain ⟨rfl, rfl, rfl⟩ := hsplit hw
      exact ⟨rfl, htaken, h.enqueued⟩

end CondPool

end Grit
