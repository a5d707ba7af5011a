import Mathlib.Data.List.Basic

/-!
# The thread pool

The class of `threadPool.h`: any number of workers, the callers of `enqueue` and the destructor.
A section that holds `queue_mutex`, a read of `stop` outside of it and the execution of a task
are one step each. `wait` goes on only when `stop` is set or a task is queued, and both are
changed under the mutex only, so a worker that is called before that stays where it is.

`enqueued`, `taken` and `executed` record the tasks whose `enqueue` returned normally, those
that were taken from the queue and those that were executed, oldest first.
-/

namespace Grit

/-- Where a worker stands: before the test of the loop, before the section that takes a task,
with the task that it took, or after its return. -/
inductive Worker (α : Type*) where
  | test
  | wait
  | holds (task : α)
  | exited
deriving DecidableEq, Repr

/-- The task that a worker has taken and not executed. -/
def Worker.task {α : Type*} : Worker α → Option α
  | .holds task => some task
  | _ => none

def Worker.isWait {α : Type*} : Worker α → Bool
  | .wait => true
  | _ => false

/-- A pool; `joined` counts the workers that the destructor has joined. -/
structure ThreadPool (α : Type*) where
  workers : List (Worker α)
  tasks : List α
  stop : Bool
  joined : Nat
  enqueued : List α
  taken : List α
  executed : List α

namespace ThreadPool

variable {α : Type*}

/-- Whose step it is. -/
inductive Call (α : Type*) where
  | enqueue (task : α)
  | work (i : Nat)
  | destroy
deriving Repr

/-- The constructor, which starts `threads` workers. -/
def init (threads : Nat) : ThreadPool α :=
  { workers := List.replicate threads .test, tasks := [], stop := false, joined := 0,
    enqueued := [], taken := [], executed := [] }

/-- `enqueue`, which throws once the pool is stopped. -/
def enqueue (task : α) (p : ThreadPool α) : ThreadPool α :=
  if p.stop then p
  else { p with tasks := p.tasks ++ [task], enqueued := p.enqueued ++ [task] }

/-- The next step of the worker at position `i`. -/
def work (i : Nat) (p : ThreadPool α) : ThreadPool α :=
  match p.workers[i]? with
  | some .test =>
      if p.stop then { p with workers := p.workers.set i .exited }
      else { p with workers := p.workers.set i .wait }
  | some .wait =>
      match p.tasks with
      | [] => if p.stop then { p with workers := p.workers.set i .exited } else p
      | task :: tasks =>
          { p with
            workers := p.workers.set i (.holds task)
            tasks := tasks
            taken := p.taken ++ [task] }
  | some (.holds task) =>
      { p with workers := p.workers.set i .test, executed := p.executed ++ [task] }
  | some .exited => p
  | none => p

/-- The next step of the destructor: it sets `stop`, and then joins one worker after the other,
each when it has returned. -/
def destroy (p : ThreadPool α) : ThreadPool α :=
  if p.stop then
    match p.workers[p.joined]? with
    | some .exited => { p with joined := p.joined + 1 }
    | _ => p
  else { p with stop := true }

def step (p : ThreadPool α) : Call α → ThreadPool α
  | .enqueue task => p.enqueue task
  | .work i => p.work i
  | .destroy => p.destroy

def run (threads : Nat) (l : List (Call α)) : ThreadPool α := l.foldl step (init threads)

theorem run_append (threads : Nat) (l l' : List (Call α)) :
    run threads (l ++ l') = l'.foldl step (run threads l) := List.foldl_append

theorem run_concat (threads : Nat) (l : List (Call α)) (c : Call α) :
    run threads (l ++ [c]) = (run threads l).step c := run_append threads l [c]

/-- The destructor has joined every worker. -/
def Joined (p : ThreadPool α) : Prop := p.stop = true ∧ p.joined = p.workers.length

instance (p : ThreadPool α) : Decidable p.Joined :=
  inferInstanceAs (Decidable (p.stop = true ∧ p.joined = p.workers.length))

/-- The workers between the test of the loop and the section that takes a task. -/
def waiting (p : ThreadPool α) : Nat := p.workers.countP Worker.isWait

/-- The tasks that were taken and are not executed yet. -/
def held (p : ThreadPool α) : List α := p.workers.filterMap Worker.task

/-- The outcomes of a step. The worker that makes it stands between `l₁` and `l₂`. -/
inductive StepOf (p : ThreadPool α) : ThreadPool α → Prop where
  | skip : StepOf p p
  | enqueue (task : α) (hstop : p.stop = false) :
      StepOf p { p with tasks := p.tasks ++ [task], enqueued := p.enqueued ++ [task] }
  | stop (hstop : p.stop = false) : StepOf p { p with stop := true }
  | join (hstop : p.stop = true) (hw : p.workers[p.joined]? = some .exited) :
      StepOf p { p with joined := p.joined + 1 }
  | enter (l₁ l₂ : List (Worker α)) (hw : p.workers = l₁ ++ .test :: l₂)
      (hstop : p.stop = false) : StepOf p { p with workers := l₁ ++ .wait :: l₂ }
  | leave (l₁ l₂ : List (Worker α)) (hw : p.workers = l₁ ++ .test :: l₂)
      (hstop : p.stop = true) : StepOf p { p with workers := l₁ ++ .exited :: l₂ }
  | take (l₁ l₂ : List (Worker α)) (hw : p.workers = l₁ ++ .wait :: l₂) (task : α)
      (tasks : List α) (htasks : p.tasks = task :: tasks) :
      StepOf p { p with
        workers := l₁ ++ .holds task :: l₂
        tasks := tasks
        taken := p.taken ++ [task] }
  | drained (l₁ l₂ : List (Worker α)) (hw : p.workers = l₁ ++ .wait :: l₂)
      (hstop : p.stop = true) (htasks : p.tasks = []) :
      StepOf p { p with workers := l₁ ++ .exited :: l₂ }
  | execute (l₁ l₂ : List (Worker α)) (task : α) (hw : p.workers = l₁ ++ .holds task :: l₂) :
      StepOf p { p with
        workers := l₁ ++ .test :: l₂
        executed := p.executed ++ [task] }

/-- The worker at a position, and the others. -/
theorem exists_split {l : List (Worker α)} {i : Nat} {w : Worker α} (h : l[i]? = some w) :
    ∃ l₁ l₂, l = l₁ ++ w :: l₂ ∧ ∀ w', l.set i w' = l₁ ++ w' :: l₂ := by
  obtain ⟨hi, rfl⟩ := List.getElem?_eq_some_iff.1 h
  refine ⟨l.take i, l.drop (i + 1), ?_, fun w' => List.set_eq_take_append_cons_drop.trans ?_⟩
  · rw [← List.drop_eq_getElem_cons hi, List.take_append_drop]
  · rw [if_pos hi]

theorem work_step (i : Nat) (p : ThreadPool α) : StepOf p (p.work i) := by
  unfold work
  split
  · rename_i hw
    obtain ⟨l₁, l₂, hl, hset⟩ := exists_split hw
    simp only [hset]
    split
    · rename_i hstop
      exact .leave l₁ l₂ hl hstop
    · rename_i hstop
      exact .enter l₁ l₂ hl (Bool.eq_false_iff.2 hstop)
  · rename_i hw
    obtain ⟨l₁, l₂, hl, hset⟩ := exists_split hw
    simp only [hset]
    split
    · rename_i htasks
      split
      · rename_i hstop
        exact .drained l₁ l₂ hl hstop htasks
      · exact .skip
    · rename_i task tasks htasks
      exact .take l₁ l₂ hl task tasks htasks
  · rename_i task hw
    obtain ⟨l₁, l₂, hl, hset⟩ := exists_split hw
    simp only [hset]
    exact .execute l₁ l₂ task hl
  · exact .skip
  · exact .skip

theorem step_stepOf (p : ThreadPool α) (c : Call α) : StepOf p (p.step c) := by
  cases c with
  | enqueue task =>
      dsimp only [step, enqueue]
      split
      · exact .skip
      · rename_i hstop
        exact .enqueue task (Bool.eq_false_iff.2 hstop)
  | work i => exact work_step i p
  | destroy =>
      dsimp only [step, destroy]
      split
      · rename_i hstop
        split
        · rename_i hw
          exact .join hstop hw
        · exact .skip
      · rename_i hstop
        exact .stop (Bool.eq_false_iff.2 hstop)

end ThreadPool

end Grit
