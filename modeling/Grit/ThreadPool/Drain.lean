import Mathlib.Data.List.Induction
import Mathlib.Data.List.Perm.Subperm
import Grit.ThreadPool.Basic

/-!
# Which tasks are executed

Tasks are taken in the order of `enqueue`, each once, and a worker executes what it has taken. A
worker whose test of the loop finds `stop` set returns with tasks left in the queue. So after
the destructor has set `stop`, each worker that waits for a task takes one more, and the others
take none: all tasks are executed exactly if the queue is not longer than the number of workers
that wait at that moment.
-/

namespace Grit

namespace ThreadPool

variable {α : Type*}

/-- Tasks are taken in the order of `enqueue`, each at most once, and when the workers are
joined, every task whose `enqueue` returned normally has been executed. -/
structure LosesNone (p : ThreadPool α) : Prop where
  order : p.taken <+: p.enqueued
  once : p.executed.Subperm p.enqueued
  complete : p.Joined → p.executed.Perm p.enqueued

/-! ### Every task that is taken -/

/-- What holds in every state of a run. -/
structure Sound (p : ThreadPool α) : Prop where
  order : p.enqueued = p.taken ++ p.tasks
  held : (p.executed ++ p.held).Perm p.taken
  returned : ∀ w ∈ p.workers.take p.joined, w = .exited

theorem sound_init (threads : Nat) : Sound (init threads : ThreadPool α) := by
  refine ⟨rfl, ?_, by simp [init]⟩
  simp [init, held, Worker.task]

/-- Workers that have returned are not the one that makes a step. -/
theorem returned_of_ne {l₁ l₂ : List (Worker α)} {w w' : Worker α} {k : Nat}
    (h : ∀ v ∈ (l₁ ++ w :: l₂).take k, v = .exited) (hw : w ≠ .exited) :
    ∀ v ∈ (l₁ ++ w' :: l₂).take k, v = .exited := by
  have hk : k ≤ l₁.length := by
    by_contra hlt
    refine hw (h w ?_)
    obtain ⟨d, hd⟩ := Nat.exists_eq_add_of_lt (Nat.not_le.1 hlt)
    rw [hd, Nat.add_assoc, List.take_length_add_append]
    simp
  rw [List.take_append_of_le_length hk] at h ⊢
  exact h

theorem filterMap_task (l₁ l₂ : List (Worker α)) (w : Worker α) :
    (l₁ ++ w :: l₂).filterMap Worker.task =
      l₁.filterMap Worker.task ++ (w.task.toList ++ l₂.filterMap Worker.task) := by
  rw [List.filterMap_append]
  cases w with
  | holds task => rfl
  | _ => rfl

/-- A worker without a task goes on without one. -/
theorem Sound.move {p : ThreadPool α} (h : Sound p) {l₁ l₂ : List (Worker α)} {w w' : Worker α}
    (hw : p.workers = l₁ ++ w :: l₂) (hne : w ≠ .exited) (htask : w.task = none)
    (htask' : w'.task = none) : Sound { p with workers := l₁ ++ w' :: l₂ } := by
  refine ⟨h.order, ?_, returned_of_ne (hw ▸ h.returned) hne⟩
  have hheld := h.held
  rw [ThreadPool.held, hw, filterMap_task, htask] at hheld
  rw [ThreadPool.held, filterMap_task, htask']
  exact hheld

theorem StepOf.sound {p p' : ThreadPool α} (hstep : StepOf p p') (h : Sound p) : Sound p' := by
  cases hstep with
  | skip => exact h
  | enqueue task hstop =>
      refine ⟨?_, h.held, h.returned⟩
      simp [h.order]
  | stop hstop => exact ⟨h.order, h.held, h.returned⟩
  | join hstop hw =>
      refine ⟨h.order, h.held, ?_⟩
      intro w hmem
      rw [List.take_add_one, hw, List.mem_append] at hmem
      rcases hmem with hmem | hmem
      · exact h.returned w hmem
      · simpa using hmem
  | enter l₁ l₂ hw hstop => exact h.move hw (by simp) rfl rfl
  | leave l₁ l₂ hw hstop => exact h.move hw (by simp) rfl rfl
  | take l₁ l₂ hw task tasks htasks =>
      refine ⟨?_, ?_, returned_of_ne (hw ▸ h.returned) (by simp)⟩
      · simp [h.order, htasks]
      · have hheld := h.held
        rw [held, hw, filterMap_task] at hheld
        rw [held, filterMap_task, ← List.append_assoc]
        exact (List.perm_middle.trans ((List.append_assoc _ _ _ ▸ hheld).cons task)).trans
          (List.perm_append_singleton task p.taken).symm
  | drained l₁ l₂ hw hstop htasks => exact h.move hw (by simp) rfl rfl
  | execute l₁ l₂ task hw =>
      refine ⟨h.order, ?_, returned_of_ne (hw ▸ h.returned) (by simp)⟩
      have hheld := h.held
      rw [held, hw, filterMap_task] at hheld
      rw [held, filterMap_task]
      have hmiddle : (task :: (l₁.filterMap Worker.task ++ l₂.filterMap Worker.task)).Perm
          (l₁.filterMap Worker.task ++ task :: l₂.filterMap Worker.task) := List.perm_middle.symm
      rw [List.append_assoc]
      exact (hmiddle.append_left p.executed).trans hheld

theorem sound_run (threads : Nat) (l : List (Call α)) : Sound (run threads l) := by
  induction l using List.reverseRecOn with
  | nil => exact sound_init threads
  | append_singleton l c ih =>
      rw [run_concat]
      exact (step_stepOf _ c).sound ih

/-- After the join no worker has a task or waits for one. -/
theorem Sound.of_joined {p : ThreadPool α} (h : Sound p) (hjoined : p.Joined) :
    p.held = [] ∧ p.waiting = 0 := by
  have hall : ∀ w ∈ p.workers, w = .exited := by
    intro w hw
    refine h.returned w ?_
    rwa [hjoined.2, List.take_length]
  refine ⟨List.filterMap_eq_nil_iff.2 fun w hw => ?_, List.countP_eq_zero.2 fun w hw => ?_⟩
  · rw [hall w hw]
    rfl
  · rw [hall w hw]
    simp [Worker.isWait]

theorem Sound.executed_subperm {p : ThreadPool α} (h : Sound p) :
    p.executed.Subperm p.enqueued := by
  have hle : p.executed.Subperm (p.executed ++ p.held) :=
    (List.sublist_append_left _ _).subperm
  rw [h.order]
  exact (hle.trans h.held.subperm).trans (List.sublist_append_left _ _).subperm

/-- All tasks have been executed exactly if none is left in the queue. -/
theorem Sound.executed_perm_iff {p : ThreadPool α} (h : Sound p) (hjoined : p.Joined) :
    p.executed.Perm p.enqueued ↔ p.tasks = [] := by
  have hexec : p.executed.Perm p.taken := by
    have hheld := h.held
    rwa [(h.of_joined hjoined).1, List.append_nil] at hheld
  rw [h.order]
  constructor
  · intro hperm
    have hlength := hperm.length_eq
    rw [hexec.length_eq, List.length_append] at hlength
    exact List.eq_nil_of_length_eq_zero (by omega)
  · intro hnil
    rw [hnil, List.append_nil]
    exact hexec

/-! ### After the stop -/

/-- A stopped pool keeps its tasks and its waiting workers in the same relation. -/
theorem StepOf.drainable_iff {p p' : ThreadPool α} (hstep : StepOf p p') (hstop : p.stop = true) :
    p'.stop = true ∧ (p'.tasks.length ≤ p'.waiting ↔ p.tasks.length ≤ p.waiting) := by
  cases hstep with
  | skip => exact ⟨hstop, Iff.rfl⟩
  | enqueue task h => simp [hstop] at h
  | stop h => simp [hstop] at h
  | join h hw => exact ⟨hstop, Iff.rfl⟩
  | enter l₁ l₂ hw h => simp [hstop] at h
  | leave l₁ l₂ hw h =>
      refine ⟨hstop, ?_⟩
      simp [waiting, hw, Worker.isWait]
  | take l₁ l₂ hw task tasks htasks =>
      refine ⟨hstop, ?_⟩
      have hcount : p.waiting = (l₁ ++ .holds task :: l₂).countP Worker.isWait + 1 := by
        rw [waiting, hw, List.countP_append, List.countP_append, List.countP_cons_of_pos rfl,
          List.countP_cons_of_neg (by simp [Worker.isWait]), Nat.add_assoc]
      rw [hcount, htasks, List.length_cons]
      exact Nat.add_le_add_iff_right.symm
  | drained l₁ l₂ hw h htasks =>
      refine ⟨hstop, ?_⟩
      simp [waiting, hw, htasks]
  | execute l₁ l₂ task hw =>
      refine ⟨hstop, ?_⟩
      simp [waiting, hw, Worker.isWait]

theorem foldl_drainable_iff (l : List (Call α)) {p : ThreadPool α} (hstop : p.stop = true) :
    (l.foldl step p).tasks.length ≤ (l.foldl step p).waiting ↔ p.tasks.length ≤ p.waiting := by
  induction l generalizing p with
  | nil => exact Iff.rfl
  | cons c l ih =>
      obtain ⟨hstop', hiff⟩ := (step_stepOf p c).drainable_iff hstop
      exact (ih hstop').trans hiff

theorem work_stop (i : Nat) (p : ThreadPool α) : (p.work i).stop = p.stop := by
  unfold work
  split
  · split <;> rfl
  · split
    · split <;> rfl
    · rfl
  · rfl
  · rfl
  · rfl

/-- The moment at which the destructor sets `stop`. -/
theorem exists_stop {threads : Nat} {l : List (Call α)} (h : (run threads l).stop = true) :
    ∃ pre post, l = pre ++ .destroy :: post ∧ (run threads pre).stop = false := by
  induction l using List.reverseRecOn with
  | nil => simp [run, init] at h
  | append_singleton l c ih =>
      cases hstop : (run threads l).stop with
      | true =>
          obtain ⟨pre, post, rfl, hpre⟩ := ih hstop
          exact ⟨pre, post ++ [c], by simp, hpre⟩
      | false =>
          rw [run_concat] at h
          cases c with
          | enqueue task => simp [step, enqueue, hstop] at h
          | work i =>
              have hwork := work_stop i (run threads l)
              rw [hstop] at hwork
              exact absurd (hwork.symm.trans h) (by simp)
          | destroy => exact ⟨l, [], rfl, hstop⟩

/-- What is left in the queue after the join is decided when `stop` is set. -/
theorem drained_iff {threads : Nat} {pre post : List (Call α)}
    (hpre : (run threads pre).stop = false)
    (hjoined : (run threads (pre ++ .destroy :: post)).Joined) :
    (run threads (pre ++ .destroy :: post)).tasks = [] ↔
      (run threads pre).tasks.length ≤ (run threads pre).waiting := by
  have hstep : (run threads pre).destroy = { run threads pre with stop := true } := by
    simp [destroy, hpre]
  have hrun : run threads (pre ++ .destroy :: post) =
      post.foldl step (run threads pre).destroy := run_append threads pre (.destroy :: post)
  have hiff := foldl_drainable_iff post (p := (run threads pre).destroy) (by rw [hstep])
  rw [← hrun, ((sound_run threads _).of_joined hjoined).2, hstep, Nat.le_zero,
    List.length_eq_zero_iff] at hiff
  exact hiff

/-- The destructor sets `stop` when there are at most as many tasks in the queue as workers that
wait for one. -/
def StopsInTime (threads : Nat) (l : List (Call α)) : Prop :=
  ∀ pre post, l = pre ++ .destroy :: post → (run threads pre).stop = false →
    (run threads pre).tasks.length ≤ (run threads pre).waiting

/-- The pool loses no task exactly if, whenever the workers are joined, `stop` was set in time. -/
theorem losesNone_iff (threads : Nat) (l : List (Call α)) :
    LosesNone (run threads l) ↔ ((run threads l).Joined → StopsInTime threads l) := by
  have hsound := sound_run threads l
  constructor
  · rintro h hjoined pre post rfl hpre
    exact (drained_iff hpre hjoined).1
      ((hsound.executed_perm_iff hjoined).1 (h.complete hjoined))
  · intro h
    refine ⟨?_, hsound.executed_subperm, fun hjoined => ?_⟩
    · rw [hsound.order]
      exact List.prefix_append _ _
    · obtain ⟨pre, post, rfl, hpre⟩ := exists_stop hjoined.1
      exact (hsound.executed_perm_iff hjoined).2
        ((drained_iff hpre hjoined).2 (h hjoined pre post rfl hpre))

/-- One worker and two tasks: the destructor sets `stop` while the first task is executed. -/
def busy : List (Call Nat) :=
  [.work 0, .enqueue 1, .enqueue 2, .work 0, .destroy, .work 0, .work 0, .destroy]

theorem not_losesNone_busy : ¬ LosesNone (run 1 busy) := by
  intro h
  have hperm := h.complete (by decide)
  exact absurd hperm.length_eq (by decide)

end ThreadPool

end Grit
