import Grit.Library.Runs
import Grit.ThreadPool.Wakeup

/-!
# The destructor returns

Between `stop = true` and `notify_all` workers may still be blocked, and a worker that takes a
task goes on after it. Each step of a stopping pool brings the end nearer by the measure
`remaining`, whatever else is called, so that the destructor has joined every worker after
finitely many rounds.
-/

namespace Grit

namespace CondPool

variable {α : Type*}

/-- The steps that are left, once `stop` is set. -/
def remaining (p : CondPool α) : Nat :=
  2 * p.tasks.length + 2 * p.busy + 2 * p.sleeping + p.ready + (p.workers.length - p.joined) +
    if p.notified then 0 else 1

/-- The destructor has set `stop`. -/
structure Stopping (threads : Nat) (p : CondPool α) : Prop where
  sized : Sized threads p
  heard : Heard p
  stop : p.stop = true

theorem StepOf.stop_of_stop {p p' : CondPool α} (hstep : StepOf p p') (h : p.stop = true) :
    p'.stop = true := by
  cases hstep with
  | stop => rfl
  | _ => exact h

/-- One worker moves on. -/
theorem remaining_around (p : CondPool α) {l₁ l₂ : List (Thread α)} {w : Thread α}
    (hw : p.workers = l₁ ++ w :: l₂) :
    p.remaining = 2 * p.tasks.length + 2 * (l₁.countP Thread.isBusy + l₂.countP Thread.isBusy) +
      2 * (l₁.countP Thread.isBlocked + l₂.countP Thread.isBlocked) +
        (l₁.countP Thread.isReady + l₂.countP Thread.isReady) +
          (l₁.length + l₂.length + 1 - p.joined) + (if p.notified then 0 else 1) +
            ((if w.isBusy then 2 else 0) + (if w.isBlocked then 2 else 0) +
              if w.isReady then 1 else 0) := by
  simp only [remaining, busy, sleeping, ready, hw, countP_around, List.length_append,
    List.length_cons]
  cases w with
  | _ =>
      simp only [Thread.isBusy, Thread.isBlocked, Thread.isReady, if_true, Bool.false_eq_true,
        if_false]
      omega

/-- `notify_all` makes the sleeping workers ready. -/
theorem countP_awaken (l : List (Thread α)) :
    (l.map Thread.awaken).countP Thread.isBusy = l.countP Thread.isBusy ∧
      (l.map Thread.awaken).countP Thread.isBlocked = 0 ∧
      (l.map Thread.awaken).countP Thread.isReady =
        l.countP Thread.isReady + l.countP Thread.isBlocked := by
  induction l with
  | nil => exact ⟨rfl, rfl, rfl⟩
  | cons w l ih =>
      obtain ⟨hbusy, hblocked, hready⟩ := ih
      simp only [List.map_cons, List.countP_cons, hbusy, hblocked, hready]
      cases w with
      | _ =>
          simp only [Thread.awaken, Thread.isBusy, Thread.isBlocked, Thread.isReady, if_true,
            Bool.false_eq_true, if_false, true_and]
          omega

/-- A step of a stopping pool brings the end nearer, or only takes a notification away. -/
theorem StepOf.nearer {threads : Nat} {p p' : CondPool α} (hstep : StepOf p p')
    (h : Stopping threads p) :
    (∃ k, p' = { p with notices := k }) ∨ p'.remaining < p.remaining := by
  have hstop := h.stop
  cases hstep with
  | skip => exact Or.inl ⟨_, rfl⟩
  | enqueue task hrun => simp [hstop] at hrun
  | notify l₁ l₂ hw hn =>
      right
      rw [remaining_around p hw, remaining_around _ rfl]
      simp [Thread.isBusy, Thread.isBlocked, Thread.isReady]
  | unheard => exact Or.inl ⟨_, rfl⟩
  | wake l₁ l₂ hw =>
      right
      rw [remaining_around p hw, remaining_around _ rfl]
      simp [Thread.isBusy, Thread.isBlocked, Thread.isReady]
  | enter l₁ l₂ hw hrun => simp [hstop] at hrun
  | leave l₁ l₂ hw _ =>
      right
      rw [remaining_around p hw, remaining_around _ rfl]
      simp [Thread.isBusy, Thread.isBlocked, Thread.isReady]
  | take l₁ l₂ hw task tasks htasks =>
      right
      rw [remaining_around p hw, remaining_around _ rfl]
      simp [Thread.isBusy, Thread.isBlocked, Thread.isReady, htasks]
      omega
  | drained l₁ l₂ hw _ htasks =>
      right
      rw [remaining_around p hw, remaining_around _ rfl]
      simp [Thread.isBusy, Thread.isBlocked, Thread.isReady]
  | block l₁ l₂ hw hrun => simp [hstop] at hrun
  | execute l₁ l₂ task hw =>
      right
      rw [remaining_around p hw, remaining_around _ rfl]
      simp [Thread.isBusy, Thread.isBlocked, Thread.isReady]
  | stop hrun => simp [hstop] at hrun
  | notifyAll _ hn =>
      right
      obtain ⟨hbusy, hblocked, hready⟩ := countP_awaken p.workers
      simp only [remaining, busy, sleeping, ready, hbusy, hblocked, hready, List.length_map, hn,
        if_true, Bool.false_eq_true, if_false]
      omega
  | join _ hn hw =>
      right
      have hlt := (List.getElem?_eq_some_iff.1 hw).1
      simp only [remaining, busy, sleeping, ready]
      omega

theorem Stopping.step {threads : Nat} {p : CondPool α} (h : Stopping threads p) (c : Call α) :
    Stopping threads (p.step c) :=
  have hstep := step_stepOf p c
  ⟨hstep.sized h.sized, hstep.heard h.heard, hstep.stop_of_stop h.stop⟩

/-- The calls of the workers and of the destructor. -/
def isOwn (threads : Nat) : Call α → Prop
  | .work i => i < threads
  | .destroy => True
  | _ => False

/-- These calls do not depend on the notifications to come. -/
theorem remaining_step_notices {threads : Nat} {c : Call α} (hc : isOwn threads c)
    (p : CondPool α) (k : Nat) :
    (step { p with notices := k } c).remaining = (p.step c).remaining := by
  cases c with
  | work i =>
      dsimp only [step, work]
      split
      · split <;> rfl
      · split
        · split <;> rfl
        · rfl
      · rfl
      · rfl
  | destroy =>
      dsimp only [step, destroy]
      split
      · split
        · split <;> rfl
        · rfl
      · rfl
  | _ => exact absurd hc (by simp [isOwn])

/-- A call that changes more than the notifications. -/
theorem Stopping.lt_of_ne {threads : Nat} {p : CondPool α} (h : Stopping threads p) {c : Call α}
    (hne : p.step c ≠ p) (hnotices : (p.step c).notices = p.notices) :
    (p.step c).remaining < p.remaining := by
  rcases (step_stepOf p c).nearer h with ⟨k, heq⟩ | hlt
  · rw [heq] at hnotices hne
    dsimp only at hnotices
    subst hnotices
    exact absurd rfl hne
  · exact hlt

/-- As long as not all workers are joined, a call of a worker or of the destructor brings the end
nearer. -/
theorem Stopping.exists_nearer {threads : Nat} {p : CondPool α} (h : Stopping threads p)
    (hjoined : ¬ p.Joined) :
    ∃ c, isOwn threads c ∧ (p.step c).remaining < p.remaining := by
  have hstop := h.stop
  by_cases hn : p.notified = true
  · by_cases hall : ∀ w ∈ p.workers, w = .exited
    · have hle := h.sized.joined
      have hne : p.joined ≠ p.workers.length := fun heq => hjoined ⟨hstop, hn, heq⟩
      have hlt : p.joined < p.workers.length := by
        rw [h.sized.length] at hne ⊢
        omega
      have hw : p.workers[p.joined]? = some .exited := by
        rw [List.getElem?_eq_getElem hlt, hall _ (List.getElem_mem hlt)]
      have hstep : p.step .destroy = { p with joined := p.joined + 1 } := by
        simp [CondPool.step, destroy, hstop, hn, hw]
      refine ⟨.destroy, trivial, h.lt_of_ne ?_ ?_⟩
      · rw [hstep]
        intro heq
        exact absurd (congrArg CondPool.joined heq) (Nat.succ_ne_self _)
      · rw [hstep]
    · simp only [not_forall] at hall
      obtain ⟨w, hmem, hexited⟩ := hall
      obtain ⟨i, hi, hget⟩ := List.getElem_of_mem hmem
      have hw : p.workers[i]? = some w := by rw [List.getElem?_eq_getElem hi, hget]
      have hblocked := List.countP_eq_zero.1 (h.heard.awake hn).2 w hmem
      have hmoves : w.isReady = true ∨ w.isBusy = true := by
        cases w with
        | blocked => exact absurd rfl hblocked
        | exited => exact absurd rfl hexited
        | test => exact Or.inl rfl
        | lock => exact Or.inl rfl
        | holds task => exact Or.inr rfl
      exact ⟨.work i, h.sized.length ▸ hi, h.lt_of_ne (work_ne hw hmoves) (work_frame i p).2.2⟩
  · have hstep : p.step .destroy =
        { p with workers := p.workers.map Thread.awaken, notified := true } := by
      simp [CondPool.step, destroy, hstop, hn]
    refine ⟨.destroy, trivial, h.lt_of_ne ?_ ?_⟩
    · rw [hstep]
      intro heq
      exact hn (congrArg CondPool.notified heq).symm
    · rw [hstep]

theorem StepOf.joined_of_joined {threads : Nat} {p p' : CondPool α} (hstep : StepOf p p')
    (h : Stopping threads p) (hjoined : p.Joined) : p'.Joined := by
  have hsized := (hstep.sized h.sized).length
  have hlength := h.sized.length
  obtain ⟨hstop, hn, heq⟩ := hjoined
  have hstop' := hstep.stop_of_stop hstop
  cases hstep with
  | join _ _ hw =>
      have hlt := (List.getElem?_eq_some_iff.1 hw).1
      omega
  | notifyAll _ hfalse => simp [hn] at hfalse
  | _ => exact ⟨hstop', hn, heq.trans (hlength.trans hsized.symm)⟩

theorem progress (threads : Nat) :
    Rounds.Progress (step (α := α)) remaining (Stopping threads) Joined (isOwn threads) where
  inv _ c h := h.step c
  stays p c h hjoined := (step_stepOf p c).joined_of_joined h hjoined
  mono p c h := by
    rcases (step_stepOf p c).nearer h with ⟨k, heq⟩ | hlt
    · rw [heq]
      exact Nat.le_refl _
    · exact Nat.le_of_lt hlt
  keeps p c c' h hsame hown hhelps := by
    rcases (step_stepOf p c).nearer h with ⟨k, heq⟩ | hlt
    · rw [Rounds.Helps, heq, remaining_step_notices hown]
      exact hhelps
    · exact absurd hsame (Nat.ne_of_lt hlt)
  helps _ h hjoined := h.exists_nearer hjoined

theorem countP_kinds_le (l : List (Thread α)) :
    l.countP Thread.isBusy + l.countP Thread.isBlocked + l.countP Thread.isReady ≤ l.length := by
  induction l with
  | nil => exact Nat.le_refl _
  | cons w l ih =>
      simp only [List.countP_cons, List.length_cons]
      cases w with
      | _ =>
          simp only [Thread.isBusy, Thread.isBlocked, Thread.isReady, if_true, Bool.false_eq_true,
            if_false]
          omega

theorem remaining_le (p : CondPool α) :
    p.remaining ≤ 2 * p.tasks.length + 3 * p.workers.length + 1 := by
  have hle := countP_kinds_le p.workers
  unfold remaining busy sleeping ready
  split
  · omega
  · omega

/-- If every task returns, so does the destructor, from every state of every run in which `stop` is
set. Executing a task is one call of its worker; after as many rounds as there are tasks and workers
to account for, in each of which every worker and the destructor are called, in any order and with
any other calls between, every worker has been joined. -/
theorem destructor_returns (threads : Nat) (l : List (Call α))
    (hstop : (run threads l).stop = true) (rounds : List (List (Call α)))
    (hrounds : ∀ r ∈ rounds, .destroy ∈ r ∧ ∀ i < threads, .work i ∈ r)
    (hlength : 2 * (run threads l).tasks.length + 3 * threads + 1 ≤ rounds.length) :
    (run threads (l ++ rounds.flatten)).Joined := by
  have hsized := sized_run threads l
  have hrun : run threads (l ++ rounds.flatten) = rounds.flatten.foldl step (run threads l) :=
    List.foldl_append
  have hle := remaining_le (run threads l)
  rw [hsized.length] at hle
  rw [hrun]
  refine (progress threads).reaches ⟨hsized, heard_run threads l, hstop⟩ ?_ (by omega)
  intro r hr c hown
  cases c with
  | work i => exact (hrounds r hr).2 i hown
  | destroy => exact (hrounds r hr).1
  | _ => exact absurd hown (by simp [isOwn])

/-- A blocked worker, a task that it has not been notified of, and the destructor. -/
theorem destructor_returns_blocked :
    (run 1 ([.work 0, .work 0, .enqueue 5, .destroy] ++
      (List.replicate 6 [.destroy, .work 0]).flatten)).Joined :=
  destructor_returns 1 [.work 0, .work 0, .enqueue 5, .destroy] rfl
    (List.replicate 6 [.destroy, .work 0])
    (by
      intro r hr
      obtain rfl := List.eq_of_mem_replicate hr
      refine ⟨by simp, ?_⟩
      intro i hi
      have hzero : i = 0 := Nat.lt_one_iff.1 hi
      subst hzero
      simp)
    (by decide)

end CondPool

end Grit
