import Grit.ThreadPool.Condition

/-!
# No wakeup is lost

`notify_one` is called outside of the section that queues the task, and it is without effect when
no worker is blocked. Still, a task is not left in the queue by workers that all sleep: while one
of them sleeps, each task has a notification to come or a worker that is about to look at the
queue.
-/

namespace Grit

namespace CondPool

variable {α : Type*}

/-- The workers that sleep. -/
def sleeping (p : CondPool α) : Nat := p.workers.countP Thread.isBlocked

/-- The workers that are about to look at the queue. -/
def ready (p : CondPool α) : Nat := p.workers.countP Thread.isReady

/-- The workers that execute a task. -/
def busy (p : CondPool α) : Nat := p.workers.countP Thread.isBusy

theorem countP_around (f : Thread α → Bool) (l₁ l₂ : List (Thread α)) (w : Thread α) :
    (l₁ ++ w :: l₂).countP f = l₁.countP f + l₂.countP f + if f w then 1 else 0 := by
  rw [List.countP_append, List.countP_cons, Nat.add_assoc]

/-- While a worker sleeps, each task in the queue has a notification to come or a worker that is
about to look at the queue. After the destructor has notified, no worker sleeps. -/
structure Heard (p : CondPool α) : Prop where
  running : p.stop = false → p.notified = false ∧ ∀ w ∈ p.workers, w ≠ .exited
  covered : p.stop = false → 0 < p.sleeping → p.tasks.length ≤ p.notices + p.ready
  awake : p.notified = true → p.stop = true ∧ p.sleeping = 0

theorem heard_init (threads : Nat) : Heard (init threads : CondPool α) := by
  refine ⟨fun _ => ⟨rfl, ?_⟩, fun _ _ => Nat.zero_le _, by simp [init]⟩
  intro w hw
  rw [List.eq_of_mem_replicate hw]
  simp

/-- One worker moves; the others count as before. -/
theorem Heard.move {p p' : CondPool α} (h : Heard p) {l₁ l₂ : List (Thread α)} {w w' : Thread α}
    (hw : p.workers = l₁ ++ w :: l₂) (hw' : p'.workers = l₁ ++ w' :: l₂)
    (hstop : p'.stop = p.stop) (hnotified : p'.notified = p.notified)
    (hexit : p.stop = false → w' ≠ .exited)
    (hcovered : p.stop = false → 0 < p'.sleeping →
      (0 < p.sleeping → p.tasks.length ≤ p.notices + p.ready) →
        p'.tasks.length ≤ p'.notices + p'.ready)
    (hblocked : p.stop = true → w'.isBlocked = true → w.isBlocked = true) : Heard p' := by
  constructor
  · intro hrun
    rw [hstop] at hrun
    obtain ⟨hn, hall⟩ := h.running hrun
    refine ⟨hnotified.trans hn, ?_⟩
    intro v hv
    rw [hw', List.mem_append, List.mem_cons] at hv
    rcases hv with hv | rfl | hv
    · exact hall v (by simp [hw, hv])
    · exact hexit hrun
    · exact hall v (by simp [hw, hv])
  · intro hrun hsleep
    rw [hstop] at hrun
    exact hcovered hrun hsleep (h.covered hrun)
  · intro hn
    rw [hnotified] at hn
    obtain ⟨hs, hzero⟩ := h.awake hn
    refine ⟨hstop.trans hs, ?_⟩
    rw [sleeping, hw, countP_around] at hzero
    rw [sleeping, hw', countP_around]
    have hle := hblocked hs
    by_cases hb : w'.isBlocked = true
    · rw [if_pos (hle hb)] at hzero
      omega
    · rw [if_neg hb]
      omega

theorem StepOf.heard {p p' : CondPool α} (hstep : StepOf p p') (h : Heard p) : Heard p' := by
  cases hstep with
  | skip => exact h
  | enqueue task hstop =>
      refine ⟨h.running, ?_, h.awake⟩
      intro _ hsleep
      have hold := h.covered hstop hsleep
      have hready : ready { p with
          tasks := p.tasks ++ [task]
          notices := p.notices + 1
          enqueued := p.enqueued ++ [task] } = p.ready := rfl
      rw [hready, List.length_append, List.length_singleton]
      dsimp only
      omega
  | notify l₁ l₂ hw hn =>
      refine h.move hw rfl rfl rfl (by simp) ?_ (by simp [Thread.isBlocked])
      intro _ _ hold
      simp only [sleeping, ready, hw, countP_around, Thread.isBlocked, Thread.isReady] at hold ⊢
      have hle := hold (by simp)
      simp only [if_true, Bool.false_eq_true, if_false] at hle ⊢
      omega
  | unheard hw =>
      refine ⟨h.running, ?_, h.awake⟩
      intro _ hsleep
      change 0 < p.workers.countP Thread.isBlocked at hsleep
      omega
  | wake l₁ l₂ hw =>
      refine h.move hw rfl rfl rfl (by simp) ?_ (by simp [Thread.isBlocked])
      intro _ _ hold
      simp only [sleeping, ready, hw, countP_around, Thread.isBlocked, Thread.isReady] at hold ⊢
      have hle := hold (by simp)
      simp only [if_true, Bool.false_eq_true, if_false] at hle ⊢
      omega
  | enter l₁ l₂ hw hstop =>
      refine h.move hw rfl rfl rfl (by simp) ?_ (by simp [Thread.isBlocked])
      intro _ hsleep hold
      simp only [sleeping, ready, hw, countP_around, Thread.isBlocked, Thread.isReady]
        at hsleep hold ⊢
      exact hold hsleep
  | leave l₁ l₂ hw hstop =>
      refine h.move hw rfl rfl rfl (by simp [hstop]) ?_ (by simp [Thread.isBlocked])
      intro hrun
      simp [hstop] at hrun
  | take l₁ l₂ hw task tasks htasks =>
      refine h.move hw rfl rfl rfl (by simp) ?_ (by simp [Thread.isBlocked])
      intro _ hsleep hold
      simp only [sleeping, ready, hw, htasks, countP_around, Thread.isBlocked, Thread.isReady,
        List.length_cons] at hsleep hold ⊢
      have hle := hold hsleep
      simp only [if_true, Bool.false_eq_true, if_false] at hle ⊢
      omega
  | drained l₁ l₂ hw hstop htasks =>
      refine h.move hw rfl rfl rfl (by simp [hstop]) ?_ (by simp [Thread.isBlocked])
      intro hrun
      simp [hstop] at hrun
  | block l₁ l₂ hw hstop htasks =>
      refine h.move hw rfl rfl rfl (by simp) ?_ (by simp [hstop])
      intro _ _ _
      simp [htasks]
  | execute l₁ l₂ task hw =>
      refine h.move hw rfl rfl rfl (by simp) ?_ (by simp [Thread.isBlocked])
      intro _ hsleep hold
      simp only [sleeping, ready, hw, countP_around, Thread.isBlocked, Thread.isReady]
        at hsleep hold ⊢
      have hle := hold hsleep
      simp only [if_true, Bool.false_eq_true, if_false] at hle ⊢
      omega
  | stop hstop =>
      refine ⟨by simp, by simp, ?_⟩
      intro hn
      obtain ⟨hfalse, -⟩ := h.running hstop
      exact absurd hn (by simp [hfalse])
  | notifyAll hstop hn =>
      refine ⟨by simp [hstop], by simp [hstop], fun _ => ⟨hstop, ?_⟩⟩
      refine List.countP_eq_zero.2 fun w hw => ?_
      obtain ⟨v, -, rfl⟩ := List.mem_map.1 hw
      simp [Thread.isBlocked_awaken]
  | join hstop hn hw => exact ⟨by simp [hstop], by simp [hstop], h.awake⟩

theorem heard_run (threads : Nat) (l : List (Call α)) : Heard (run threads l) := by
  induction l using List.reverseRecOn with
  | nil => exact heard_init threads
  | append_singleton l c ih =>
      rw [run_concat]
      exact (step_stepOf _ c).heard ih

/-- No notification is to come, and no worker moves when it is called. -/
def Idle (p : CondPool α) : Prop := p.notices = 0 ∧ ∀ i < p.workers.length, p.work i = p

/-- A worker that neither sleeps nor has returned moves. -/
theorem work_ne {p : CondPool α} {i : Nat} {w : Thread α} (hw : p.workers[i]? = some w)
    (hmoves : w.isReady = true ∨ w.isBusy = true) : p.work i ≠ p := by
  have hi : i < p.workers.length := (List.getElem?_eq_some_iff.1 hw).1
  have hset : ∀ w', w' ≠ w → p.workers.set i w' ≠ p.workers := by
    intro w' hne heq
    have hself := List.getElem?_set_self (a := w') hi
    rw [heq, hw] at hself
    exact hne (Option.some.inj hself).symm
  intro heq
  have hworkers := congrArg CondPool.workers heq
  cases w with
  | test =>
      simp only [work, hw] at hworkers
      split at hworkers
      · exact hset _ (by simp) hworkers
      · exact hset _ (by simp) hworkers
  | lock =>
      simp only [work, hw] at hworkers
      split at hworkers
      · split at hworkers
        · exact hset _ (by simp) hworkers
        · exact hset _ (by simp) hworkers
      · exact hset _ (by simp) hworkers
  | holds task =>
      simp only [work, hw] at hworkers
      exact hset _ (by simp) hworkers
  | blocked => simp [Thread.isReady, Thread.isBusy] at hmoves
  | exited => simp [Thread.isReady, Thread.isBusy] at hmoves

theorem Idle.rests {p : CondPool α} (h : Idle p) : ∀ w ∈ p.workers, w = .blocked ∨ w = .exited := by
  intro w hw
  obtain ⟨i, hi, hget⟩ := List.getElem_of_mem hw
  have hsome : p.workers[i]? = some w := by rw [List.getElem?_eq_getElem hi, hget]
  cases w with
  | blocked => exact Or.inl rfl
  | exited => exact Or.inr rfl
  | test => exact absurd (h.2 i hi) (work_ne hsome (Or.inl rfl))
  | lock => exact absurd (h.2 i hi) (work_ne hsome (Or.inl rfl))
  | holds task => exact absurd (h.2 i hi) (work_ne hsome (Or.inr rfl))

/-- `threads` workers, of which the first ones may be joined. -/
structure Sized (threads : Nat) (p : CondPool α) : Prop where
  length : p.workers.length = threads
  joined : p.joined ≤ threads

theorem StepOf.sized {threads : Nat} {p p' : CondPool α} (hstep : StepOf p p')
    (h : Sized threads p) : Sized threads p' := by
  have hlength : ∀ {l₁ l₂ : List (Thread α)} {w : Thread α} (w' : Thread α),
      p.workers = l₁ ++ w :: l₂ → (l₁ ++ w' :: l₂).length = threads := by
    intro l₁ l₂ w w' hw
    rw [← h.length, hw]
    simp
  cases hstep with
  | skip => exact h
  | enqueue => exact ⟨h.length, h.joined⟩
  | notify l₁ l₂ hw hn => exact ⟨hlength _ hw, h.joined⟩
  | unheard => exact ⟨h.length, h.joined⟩
  | wake l₁ l₂ hw => exact ⟨hlength _ hw, h.joined⟩
  | enter l₁ l₂ hw hstop => exact ⟨hlength _ hw, h.joined⟩
  | leave l₁ l₂ hw hstop => exact ⟨hlength _ hw, h.joined⟩
  | take l₁ l₂ hw task tasks htasks => exact ⟨hlength _ hw, h.joined⟩
  | drained l₁ l₂ hw hstop htasks => exact ⟨hlength _ hw, h.joined⟩
  | block l₁ l₂ hw hstop htasks => exact ⟨hlength _ hw, h.joined⟩
  | execute l₁ l₂ task hw => exact ⟨hlength _ hw, h.joined⟩
  | stop => exact ⟨h.length, h.joined⟩
  | notifyAll => exact ⟨(List.length_map _).trans h.length, h.joined⟩
  | join hstop hn hw =>
      have hlt := (List.getElem?_eq_some_iff.1 hw).1
      rw [h.length] at hlt
      exact ⟨h.length, hlt⟩

theorem sized_run (threads : Nat) (l : List (Call α)) : Sized threads (run threads l) := by
  induction l using List.reverseRecOn with
  | nil => exact ⟨by simp [run, init], Nat.zero_le _⟩
  | append_singleton l c ih =>
      rw [run_concat]
      exact (step_stepOf _ c).sized ih

/-- A pool that is idle and not stopped sleeps over an empty queue. -/
theorem Idle.asleep {threads : Nat} {p : CondPool α} (hidle : Idle p) (hheard : Heard p)
    (hlength : p.workers.length = threads) (hthreads : 0 < threads) (hstop : p.stop = false) :
    p.tasks = [] ∧ p.held = [] := by
  have hblocked : ∀ w ∈ p.workers, w = .blocked := by
    intro w hw
    exact (hidle.rests w hw).resolve_right ((hheard.running hstop).2 w hw)
  have hsleeping : p.sleeping = threads := by
    rw [sleeping, ← hlength, List.countP_eq_length]
    intro w hw
    rw [hblocked w hw]
    rfl
  have hready : p.ready = 0 := by
    refine List.countP_eq_zero.2 fun w hw => ?_
    rw [hblocked w hw]
    simp [Thread.isReady]
  have hcovered := hheard.covered hstop (by omega)
  rw [hidle.1, hready, Nat.le_zero, List.length_eq_zero_iff] at hcovered
  refine ⟨hcovered, List.filterMap_eq_nil_iff.2 fun w hw => ?_⟩
  obtain ⟨v, hv, rfl⟩ := List.mem_map.1 hw
  rw [hblocked v hv]
  rfl

end CondPool

end Grit
