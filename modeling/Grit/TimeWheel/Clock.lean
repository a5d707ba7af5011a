import Grit.TimeWheel.Refinement

/-!
# The time wheel and the clock

A wheel that is polled by `takeAllTimeout` at readings of the clock. `addTimer` counts the
timeout from `curslot_`, which stands where the last poll left it, and not from the reading
at the call. A timer therefore waits for the first poll that is `T + 1` milliseconds after
the poll before its addition.
-/

namespace Grit

namespace TimeWheel

open DeadlineQueue History

variable {α : Type*}

/-! ### A poll -/

theorem now_iterate_tick (q : DeadlineQueue α) (k : Nat) :
    (DeadlineQueue.tick^[k] q).now = q.now + k := by
  induction k generalizing q with
  | zero => rfl
  | succ k ih =>
      rw [Function.iterate_succ_apply, ih]
      simp only [DeadlineQueue.tick]
      omega

theorem next_iterate_tick (q : DeadlineQueue α) (k : Nat) :
    (DeadlineQueue.tick^[k] q).next = q.next := by
  induction k generalizing q with
  | zero => rfl
  | succ k ih => exact ih q.tick

theorem mem_pending_iterate_tick {q : DeadlineQueue α} {k : Nat} {e : Entry α}
    (h : e ∈ (DeadlineQueue.tick^[k] q).pending) : e ∈ q.pending := by
  induction k generalizing q with
  | zero => exact h
  | succ k ih => exact List.mem_of_mem_filter (ih (q := q.tick) h)

theorem Refines.tickTimes {q : DeadlineQueue α} {w : TimeWheel α} (h : Refines q w) (k : Nat) :
    Refines (DeadlineQueue.tick^[k] q) (w.tickTimes k).1 := by
  induction k generalizing q w with
  | zero => exact h
  | succ k ih => exact ih h.tick

/-- The timers called in `k` ticks are those of entries that are due by then. -/
theorem Refines.mem_called {q : DeadlineQueue α} {w : TimeWheel α} (h : Refines q w) {k : Nat}
    {t : Timer α} (ht : t ∈ (w.tickTimes k).2) :
    ∃ e ∈ q.pending, e.due ≤ q.now + k ∧ t.id = e.id ∧ t.fn = e.item := by
  induction k generalizing q w with
  | zero => simp [TimeWheel.tickTimes] at ht
  | succ k ih =>
      rw [tickTimes_succ] at ht
      rcases List.mem_append.1 ht with ht | ht
      · rw [h.called] at ht
        obtain ⟨e, he, rfl⟩ := List.mem_map.1 ht
        obtain ⟨he, hdue⟩ := List.mem_filter.1 he
        refine ⟨e, he, ?_, rfl, rfl⟩
        simp only [decide_eq_true_eq] at hdue
        omega
      · obtain ⟨e, he, hdue, hid, hfn⟩ := ih h.tick ht
        refine ⟨e, List.mem_of_mem_filter he, ?_, hid, hfn⟩
        simp only [DeadlineQueue.tick] at hdue
        omega

/-- An entry that is due is called. -/
theorem Refines.exists_called {q : DeadlineQueue α} {w : TimeWheel α} (h : Refines q w)
    {e : Entry α} (he : e ∈ q.pending) {k : Nat} (hdue : e.due ≤ q.now + k) :
    ∃ t ∈ (w.tickTimes k).2, t.fn = e.item := by
  induction k generalizing q w with
  | zero =>
      have := h.ordered.later e he
      omega
  | succ k ih =>
      rw [tickTimes_succ]
      by_cases hnow : e.due = q.now + 1
      · have hmem : e ∈ q.due := List.mem_filter.2 ⟨he, by simpa using hnow⟩
        refine ⟨w.timerOf q.now e, List.mem_append_left _ ?_, rfl⟩
        rw [h.called]
        exact List.mem_map_of_mem hmem
      · have hmem : e ∈ q.tick.pending := List.mem_filter.2 ⟨he, by simpa using hnow⟩
        have hlater : e.due ≤ q.tick.now + k := by
          simp only [DeadlineQueue.tick]
          omega
        obtain ⟨t, ht, hfn⟩ := ih h.tick hmem hlater
        exact ⟨t, List.mem_append_right _ ht, hfn⟩

/-- Two readings that are the same as an `int`. -/
def SameInt (a b : Nat) : Prop := a % 4294967296 = b % 4294967296

theorem sameInt_keptReading (reading : Nat) : SameInt (keptReading reading) reading := by
  simp only [SameInt, keptReading, toInt]
  omega

/-- The loop of a poll runs once for each millisecond since the last one. The readings are
only known up to the range of an `int`. -/
theorem elapsed_eq {last reading start : Nat} (hle : last ≤ reading)
    (hlt : reading - last < 2147483648) (hstart : SameInt start last) :
    (elapsed reading start).toNat = reading - last := by
  simp only [SameInt] at hstart
  simp only [elapsed, keptReading, toInt]
  omega

theorem sameInt_takeAllTimeout (reading : Nat) (w : TimeWheel α) :
    SameInt (w.takeAllTimeout reading).1.starttime reading := sameInt_keptReading reading

theorem takeAllTimeout_nslots (reading : Nat) (w : TimeWheel α) :
    (w.takeAllTimeout reading).1.nslots = w.nslots := tickTimes_nslots _ w

/-- A poll is as many ticks as milliseconds have passed since the last one. -/
theorem Refines.takeAllTimeout {q : DeadlineQueue α} {w : TimeWheel α} (h : Refines q w)
    {last reading : Nat} (hle : last ≤ reading) (hlt : reading - last < 2147483648)
    (hstart : SameInt w.starttime last) :
    Refines (DeadlineQueue.tick^[reading - last] q) (w.takeAllTimeout reading).1 := by
  have hticks := h.tickTimes (reading - last)
  rw [← elapsed_eq hle hlt hstart] at hticks ⊢
  exact ⟨hticks.ordered, hticks.cur, hticks.next, hticks.slots⟩

theorem Refines.mem_taken {q : DeadlineQueue α} {w : TimeWheel α} (h : Refines q w)
    {last reading : Nat} (hle : last ≤ reading) (hlt : reading - last < 2147483648)
    (hstart : SameInt w.starttime last) {t : Timer α} (ht : t ∈ (w.takeAllTimeout reading).2) :
    ∃ e ∈ q.pending, e.due ≤ q.now + (reading - last) ∧ t.id = e.id ∧ t.fn = e.item := by
  rw [← elapsed_eq hle hlt hstart]
  exact h.mem_called ht

theorem Refines.exists_taken {q : DeadlineQueue α} {w : TimeWheel α} (h : Refines q w)
    {last reading : Nat} (hle : last ≤ reading) (hlt : reading - last < 2147483648)
    (hstart : SameInt w.starttime last) {e : Entry α} (he : e ∈ q.pending)
    (hdue : e.due ≤ q.now + (reading - last)) :
    ∃ t ∈ (w.takeAllTimeout reading).2, t.fn = e.item := by
  rw [← elapsed_eq hle hlt hstart] at hdue
  exact h.exists_called he hdue

end TimeWheel

/-! ### Runs -/

namespace ClockedWheel

/-- A call at a reading of the clock. -/
inductive Op (α : Type*) where
  | add (reading timeout : Nat) (fn : α)
  | take (reading : Nat)

end ClockedWheel

/-- A wheel, the reading at its last poll or construction, and the latest reading. `added` has
the reading and the timeout of each timer; `log` has each timer that fired with the reading of
the poll that fired it. -/
structure ClockedWheel (α : Type*) where
  wheel : TimeWheel α
  last : Nat
  now : Nat
  added : List (Nat × Nat)
  log : List (Nat × Nat)

namespace ClockedWheel

open DeadlineQueue History TimeWheel

variable {α : Type*}

def init (nslots reading : Nat) : ClockedWheel α :=
  { wheel := TimeWheel.init nslots reading, last := reading, now := reading, added := [],
    log := [] }

def step (s : ClockedWheel α) : Op α → ClockedWheel α
  | .add reading timeout fn =>
      { s with
        wheel := (s.wheel.addTimer timeout fn).1
        now := reading
        added := s.added ++ [(reading, timeout)] }
  | .take reading =>
      let taken := s.wheel.takeAllTimeout reading
      { s with
        wheel := taken.1
        last := reading
        now := reading
        log := s.log ++ taken.2.map fun t => (t.id, reading) }

def run (nslots reading : Nat) (l : List (Op α)) : ClockedWheel α :=
  l.foldl step (init nslots reading)

/-- The clock does not go back, polls are less than `2 ^ 31` milliseconds apart, and the number
of turns of a timer fits an `int`. -/
def Allowed (nslots reading : Nat) (pre : List (Op α)) : Op α → Prop
  | .add t timeout _ => (run nslots reading pre).now ≤ t ∧ timeout / nslots < 2147483648
  | .take t => (run nslots reading pre).now ≤ t ∧ t - (run nslots reading pre).last < 2147483648

/-- A timer is added at most one millisecond after the last poll, or has no timeout. -/
def Prompt (nslots reading : Nat) (pre : List (Op α)) : Op α → Prop
  | .add t timeout _ => t ≤ (run nslots reading pre).last + 1 ∨ timeout = 0
  | .take _ => True

instance (nslots reading : Nat) (pre : List (Op α)) (op : Op α) :
    Decidable (Allowed nslots reading pre op) :=
  match op with
  | .add t timeout _ => inferInstanceAs
      (Decidable ((run nslots reading pre).now ≤ t ∧ timeout / nslots < 2147483648))
  | .take t => inferInstanceAs (Decidable ((run nslots reading pre).now ≤ t ∧
      t - (run nslots reading pre).last < 2147483648))

instance (nslots reading : Nat) (pre : List (Op α)) (op : Op α) :
    Decidable (Prompt nslots reading pre op) :=
  match op with
  | .add t timeout _ =>
      inferInstanceAs (Decidable (t ≤ (run nslots reading pre).last + 1 ∨ timeout = 0))
  | .take _ => inferInstanceAs (Decidable True)

/-- Each timer fired at a reading that is its timeout or more after its addition. -/
def NeverEarly (s : ClockedWheel α) : Prop :=
  ∀ p ∈ s.log, ∃ a ∈ s.added[p.1]?, a.1 + a.2 ≤ p.2

instance (s : ClockedWheel α) : Decidable s.NeverEarly :=
  inferInstanceAs (Decidable (∀ p ∈ s.log, ∃ a ∈ s.added[p.1]?, a.1 + a.2 ≤ p.2))

/-- The wheel was built at `start` and refines a queue whose ticks are the milliseconds from
then to the last poll. -/
structure Follows (nslots start : Nat) (q : DeadlineQueue α) (s : ClockedWheel α) : Prop where
  refines : Refines q s.wheel
  nslots : s.wheel.nslots = nslots
  polled : SameInt s.wheel.starttime s.last
  elapsed : start + q.now = s.last
  clock : s.last ≤ s.now
  length : s.added.length = q.next
  added : ∀ e ∈ q.pending, ∃ a ∈ s.added[e.id]?,
    a.1 ≤ s.now ∧ (a.1 + a.2 ≤ start + e.due ∨ a.2 = 0)
  early : s.NeverEarly

theorem follows_init {nslots : Nat} (h : 0 < nslots) (reading : Nat) :
    Follows nslots reading (empty : DeadlineQueue α) (init nslots reading) where
  refines := refines_init h reading
  nslots := rfl
  polled := rfl
  elapsed := rfl
  clock := Nat.le_refl _
  length := rfl
  added := by simp [empty]
  early := by simp [NeverEarly, init]

theorem NeverEarly.add {s : ClockedWheel α} (h : s.NeverEarly) (reading timeout : Nat) (fn : α) :
    (s.step (.add reading timeout fn)).NeverEarly := by
  intro p hp
  obtain ⟨a, ha, hle⟩ := h p hp
  have hlt := (List.getElem?_eq_some_iff.1 ha).1
  exact ⟨a, (List.getElem?_append_left hlt).trans ha, hle⟩

theorem Follows.add {nslots start : Nat} {q : DeadlineQueue α} {s : ClockedWheel α}
    (h : Follows nslots start q s) {reading timeout : Nat} (hnow : s.now ≤ reading)
    (hT : timeout / nslots < 2147483648) (hprompt : reading ≤ s.last + 1 ∨ timeout = 0) (fn : α) :
    Follows nslots start (q.add timeout fn) (s.step (.add reading timeout fn)) where
  refines := h.refines.addTimer (h.nslots.symm ▸ hT) fn
  nslots := h.nslots
  polled := h.polled
  elapsed := h.elapsed
  clock := h.clock.trans hnow
  length := by simp [step, DeadlineQueue.add, h.length]
  added := fun e he => by
    change ∃ a ∈ (s.added ++ [(reading, timeout)])[e.id]?, a.1 ≤ reading ∧ _
    rcases List.mem_append.1 he with he | he
    · obtain ⟨a, ha, hle, hdue⟩ := h.added e he
      have hlt := (List.getElem?_eq_some_iff.1 ha).1
      exact ⟨a, (List.getElem?_append_left hlt).trans ha, hle.trans hnow, hdue⟩
    · obtain rfl := List.mem_singleton.1 he
      refine ⟨(reading, timeout), h.length ▸ List.getElem?_concat_length, Nat.le_refl _, ?_⟩
      -- the deadline is counted from the last poll
      have helapsed := h.elapsed
      rcases hprompt with hle | hzero
      · refine Or.inl ?_
        dsimp only
        omega
      · exact Or.inr hzero
  early := h.early.add reading timeout fn

theorem Follows.take {nslots start : Nat} {q : DeadlineQueue α} {s : ClockedWheel α}
    (h : Follows nslots start q s) {reading : Nat} (hnow : s.now ≤ reading)
    (hgap : reading - s.last < 2147483648) :
    Follows nslots start (DeadlineQueue.tick^[reading - s.last] q) (s.step (.take reading)) where
  refines := h.refines.takeAllTimeout (h.clock.trans hnow) hgap h.polled
  nslots := (takeAllTimeout_nslots reading s.wheel).trans h.nslots
  polled := sameInt_takeAllTimeout reading s.wheel
  elapsed := by
    have hclock := h.clock
    have helapsed := h.elapsed
    rw [now_iterate_tick]
    change start + (q.now + (reading - s.last)) = reading
    omega
  clock := Nat.le_refl _
  length := h.length.trans (next_iterate_tick q _).symm
  added := fun e he => by
    obtain ⟨a, ha, hle, hdue⟩ := h.added e (mem_pending_iterate_tick he)
    exact ⟨a, ha, hle.trans hnow, hdue⟩
  early := fun p hp => by
    rcases List.mem_append.1 hp with hp | hp
    · exact h.early p hp
    · obtain ⟨t, ht, rfl⟩ := List.mem_map.1 hp
      obtain ⟨e, he, hdue, hid, -⟩ :=
        h.refines.mem_taken (h.clock.trans hnow) hgap h.polled ht
      obtain ⟨a, ha, hle, hor⟩ := h.added e he
      have hclock := h.clock
      have helapsed := h.elapsed
      refine ⟨a, hid ▸ ha, ?_⟩
      dsimp only
      omega

theorem Follows.step {nslots start : Nat} {pre : List (Op α)}
    (h : ∃ q, Follows nslots start q (run nslots start pre)) {op : Op α}
    (hop : Allowed nslots start pre op) (hprompt : Prompt nslots start pre op) :
    ∃ q, Follows nslots start q ((run nslots start pre).step op) := by
  obtain ⟨q, h⟩ := h
  cases op with
  | add reading timeout fn => exact ⟨_, h.add hop.1 hop.2 hprompt fn⟩
  | take reading => exact ⟨_, h.take hop.1 hop.2⟩

/-- In a run whose timers are all added promptly, no timer fires early. -/
theorem neverEarly_of_prompt {nslots : Nat} (h : 0 < nslots) (start : Nat) (l : List (Op α))
    (hl : Each (Allowed nslots start) l) (hprompt : Each (Prompt nslots start) l) :
    (run nslots start l).NeverEarly := by
  have hboth : Each (fun pre op => Allowed nslots start pre op ∧ Prompt nslots start pre op) l :=
    fun pre op post heq => ⟨hl pre op post heq, hprompt pre op post heq⟩
  have hinv := foldl_invariant (I := fun _ s => ∃ q, Follows nslots start q s) _ l
    ⟨empty, follows_init h start⟩ (fun pre op hpre hop => Follows.step hpre hop.1 hop.2) hboth
  obtain ⟨q, hq⟩ := hinv
  exact hq.early

/-- The wheel of the log player, polled once more before the timer is due. -/
theorem neverEarly_of_prompt_sample :
    (run 6000 100 [.add 101 5 (), .take 104, .take 106]).log = [(0, 106)] ∧
      (run 6000 100 [.add 101 5 (), .take 104, .take 106]).NeverEarly :=
  ⟨by decide,
    neverEarly_of_prompt (by decide) 100 _ (by decide) (by decide)⟩

/-- A timer of five milliseconds that is added four milliseconds after the last poll fires
after two. -/
theorem not_neverEarly_late :
    Each (Allowed 6000 100) [Op.add 104 5 (), .take 106] ∧
      (run 6000 100 [.add 104 5 (), .take 106]).log = [(0, 106)] ∧
      ¬(run 6000 100 [.add 104 5 (), .take 106]).NeverEarly := by
  decide

end ClockedWheel

end Grit
