import Grit.TimeWheel.Refinement

/-!
# Runs of the time wheel

A wheel with its user, who keeps the pointers that `addTimer` returned. The run of a list of
operations records which timers were called in which tick.
-/

namespace Grit

namespace TimeWheel

open DeadlineQueue History

variable {α : Type*}

/-- The pointers are in the order of addition; `log` has the tick and the timer of each call. -/
structure Session (α : Type*) where
  wheel : TimeWheel α
  timers : List (Timer α)
  ticks : Nat
  log : List (Nat × Nat)

namespace Session

def init (nslots reading : Nat) : Session α :=
  { wheel := TimeWheel.init nslots reading, timers := [], ticks := 0, log := [] }

/-- A deletion names the timer by its place in the order of addition. -/
def step (s : Session α) : Op α → Session α
  | .add timeout fn =>
      let (wheel, timer) := s.wheel.addTimer timeout fn
      { s with wheel, timers := s.timers ++ [timer] }
  | .del id => { s with wheel := s.wheel.delTimer s.timers[id]? }
  | .tick =>
      let (wheel, called) := s.wheel.tick
      { s with
        wheel
        ticks := s.ticks + 1
        log := s.log ++ called.map fun t => (s.ticks + 1, t.id) }

def run (nslots reading : Nat) (l : List (Op α)) : Session α := l.foldl step (init nslots reading)

/-- The number of turns of a new timer fits an `int`, and a timer that is deleted is still
pending. -/
def Allowed (nslots reading : Nat) (pre : List (Op α)) : Op α → Prop
  | .add timeout _ => timeout / nslots < 2147483648
  | .del id => (run nslots reading pre).wheel.Holds id
  | .tick => True

instance (nslots reading : Nat) (pre : List (Op α)) (op : Op α) :
    Decidable (Allowed nslots reading pre op) :=
  match op with
  | .add timeout _ => inferInstanceAs (Decidable (timeout / nslots < 2147483648))
  | .del id => inferInstanceAs (Decidable ((run nslots reading pre).wheel.Holds id))
  | .tick => inferInstanceAs (Decidable True)

/-- The session refines a queue, and the pointer of a pending entry leads to its slot. -/
structure Follows (nslots : Nat) (q : DeadlineQueue α) (s : Session α) : Prop where
  refines : Refines q s.wheel
  nslots : s.wheel.nslots = nslots
  length : s.timers.length = q.next
  timers : ∀ e ∈ q.pending, ∃ t, s.timers[e.id]? = some t ∧
    t.id = e.id ∧ s.wheel.place q.now e = t.slot
  ticks : s.ticks = q.now
  log : s.log = q.fired.map fun p => (p.1, p.2.id)

theorem follows_init {nslots : Nat} (h : 0 < nslots) (reading : Nat) :
    Follows nslots (empty : DeadlineQueue α) (init nslots reading) where
  refines := refines_init h reading
  nslots := rfl
  length := rfl
  timers := by simp [empty]
  ticks := rfl
  log := rfl

theorem Follows.add {nslots : Nat} {q : DeadlineQueue α} {s : Session α}
    (h : Follows nslots q s) {timeout : Nat} (hT : timeout / nslots < 2147483648) (fn : α) :
    Follows nslots (q.add timeout fn) (s.step (.add timeout fn)) where
  refines := h.refines.addTimer (h.nslots.symm ▸ hT) fn
  nslots := h.nslots
  length := by simp [step, DeadlineQueue.add, h.length]
  timers := fun e he => by
    change ∃ t, (s.timers ++ [s.wheel.newTimer timeout fn])[e.id]? = some t ∧ _
    rcases List.mem_append.1 he with he | he
    · obtain ⟨t, ht, hid, hplace⟩ := h.timers e he
      have hlt := (List.getElem?_eq_some_iff.1 ht).1
      exact ⟨t, (List.getElem?_append_left hlt).trans ht, hid, hplace⟩
    · obtain rfl := List.mem_singleton.1 he
      refine ⟨s.wheel.newTimer timeout fn, ?_, h.refines.next, ?_⟩
      · exact h.length ▸ List.getElem?_concat_length
      · exact (congrArg Timer.slot (h.refines.newTimer_eq (h.nslots.symm ▸ hT) fn)).symm
  ticks := h.ticks
  log := h.log

theorem Follows.del {nslots : Nat} {q : DeadlineQueue α} {s : Session α}
    (h : Follows nslots q s) {id : Nat} (hid : s.wheel.Holds id) :
    Follows nslots (q.del id) (s.step (.del id)) := by
  obtain ⟨e, he, rfl⟩ := h.refines.holds.1 hid
  obtain ⟨t, ht, htid, -⟩ := h.timers e he
  have hslot : ∀ e' ∈ q.pending, e'.id = t.id → s.wheel.place q.now e' = t.slot := by
    intro e' he' hid'
    obtain ⟨t', ht', -, hplace⟩ := h.timers e' he'
    rw [hid', htid, ht] at ht'
    exact Option.some.inj ht' ▸ hplace
  have hstep : s.step (.del e.id) = { s with wheel := s.wheel.delTimer (some t) } := by
    simp only [step, ht]
  rw [hstep, ← htid]
  exact {
    refines := h.refines.delTimer hslot
    nslots := h.nslots
    length := h.length
    timers := fun e' he' => h.timers e' (List.mem_of_mem_filter he')
    ticks := h.ticks
    log := h.log }

theorem Follows.tick {nslots : Nat} {q : DeadlineQueue α} {s : Session α}
    (h : Follows nslots q s) : Follows nslots q.tick (s.step .tick) where
  refines := h.refines.tick
  nslots := h.nslots
  length := h.length
  timers := fun e he => by
    have hlater := h.refines.tick.ordered.later e he
    obtain ⟨t, ht, hid, hplace⟩ := h.timers e (List.mem_of_mem_filter he)
    exact ⟨t, ht, hid, (place_tick s.wheel hlater).trans hplace⟩
  ticks := congrArg (· + 1) h.ticks
  log := by
    simp [step, DeadlineQueue.tick, h.log, h.refines.called, h.ticks, timerOf]

theorem Follows.step {nslots reading : Nat} {q : DeadlineQueue α} {pre : List (Op α)}
    (h : Follows nslots q (run nslots reading pre)) {op : Op α}
    (hop : Allowed nslots reading pre op) :
    Follows nslots (q.step op) ((run nslots reading pre).step op) := by
  cases op with
  | add timeout fn => exact h.add hop fn
  | del id => exact h.del hop
  | tick => exact h.tick

/-- The run of the wheel follows the run of the queue, as long as each operation is allowed. -/
theorem follows_run {nslots : Nat} (h : 0 < nslots) (reading : Nat) {l : List (Op α)}
    (hl : Each (Allowed nslots reading) l) :
    Follows nslots (DeadlineQueue.run l) (run nslots reading l) := by
  refine foldl_invariant (I := fun pre s => Follows nslots (DeadlineQueue.run pre) s)
    (Allowed nslots reading) l (follows_init h reading) (fun pre op hpre hop => ?_) hl
  rw [DeadlineQueue.run_concat]
  exact hpre.step hop

/-- A timer that is deleted has been added. -/
theorem named_of_allowed {nslots : Nat} (h : 0 < nslots) (reading : Nat) {l : List (Op α)}
    (hl : Each (Allowed nslots reading) l) : Each Named l := by
  rintro pre _ post rfl id rfl
  have hpre := ((each_append _ _ _).1 hl).1
  have hfollows := follows_run h reading hpre
  have hholds : (run nslots reading pre).wheel.Holds id := hl pre _ post rfl
  obtain ⟨e, he, rfl⟩ := hfollows.refines.holds.1 hholds
  exact next_run pre ▸ hfollows.refines.ordered.fresh e he

/-- A timer is called in the tick that its timeout sets, unless it was deleted before; calls
are in the order of their ticks and, within a tick, of addition; and no timer is called twice. -/
theorem fires_iff {nslots : Nat} (h : 0 < nslots) (reading : Nat) (l : List (Op α))
    (hl : Each (Allowed nslots reading) l) :
    (∀ k i, (k, i) ∈ (run nslots reading l).log ↔
      ∃ pre timeout fn post, l = pre ++ .add timeout fn :: post ∧ adds pre = i ∧
        k = DeadlineQueue.ticks pre + timeout + 1 ∧ k ≤ DeadlineQueue.ticks l ∧
        ¬∃ pre' post', l = pre' ++ .del i :: post' ∧ DeadlineQueue.ticks pre' < k) ∧
      (run nslots reading l).log.Pairwise (fun a b => a.1 < b.1 ∨ a.1 = b.1 ∧ a.2 < b.2) ∧
      ((run nslots reading l).log.map Prod.snd).Nodup := by
  have hfollows := follows_run h reading hl
  have hnamed := named_of_allowed h reading hl
  have hmeaning := meaning_run hnamed
  rw [hfollows.log]
  refine ⟨fun k i => ?_, ?_, ?_⟩
  · simp only [List.mem_map, Prod.exists, Prod.mk.injEq, hmeaning.fired]
    constructor
    · rintro ⟨_, e, ⟨rfl, ⟨pre, timeout, post, hpre, hid, hdue⟩, hle, hdel⟩, rfl, rfl⟩
      exact ⟨pre, timeout, e.item, post, hpre, hid.symm, hdue, hle, hdel⟩
    · rintro ⟨pre, timeout, fn, post, hpre, rfl, rfl, hle, hdel⟩
      exact ⟨_, ⟨adds pre, DeadlineQueue.ticks pre + timeout + 1, fn⟩,
        ⟨rfl, ⟨pre, timeout, post, hpre, rfl, rfl⟩, hle, hdel⟩, rfl, rfl⟩
  · exact List.pairwise_map.2 hfollows.refines.ordered.sorted
  · rw [List.map_map]
    exact nodup_fired hnamed

/-- Timers without timeout, of a full turn and more, and one that is deleted, in a wheel of two
slots. -/
def sample : List (Op Unit) :=
  [.add 0 (), .add 2 (), .tick, .add 2 (), .add 1 (), .del 2, .tick, .tick, .tick]

theorem fires_iff_sample : (run 2 0 sample).log = [(1, 0), (3, 1), (3, 3)] ∧
    ((run 2 0 sample).log.map Prod.snd).Nodup :=
  ⟨by decide, (fires_iff (by decide) 0 sample (by decide)).2.2⟩

end Session

end TimeWheel

end Grit
