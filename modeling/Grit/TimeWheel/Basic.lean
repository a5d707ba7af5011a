import Mathlib.Logic.Function.Basic
import Mathlib.Data.List.Basic

/-!
# The time wheel

The classes of `timeWheel.h`. A callback is a value of type `α`, which `tick` hands to its
caller when it calls it; callbacks do not modify the wheel. A timer is known by the number
of timers allocated before it, in place of its address.
-/

namespace Grit

structure Timer (α : Type*) where
  id : Nat
  rotations : Int
  slot : Nat
  fn : α
deriving DecidableEq, Repr

/-- `next` is the number of timers allocated so far, and `ticked` the number of calls of `tick`. -/
structure TimeWheel (α : Type*) where
  nslots : Nat
  curslot : Nat
  slots : Nat → List (Timer α)
  starttime : Nat
  next : Nat
  ticked : Nat

namespace TimeWheel

variable {α : Type*}

/-- A new wheel, when the clock reads `reading`. -/
def init (nslots : Nat) (reading : Nat) : TimeWheel α :=
  { nslots, curslot := 0, slots := fun _ => [], starttime := reading, next := 0,
    ticked := 0 }

/-- The conversion of an unsigned number to `int`. -/
def toInt (k : Nat) : Int :=
  if k % 4294967296 < 2147483648 then ↑(k % 4294967296) else ↑(k % 4294967296) - 4294967296

/-- The timer that `addTimer` allocates. -/
def newTimer (timeout : Nat) (fn : α) (w : TimeWheel α) : Timer α :=
  { id := w.next
    rotations := toInt (timeout / w.nslots)
    slot := (w.curslot + timeout % w.nslots) % w.nslots
    fn }

/-- The timeout is unsigned, so that the test for a negative one never returns `NULL`. -/
def addTimer (timeout : Nat) (fn : α) (w : TimeWheel α) : TimeWheel α × Timer α :=
  let timer := w.newTimer timeout fn
  ({ w with
    slots := Function.update w.slots timer.slot (w.slots timer.slot ++ [timer])
    next := w.next + 1 }, timer)

/-- A null pointer is `none`; otherwise the timer is looked for in its own slot. -/
def delTimer (timer : Option (Timer α)) (w : TimeWheel α) : TimeWheel α :=
  match timer with
  | none => w
  | some timer =>
      { w with
        slots := Function.update w.slots timer.slot
          ((w.slots timer.slot).eraseP fun t => t.id = timer.id) }

/-- The loop of `tick`: the timers that stay, and those that are called. -/
def tickLoop : List (Timer α) → List (Timer α) × List (Timer α)
  | [] => ([], [])
  | t :: rest =>
      let (kept, called) := tickLoop rest
      if t.rotations > 0 then ({ t with rotations := t.rotations - 1 } :: kept, called)
      else (kept, t :: called)

/-- One tick, with the timers it calls. -/
def tick (w : TimeWheel α) : TimeWheel α × List (Timer α) :=
  let (kept, called) := tickLoop (w.slots w.curslot)
  ({ w with
    slots := Function.update w.slots w.curslot kept
    curslot := (w.curslot + 1) % w.nslots
    ticked := w.ticked + 1 }, called)

/-- The loop of `takeAllTimeout`. -/
def tickTimes : Nat → TimeWheel α → TimeWheel α × List (Timer α)
  | 0, w => (w, [])
  | k + 1, w =>
      let (w, called) := w.tick
      let (w, rest) := tickTimes k w
      (w, called ++ rest)

/-- `int now = getCurrentMillisecs()`, converted back to `unsigned long long`. -/
def keptReading (reading : Nat) : Nat := (toInt reading % 18446744073709551616).toNat

/-- `int cnt = now - starttime_`; the difference is one of `unsigned long long`. -/
def elapsed (reading starttime : Nat) : Int :=
  toInt (keptReading reading + (18446744073709551616 - starttime % 18446744073709551616))

/-- `takeAllTimeout` when the clock reads `reading`. -/
def takeAllTimeout (reading : Nat) (w : TimeWheel α) : TimeWheel α × List (Timer α) :=
  let ticked := w.tickTimes (elapsed reading w.starttime).toNat
  ({ ticked.1 with starttime := keptReading reading }, ticked.2)

/-- The timer is in the wheel. -/
def Holds (id : Nat) (w : TimeWheel α) : Prop :=
  ∃ s < w.nslots, ∃ t ∈ w.slots s, t.id = id

instance (id : Nat) (w : TimeWheel α) : Decidable (w.Holds id) :=
  inferInstanceAs (Decidable (∃ s < w.nslots, ∃ t ∈ w.slots s, t.id = id))

/-! ### What an operation leaves alone -/

@[simp]
theorem tick_nslots (w : TimeWheel α) : w.tick.1.nslots = w.nslots := rfl

theorem tickTimes_succ (k : Nat) (w : TimeWheel α) :
    w.tickTimes (k + 1) = ((w.tick.1.tickTimes k).1, w.tick.2 ++ (w.tick.1.tickTimes k).2) := rfl

theorem tickTimes_nslots (k : Nat) (w : TimeWheel α) :
    (w.tickTimes k).1.nslots = w.nslots := by
  induction k generalizing w with
  | zero => rfl
  | succ k ih => exact ih w.tick.1

theorem tickTimes_ticked (k : Nat) (w : TimeWheel α) :
    (w.tickTimes k).1.ticked = w.ticked + k := by
  induction k generalizing w with
  | zero => rfl
  | succ k ih =>
      have hrest : (w.tick.1.tickTimes k).1.ticked = w.ticked + 1 + k := ih w.tick.1
      rw [tickTimes_succ]
      dsimp only
      omega

/-- The loop keeps the timers with rotations left and calls the others, in their order. -/
theorem tickLoop_eq (l : List (Timer α)) :
    tickLoop l =
      ((l.filter fun t => t.rotations > 0).map fun t => { t with rotations := t.rotations - 1 },
        l.filter fun t => ¬t.rotations > 0) := by
  induction l with
  | nil => rfl
  | cons t l ih =>
      unfold tickLoop
      rw [ih]
      by_cases h : t.rotations > 0
      · simp only [h, if_true]
        rw [List.filter_cons_of_pos (by simpa using h), List.filter_cons_of_neg (by simpa using h)]
        rfl
      · simp only [h, if_false]
        rw [List.filter_cons_of_neg (by simpa using h), List.filter_cons_of_pos (by simpa using h)]

/-! ### Where callbacks come from -/

/-- A timer with the callback is in the wheel. -/
def Pending (fn : α) (w : TimeWheel α) : Prop := ∃ i, ∃ t ∈ w.slots i, t.fn = fn

theorem pending_of_addTimer {timeout : Nat} {fn fn' : α} {w : TimeWheel α}
    (h : (w.addTimer timeout fn).1.Pending fn') : w.Pending fn' ∨ fn' = fn := by
  obtain ⟨i, t, ht, rfl⟩ := h
  by_cases hi : i = (w.newTimer timeout fn).slot
  · simp only [addTimer, hi, Function.update_self] at ht
    rcases List.mem_append.1 ht with ht | ht
    · exact Or.inl ⟨_, t, ht, rfl⟩
    · rw [List.mem_singleton.1 ht]
      exact Or.inr rfl
  · simp only [addTimer, Function.update_of_ne hi] at ht
    exact Or.inl ⟨i, t, ht, rfl⟩

theorem pending_of_tick {fn : α} {w : TimeWheel α} (h : w.tick.1.Pending fn) : w.Pending fn := by
  obtain ⟨i, t, ht, rfl⟩ := h
  simp only [tick, tickLoop_eq] at ht
  by_cases hi : i = w.curslot
  · rw [hi, Function.update_self] at ht
    obtain ⟨u, hu, rfl⟩ := List.mem_map.1 ht
    exact ⟨w.curslot, u, List.mem_of_mem_filter hu, rfl⟩
  · rw [Function.update_of_ne hi] at ht
    exact ⟨i, t, ht, rfl⟩

theorem pending_of_called {t : Timer α} {w : TimeWheel α} (h : t ∈ w.tick.2) :
    w.Pending t.fn := by
  simp only [tick, tickLoop_eq] at h
  exact ⟨w.curslot, t, List.mem_of_mem_filter h, rfl⟩

/-- Ticks keep and call only timers that are in the wheel. -/
theorem pending_of_tickTimes {k : Nat} {w : TimeWheel α} :
    (∀ fn, (w.tickTimes k).1.Pending fn → w.Pending fn) ∧
      ∀ t ∈ (w.tickTimes k).2, w.Pending t.fn := by
  induction k generalizing w with
  | zero => exact ⟨fun _ h => h, by simp [tickTimes]⟩
  | succ k ih =>
      obtain ⟨hkept, hcalled⟩ := ih (w := w.tick.1)
      refine ⟨fun fn h => pending_of_tick (hkept fn h), ?_⟩
      intro t ht
      rw [tickTimes_succ] at ht
      rcases List.mem_append.1 ht with ht | ht
      · exact pending_of_called ht
      · exact pending_of_tick (hcalled t ht)

end TimeWheel

end Grit
