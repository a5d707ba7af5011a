import Mathlib.Data.List.Chain
import Grit.TimeWheel.Clock

/-!
# Polls do not drift

The calls of `tick` in each poll of a wheel whose timers are added and deleted between the
polls. The reading of a poll is truncated to an `int` and kept sign-extended, so that after
24.8 days `starttime_` is no longer the reading. It stays the same as an `int`, and that is
enough for the difference to be exact.
-/

namespace Grit

namespace TimeWheel

variable {α : Type*}

/-- A call of a wheel; `take` is `takeAllTimeout` at a reading of the clock. -/
inductive Call (α : Type*) where
  | add (timeout : Nat) (fn : α)
  | del (timer : Option (Timer α))
  | take (reading : Nat)

/-- The wheel after a call. -/
def after (w : TimeWheel α) : Call α → TimeWheel α
  | .add timeout fn => (w.addTimer timeout fn).1
  | .del timer => w.delTimer timer
  | .take reading => (w.takeAllTimeout reading).1

/-- The readings of the polls. -/
def readings : List (Call α) → List Nat
  | [] => []
  | .take reading :: l => reading :: readings l
  | .add _ _ :: l => readings l
  | .del _ :: l => readings l

/-- The wheel after some calls. -/
def afterAll (w : TimeWheel α) (l : List (Call α)) : TimeWheel α := l.foldl after w

/-- How often `tick` is called in each poll. -/
def ticks (w : TimeWheel α) : List (Call α) → List Nat
  | [] => []
  | .take reading :: l =>
      ((w.takeAllTimeout reading).1.ticked - w.ticked) :: ticks (w.after (.take reading)) l
  | .add timeout fn :: l => ticks (w.after (.add timeout fn)) l
  | .del timer :: l => ticks (w.after (.del timer)) l

/-- The clock does not go back, and a poll is less than `2 ^ 31` milliseconds after the last. -/
def InTime (last reading : Nat) : Prop := last ≤ reading ∧ reading - last < 2147483648

instance (last reading : Nat) : Decidable (InTime last reading) :=
  inferInstanceAs (Decidable (last ≤ reading ∧ reading - last < 2147483648))

theorem delTimer_frame (timer : Option (Timer α)) (w : TimeWheel α) :
    (w.delTimer timer).starttime = w.starttime ∧ (w.delTimer timer).ticked = w.ticked := by
  cases timer with
  | none => exact ⟨rfl, rfl⟩
  | some timer => exact ⟨rfl, rfl⟩

/-- A poll calls `tick` once for each millisecond since the last one; the start time is only known
as an `int`. -/
theorem ticked_takeAllTimeout {w : TimeWheel α} {last reading : Nat}
    (hstart : SameInt w.starttime last) (h : InTime last reading) :
    (w.takeAllTimeout reading).1.ticked = w.ticked + (reading - last) := by
  have hticked := tickTimes_ticked (elapsed reading w.starttime).toNat w
  rw [elapsed_eq h.1 h.2 hstart] at hticked
  exact (elapsed_eq h.1 h.2 hstart) ▸ hticked

theorem ticks_eq_of_sameInt {w : TimeWheel α} {last : Nat} (hstart : SameInt w.starttime last)
    {l : List (Call α)} (h : (last :: readings l).IsChain InTime) :
    w.ticks l = List.zipWith (fun c d => d - c) (last :: readings l) (readings l) ∧
      (w.afterAll l).ticked = w.ticked + (w.ticks l).sum := by
  induction l generalizing w last with
  | nil => exact ⟨rfl, rfl⟩
  | cons call l ih =>
      cases call with
      | add timeout fn => exact ih (w := w.after (.add timeout fn)) hstart h
      | del timer =>
          obtain ⟨hsame, hticked⟩ := delTimer_frame timer w
          have hkept : SameInt (w.after (.del timer)).starttime last := hsame.symm ▸ hstart
          have hrest := ih hkept h
          refine ⟨hrest.1, ?_⟩
          rw [← hticked]
          exact hrest.2
      | take reading =>
          obtain ⟨htime, hrest⟩ := List.isChain_cons_cons.1 h
          have hkept : SameInt (w.after (.take reading)).starttime reading :=
            sameInt_takeAllTimeout reading w
          have hticked := ticked_takeAllTimeout hstart htime
          obtain ⟨hticks, htotal⟩ := ih hkept hrest
          rw [ticks, readings, List.zipWith_cons_cons, ← hticks, List.sum_cons, hticked,
            Nat.add_sub_cancel_left]
          refine ⟨rfl, ?_⟩
          have hfirst : (w.after (.take reading)).ticked = w.ticked + (reading - last) := hticked
          rw [hfirst] at htotal
          exact htotal.trans (Nat.add_assoc ..)

/-- The differences along a clock that does not go back add up. -/
theorem sum_zipWith_sub {first : Nat} {l : List Nat} (h : (first :: l).IsChain (· ≤ ·)) :
    first + (List.zipWith (fun c d => d - c) (first :: l) l).sum = l.getLastD first := by
  induction l generalizing first with
  | nil => rfl
  | cons next l ih =>
      obtain ⟨hle, hrest⟩ := List.isChain_cons_cons.1 h
      have hnext := ih hrest
      rw [List.zipWith_cons_cons, List.sum_cons, List.getLastD_cons, ← hnext]
      omega

/-- Each poll calls `tick` once for each millisecond since the last one, and all polls together
once for each millisecond since the construction. -/
theorem ticks_exact (w : TimeWheel α) (l : List (Call α))
    (h : (w.starttime :: readings l).IsChain InTime) :
    w.ticks l =
        List.zipWith (fun c d => d - c) (w.starttime :: readings l) (readings l) ∧
      (w.afterAll l).ticked = w.ticked + ((readings l).getLastD w.starttime - w.starttime) := by
  obtain ⟨hticks, htotal⟩ := ticks_eq_of_sameInt (w := w) rfl h
  refine ⟨hticks, ?_⟩
  have hsum := sum_zipWith_sub (h.imp fun _ _ hab => hab.1)
  rw [← hticks] at hsum
  rw [htotal]
  omega

/-- Polls across the boundaries of `2 ^ 31` and `2 ^ 32` milliseconds. -/
theorem ticks_exact_boundaries :
    (init 6000 2147483640 : TimeWheel Unit).ticks
        [.take 2147483650, .add 5 (), .take 4294967290, .take 4294967300] =
      [10, 2147483640, 10] ∧
    ((init 6000 2147483640 : TimeWheel Unit).afterAll
        [.take 2147483650, .add 5 (), .take 4294967290, .take 4294967300]).ticked = 2147483660 :=
  ticks_exact (init 6000 2147483640)
    [.take 2147483650, .add 5 (), .take 4294967290, .take 4294967300] (by decide)

end TimeWheel

end Grit
