import Mathlib.Data.Multiset.AddSub
import Grit.Library.Collections
import Grit.TimeWheel.Basic

/-!
# Counting timers

The number of timers with a given callback in a wheel. A timer that is added counts once, and a
tick takes away what it calls: every timer is called once at most.
-/

namespace Grit

namespace TimeWheel

open Buckets

variable {α : Type*}

/-- The timers in the first `n` slots. -/
def stored (n : Nat) (slots : Nat → List (Timer α)) : Multiset (Timer α) :=
  pool fun i : Fin n => slots i

theorem stored_update {n i : Nat} (h : i < n) (slots : Nat → List (Timer α))
    (c : List (Timer α)) :
    stored n (Function.update slots i c) + slots i = stored n slots + c := by
  have hupdate : (fun j : Fin n => Function.update slots i c j) =
      Function.update (fun j : Fin n => slots j) ⟨i, h⟩ c := by
    funext j
    by_cases hj : j = ⟨i, h⟩
    · rw [hj, Function.update_self, Function.update_self]
    · have hne : (j : Nat) ≠ i := fun heq => hj (Fin.ext heq)
      rw [Function.update_of_ne hj, Function.update_of_ne hne]
  have hpool := pool_update (fun j : Fin n => slots j) ⟨i, h⟩ c
  rw [← hupdate] at hpool
  exact hpool

variable [DecidableEq α]

def calls (fn : α) (l : List (Timer α)) : Nat := l.countP fun t => t.fn = fn

/-- The timers with the callback that are in the wheel. -/
def pending (fn : α) (w : TimeWheel α) : Nat :=
  (stored w.nslots w.slots).countP fun t => t.fn = fn

theorem calls_append (fn : α) (l l' : List (Timer α)) :
    calls fn (l ++ l') = calls fn l + calls fn l' := by
  simp [calls]

/-- A slot is replaced. -/
theorem countP_stored_update {n i : Nat} (h : i < n) (slots : Nat → List (Timer α))
    (c : List (Timer α)) (fn : α) :
    (stored n (Function.update slots i c)).countP (fun t => t.fn = fn) + calls fn (slots i) =
      (stored n slots).countP (fun t => t.fn = fn) + calls fn c := by
  have hcount := congrArg (Multiset.countP fun t => t.fn = fn) (stored_update h slots c)
  rw [Multiset.countP_add, Multiset.countP_add, Multiset.coe_countP, Multiset.coe_countP] at hcount
  exact hcount

theorem pending_init (fn : α) (nslots reading : Nat) :
    (init nslots reading : TimeWheel α).pending fn = 0 := by
  change (stored nslots fun _ => []).countP _ = 0
  rw [stored, pool_nil, Multiset.countP_zero]

theorem pending_addTimer {w : TimeWheel α} (h : w.curslot < w.nslots) (timeout : Nat)
    (fn fn' : α) :
    (w.addTimer timeout fn').1.pending fn = w.pending fn + if fn' = fn then 1 else 0 := by
  have hslot : (w.newTimer timeout fn').slot < w.nslots := Nat.mod_lt _ (Nat.zero_lt_of_lt h)
  have hcount := countP_stored_update hslot w.slots
    (w.slots (w.newTimer timeout fn').slot ++ [w.newTimer timeout fn']) fn
  have hone : calls fn [w.newTimer timeout fn'] = if fn' = fn then 1 else 0 := by
    simp [calls, newTimer, List.countP_singleton]
  rw [calls_append, hone] at hcount
  change (stored w.nslots (Function.update w.slots _ _)).countP _ = (stored _ _).countP _ + _
  omega

/-- The loop of a tick keeps or calls each timer of the slot. -/
theorem calls_tickLoop (fn : α) (l : List (Timer α)) :
    calls fn (tickLoop l).1 + calls fn (tickLoop l).2 = calls fn l := by
  induction l with
  | nil => rfl
  | cons t l ih =>
      unfold tickLoop
      dsimp only
      simp only [calls] at ih ⊢
      split
      · simp only [List.countP_cons]
        omega
      · simp only [List.countP_cons]
        omega

theorem pending_tick {w : TimeWheel α} (h : w.curslot < w.nslots) (fn : α) :
    w.tick.1.pending fn + calls fn w.tick.2 = w.pending fn := by
  have hcount := countP_stored_update h w.slots (tickLoop (w.slots w.curslot)).1 fn
  have hloop := calls_tickLoop fn (w.slots w.curslot)
  change (stored w.nslots (Function.update w.slots _ (tickLoop (w.slots w.curslot)).1)).countP _ +
    calls fn (tickLoop (w.slots w.curslot)).2 = (stored _ _).countP _
  omega

omit [DecidableEq α] in
theorem curslot_tick {w : TimeWheel α} (h : w.curslot < w.nslots) :
    w.tick.1.curslot < w.tick.1.nslots := Nat.mod_lt _ (Nat.zero_lt_of_lt h)

/-- What is called in some ticks was in the wheel and is not any more. -/
theorem pending_tickTimes {w : TimeWheel α} (h : w.curslot < w.nslots) (fn : α) (k : Nat) :
    (w.tickTimes k).1.curslot < (w.tickTimes k).1.nslots ∧
      (w.tickTimes k).1.pending fn + calls fn (w.tickTimes k).2 = w.pending fn := by
  induction k generalizing w with
  | zero => exact ⟨h, rfl⟩
  | succ k ih =>
      obtain ⟨hcur, hrest⟩ := ih (curslot_tick h)
      have htick := pending_tick h fn
      rw [tickTimes_succ, calls_append]
      refine ⟨hcur, ?_⟩
      dsimp only
      omega

theorem pending_takeAllTimeout {w : TimeWheel α} (h : w.curslot < w.nslots) (fn : α)
    (reading : Nat) :
    (w.takeAllTimeout reading).1.curslot < (w.takeAllTimeout reading).1.nslots ∧
      (w.takeAllTimeout reading).1.pending fn + calls fn (w.takeAllTimeout reading).2 =
        w.pending fn :=
  pending_tickTimes h fn _

/-! ### A wheel with one timer -/

/-- No timer is in the wheel. -/
def Vacant (w : TimeWheel α) : Prop := ∀ i, w.slots i = []

theorem Vacant.pending {w : TimeWheel α} (h : w.Vacant) (fn : α) : w.pending fn = 0 := by
  have hslots : w.slots = fun _ => [] := funext h
  rw [TimeWheel.pending, hslots, stored, pool_nil, Multiset.countP_zero]

omit [DecidableEq α]

/-- The only timer has the callback `fn`, which is called by the tick after the next `left`. -/
structure Lone (fn : α) (left : Nat) (w : TimeWheel α) : Prop where
  turning : w.curslot < w.nslots
  only : ∃ s < w.nslots, ∃ t : Timer α, t.fn = fn ∧
    left = t.rotations.toNat * w.nslots + (s + w.nslots - w.curslot) % w.nslots ∧
      ∀ i, w.slots i = if i = s then [t] else []

theorem Vacant.addTimer {w : TimeWheel α} (h : w.Vacant) (hcur : w.curslot < w.nslots)
    (timeout : Nat) (fn : α) :
    Lone fn ((toInt (timeout / w.nslots)).toNat * w.nslots + timeout % w.nslots)
      (w.addTimer timeout fn).1 := by
  have hlt : timeout % w.nslots < w.nslots := Nat.mod_lt _ (Nat.zero_lt_of_lt hcur)
  have hslot : (w.newTimer timeout fn).slot < w.nslots := Nat.mod_lt _ (Nat.zero_lt_of_lt hcur)
  refine ⟨hcur, _, hslot, w.newTimer timeout fn, rfl, ?_, fun i => ?_⟩
  · change _ = (toInt (timeout / w.nslots)).toNat * w.nslots +
      ((w.curslot + timeout % w.nslots) % w.nslots + w.nslots - w.curslot) % w.nslots
    congr 1
    generalize timeout % w.nslots = d at hlt
    by_cases hwrap : w.curslot + d < w.nslots
    · rw [Nat.mod_eq_of_lt hwrap,
        show w.curslot + d + w.nslots - w.curslot = d + w.nslots by omega, Nat.add_mod_right,
        Nat.mod_eq_of_lt hlt]
    · have hmod : (w.curslot + d) % w.nslots = w.curslot + d - w.nslots := by
        rw [Nat.mod_eq_sub_mod (by omega), Nat.mod_eq_of_lt (by omega)]
      rw [hmod, show w.curslot + d - w.nslots + w.nslots - w.curslot = d by omega,
        Nat.mod_eq_of_lt hlt]
  · by_cases hi : i = (w.newTimer timeout fn).slot
    · rw [if_pos hi, hi]
      simp only [TimeWheel.addTimer, Function.update_self, h _, List.nil_append]
    · rw [if_neg hi]
      exact (Function.update_of_ne hi _ _).trans (h i)

/-- The ticks from a slot to another one, before and after a tick. -/
theorem distance_tick {n s c : Nat} (hs : s < n) (hc : c < n) :
    (s + n - (c + 1) % n) % n + 1 = if s = c then n else (s + n - c) % n := by
  by_cases hlast : c + 1 = n
  · rw [hlast, Nat.mod_self, Nat.sub_zero, Nat.add_mod_right, Nat.mod_eq_of_lt hs]
    split
    · omega
    · rw [show s + n - c = s + 1 by omega, Nat.mod_eq_of_lt (by omega)]
  · rw [Nat.mod_eq_of_lt (show c + 1 < n by omega)]
    by_cases hle : s ≤ c
    · rw [Nat.mod_eq_of_lt (show s + n - (c + 1) < n by omega)]
      split
      · omega
      · rw [Nat.mod_eq_of_lt (by omega)]
        omega
    · rw [if_neg (by omega), show s + n - (c + 1) = s - (c + 1) + n by omega,
        show s + n - c = s - c + n by omega, Nat.add_mod_right, Nat.add_mod_right,
        Nat.mod_eq_of_lt (by omega), Nat.mod_eq_of_lt (by omega)]
      omega

theorem tick_of_empty {w : TimeWheel α} (h : w.slots w.curslot = []) :
    w.tick.2 = [] ∧ w.tick.1.slots = w.slots := by
  simp only [tick, h, tickLoop, true_and]
  exact Function.update_eq_self_iff.2 h.symm

theorem Vacant.tick {w : TimeWheel α} (h : w.Vacant) : w.tick.2 = [] ∧ w.tick.1.Vacant := by
  obtain ⟨hcalled, hslots⟩ := tick_of_empty (h w.curslot)
  exact ⟨hcalled, fun i => (congrFun hslots i).trans (h i)⟩

theorem Lone.tick {fn : α} {left : Nat} {w : TimeWheel α} (h : Lone fn (left + 1) w) :
    w.tick.2 = [] ∧ Lone fn left w.tick.1 := by
  obtain ⟨s, hs, t, hfn, hleft, hslots⟩ := h.only
  have hdistance := distance_tick hs h.turning
  by_cases hcur : s = w.curslot
  · -- a full turn is left, since the timer is not called by this tick
    subst hcur
    have hself := hslots w.curslot
    rw [if_pos rfl] at hself hdistance
    rw [show w.curslot + w.nslots - w.curslot = w.nslots by omega, Nat.mod_self,
      Nat.add_zero] at hleft
    have hturns : t.rotations > 0 := by
      by_contra hnone
      rw [Int.toNat_of_nonpos (by omega), Nat.zero_mul] at hleft
      omega
    have htick : w.tick = ({ w with
        slots := Function.update w.slots w.curslot [{ t with rotations := t.rotations - 1 }]
        curslot := (w.curslot + 1) % w.nslots
        ticked := w.ticked + 1 }, []) := by
      simp [TimeWheel.tick, tickLoop, hself, hturns]
    rw [htick]
    refine ⟨rfl, Nat.mod_lt _ (Nat.zero_lt_of_lt h.turning), w.curslot, hs,
      { t with rotations := t.rotations - 1 }, hfn, ?_, fun i => ?_⟩
    · obtain ⟨turns, hnat⟩ : ∃ turns : Nat, t.rotations = turns + 1 :=
        ⟨(t.rotations - 1).toNat, by omega⟩
      have hone : (turns + 1 : Int).toNat = turns + 1 := by omega
      rw [hnat, hone, Nat.succ_mul] at hleft
      simp only [hnat, add_sub_cancel_right, Int.toNat_natCast]
      omega
    · by_cases hi : i = w.curslot
      · rw [if_pos hi, hi]
        exact Function.update_self _ _ _
      · rw [if_neg hi]
        refine (Function.update_of_ne hi _ _).trans ?_
        rw [hslots, if_neg hi]
  · obtain ⟨hcalled, hsame⟩ := tick_of_empty (by rw [hslots, if_neg (Ne.symm hcur)])
    rw [if_neg hcur] at hdistance
    refine ⟨hcalled, Nat.mod_lt _ (Nat.zero_lt_of_lt h.turning), s, hs, t, hfn, ?_, fun i => ?_⟩
    · change left = t.rotations.toNat * w.nslots +
        (s + w.nslots - (w.curslot + 1) % w.nslots) % w.nslots
      omega
    · rw [hsame]
      exact hslots i

theorem Lone.tick_last {fn : α} {w : TimeWheel α} (h : Lone fn 0 w) :
    (∃ t : Timer α, t.fn = fn ∧ w.tick.2 = [t]) ∧ w.tick.1.Vacant := by
  obtain ⟨s, hs, t, hfn, hleft, hslots⟩ := h.only
  have hdistance := distance_tick hs h.turning
  have hcur : s = w.curslot := by
    by_contra hne
    rw [if_neg hne] at hdistance
    omega
  subst hcur
  have hself := hslots w.curslot
  have hturns : ¬t.rotations > 0 := by
    intro hpos
    have hlong := Nat.le_mul_of_pos_left w.nslots (show 0 < t.rotations.toNat by omega)
    have hcur := h.turning
    omega
  rw [if_pos rfl] at hself
  have htick : w.tick = ({ w with
      slots := Function.update w.slots w.curslot []
      curslot := (w.curslot + 1) % w.nslots
      ticked := w.ticked + 1 }, [t]) := by
    simp [TimeWheel.tick, tickLoop, hself, hturns]
  rw [htick]
  refine ⟨⟨t, hfn, rfl⟩, fun i => ?_⟩
  by_cases hi : i = w.curslot
  · rw [hi]
    exact Function.update_self _ _ _
  · refine (Function.update_of_ne hi _ _).trans ?_
    rw [hslots, if_neg hi]

theorem Vacant.tickTimes {w : TimeWheel α} (h : w.Vacant) (k : Nat) :
    (w.tickTimes k).2 = [] ∧ (w.tickTimes k).1.Vacant := by
  induction k generalizing w with
  | zero => exact ⟨rfl, h⟩
  | succ k ih =>
      obtain ⟨hcalled, hvacant⟩ := h.tick
      obtain ⟨hrest, hend⟩ := ih hvacant
      rw [tickTimes_succ, hcalled, hrest]
      exact ⟨rfl, hend⟩

/-- The timer is called once, in any number of ticks that is large enough. -/
theorem Lone.tickTimes {fn : α} {left : Nat} {w : TimeWheel α} (h : Lone fn left w) {k : Nat}
    (hk : left < k) :
    (∃ t : Timer α, t.fn = fn ∧ (w.tickTimes k).2 = [t]) ∧ (w.tickTimes k).1.Vacant := by
  obtain ⟨k, rfl⟩ := Nat.exists_eq_add_of_lt hk
  induction left generalizing w with
  | zero =>
      obtain ⟨⟨t, hfn, hcalled⟩, hvacant⟩ := h.tick_last
      obtain ⟨hrest, hend⟩ := hvacant.tickTimes (0 + k)
      rw [tickTimes_succ, hcalled, hrest]
      exact ⟨⟨t, hfn, rfl⟩, hend⟩
  | succ left ih =>
      obtain ⟨hcalled, hlone⟩ := h.tick
      have hrest := ih hlone (by omega)
      rw [show left + 1 + k + 1 = left + k + 1 + 1 by omega, tickTimes_succ, hcalled]
      exact hrest

theorem Lone.takeAllTimeout {fn : α} {left : Nat} {w : TimeWheel α} (h : Lone fn left w)
    (reading : Nat) (hlate : left < (elapsed reading w.starttime).toNat) :
    (∃ t : Timer α, t.fn = fn ∧ (w.takeAllTimeout reading).2 = [t]) ∧
      (w.takeAllTimeout reading).1.Vacant :=
  h.tickTimes hlate

end TimeWheel

end Grit
