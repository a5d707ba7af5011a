import Mathlib.Data.Nat.ModEq
import Mathlib.Algebra.Order.Ring.Nat
import Grit.TimeWheel.Basic
import Grit.Library.DeadlineQueue

/-!
# The time wheel is a queue of deadlines

A wheel refines a queue of deadlines: slot `s` holds, in the order of addition, the entries
whose remaining ticks lead from `curslot_` to `s`, each with the number of full turns that
remain. A tick leaves every other entry in its slot; it takes a turn from the entries of
`curslot_`, whose remaining ticks are the multiples of the number of slots.
-/

namespace Grit

namespace TimeWheel

open DeadlineQueue History

variable {α : Type*}

/-- The ticks before the one in which the entry fires. -/
def remaining (now : Nat) (e : Entry α) : Nat := e.due - now - 1

/-- The slot of an entry. -/
def place (w : TimeWheel α) (now : Nat) (e : Entry α) : Nat :=
  (w.curslot + remaining now e) % w.nslots

/-- The timer of an entry. -/
def timerOf (w : TimeWheel α) (now : Nat) (e : Entry α) : Timer α :=
  { id := e.id
    rotations := ↑(remaining now e / w.nslots)
    slot := w.place now e
    fn := e.item }

structure Refines (q : DeadlineQueue α) (w : TimeWheel α) : Prop where
  ordered : q.Ordered
  cur : w.curslot < w.nslots
  next : w.next = q.next
  slots : ∀ s, w.slots s =
    (q.pending.filter fun e => w.place q.now e = s).map (w.timerOf q.now)

theorem refines_init {nslots : Nat} (h : 0 < nslots) (reading : Nat) :
    Refines (empty : DeadlineQueue α) (init nslots reading) where
  ordered := ordered_empty
  cur := h
  next := rfl
  slots := fun _ => rfl

theorem place_lt {w : TimeWheel α} (h : w.curslot < w.nslots) (now : Nat) (e : Entry α) :
    w.place now e < w.nslots := Nat.mod_lt _ (Nat.zero_lt_of_lt h)

/-- The wheel holds the timers of the pending entries. -/
theorem Refines.holds {q : DeadlineQueue α} {w : TimeWheel α} (h : Refines q w) {id : Nat} :
    w.Holds id ↔ ∃ e ∈ q.pending, e.id = id := by
  simp only [Holds, h.slots, List.mem_map, List.mem_filter, decide_eq_true_eq]
  constructor
  · rintro ⟨s, -, t, ⟨e, ⟨he, -⟩, rfl⟩, hid⟩
    exact ⟨e, he, hid⟩
  · rintro ⟨e, he, hid⟩
    exact ⟨_, place_lt h.cur q.now e, _, ⟨e, ⟨he, rfl⟩, rfl⟩, hid⟩

theorem map_filter_congr {β γ : Type*} {l : List β} {p p' : β → Bool} {f f' : β → γ}
    (hp : ∀ b ∈ l, p b = p' b) (hf : ∀ b ∈ l, p' b = true → f b = f' b) :
    (l.filter p).map f = (l.filter p').map f' := by
  rw [List.filter_congr hp]
  refine List.map_congr_left fun b hb => ?_
  obtain ⟨hb, hpb⟩ := List.mem_filter.1 hb
  exact hf b hb hpb

/-! ### Adding a timer -/

/-- A count of turns that fits an `int` is stored as it is. -/
theorem toInt_of_lt {k : Nat} (h : k < 2147483648) : toInt k = ↑k := by
  simp only [toInt]
  omega

/-- The new timer is that of the new entry. -/
theorem Refines.newTimer_eq {q : DeadlineQueue α} {w : TimeWheel α} (h : Refines q w)
    {timeout : Nat} (hT : timeout / w.nslots < 2147483648) (fn : α) :
    w.newTimer timeout fn = w.timerOf q.now ⟨q.next, q.now + timeout + 1, fn⟩ := by
  have hrem : remaining q.now (⟨q.next, q.now + timeout + 1, fn⟩ : Entry α) = timeout := by
    simp only [remaining]
    omega
  simp only [newTimer, timerOf, place, hrem, toInt_of_lt hT, h.next, Nat.add_mod_mod]

theorem Refines.addTimer {q : DeadlineQueue α} {w : TimeWheel α} (h : Refines q w)
    {timeout : Nat} (hT : timeout / w.nslots < 2147483648) (fn : α) :
    Refines (q.add timeout fn) (w.addTimer timeout fn).1 where
  ordered := h.ordered.add timeout fn
  cur := h.cur
  next := congrArg (· + 1) h.next
  slots := fun s => by
    change Function.update w.slots (w.newTimer timeout fn).slot
      (w.slots (w.newTimer timeout fn).slot ++ [w.newTimer timeout fn]) s =
      ((q.pending ++ [(⟨q.next, q.now + timeout + 1, fn⟩ : Entry α)]).filter
        fun e => w.place q.now e = s).map (w.timerOf q.now)
    rw [h.newTimer_eq hT, List.filter_append, List.map_append, ← h.slots s]
    by_cases hs : s = w.place q.now ⟨q.next, q.now + timeout + 1, fn⟩
    · subst hs
      rw [List.filter_cons_of_pos (by exact decide_eq_true rfl)]
      exact Function.update_self _ _ _
    · rw [List.filter_cons_of_neg (by simpa using Ne.symm hs), List.filter_nil, List.map_nil,
        List.append_nil]
      exact Function.update_of_ne hs _ _

/-! ### A tick -/

theorem remaining_succ {now : Nat} {e : Entry α} (h : now + 1 < e.due) :
    remaining now e = remaining (now + 1) e + 1 := by
  simp only [remaining]
  omega

/-- An entry that does not fire keeps its slot. -/
theorem place_tick (w : TimeWheel α) {now : Nat} {e : Entry α} (h : now + 1 < e.due) :
    w.tick.1.place (now + 1) e = w.place now e := by
  change ((w.curslot + 1) % w.nslots + remaining (now + 1) e) % w.nslots = _
  rw [Nat.mod_add_mod, place, remaining_succ h]
  congr 1
  omega

/-- The entries of the current slot have full turns to go. -/
theorem place_eq_curslot_iff {w : TimeWheel α} (hcur : w.curslot < w.nslots) (now : Nat)
    (e : Entry α) : w.place now e = w.curslot ↔ w.nslots ∣ remaining now e := by
  constructor
  · intro h
    have hmod : w.curslot + remaining now e ≡ w.curslot + 0 [MOD w.nslots] :=
      h.trans (Nat.mod_eq_of_lt hcur).symm
    exact (Nat.modEq_zero_iff_dvd).1 (Nat.ModEq.add_left_cancel' _ hmod)
  · rintro ⟨m, hm⟩
    rw [place, hm, Nat.add_mul_mod_self_left, Nat.mod_eq_of_lt hcur]

/-- In the current slot, no turn is left exactly for the entries that fire. -/
theorem turns_pos_iff {w : TimeWheel α} (hcur : w.curslot < w.nslots) {now : Nat}
    {e : Entry α} (hdue : now < e.due) (h : w.place now e = w.curslot) :
    (w.timerOf now e).rotations > 0 ↔ e.due ≠ now + 1 := by
  have hdvd := (place_eq_curslot_iff hcur now e).1 h
  have hturns : 0 < remaining now e / w.nslots ↔ 0 < remaining now e := by
    rw [Nat.div_pos_iff]
    exact ⟨fun h => Nat.lt_of_lt_of_le h.1 h.2,
      fun h => ⟨Nat.zero_lt_of_lt hcur, Nat.le_of_dvd h hdvd⟩⟩
  change (0 : Int) < ↑(remaining now e / w.nslots) ↔ _
  rw [Int.natCast_pos, hturns, remaining]
  omega

/-- The timer of an entry after a tick: one turn less in the current slot. -/
theorem timerOf_tick {w : TimeWheel α} (hcur : w.curslot < w.nslots) {now : Nat} {e : Entry α}
    (h : now + 1 < e.due) :
    w.tick.1.timerOf (now + 1) e =
      if w.place now e = w.curslot then
        { w.timerOf now e with rotations := (w.timerOf now e).rotations - 1 }
      else w.timerOf now e := by
  have hturns : remaining now e / w.nslots = remaining (now + 1) e / w.nslots +
      if w.place now e = w.curslot then 1 else 0 := by
    simp only [place_eq_curslot_iff hcur]
    rw [remaining_succ h, Nat.succ_div]
  simp only [timerOf, place_tick w h, tick_nslots, hturns]
  split
  · simp
  · simp

theorem Refines.kept {q : DeadlineQueue α} {w : TimeWheel α} (h : Refines q w) (s : Nat) :
    w.tick.1.slots s = (q.tick.pending.filter fun e => w.tick.1.place q.tick.now e = s).map
      (w.tick.1.timerOf q.tick.now) := by
  have hlater : ∀ e ∈ q.pending, e.due ≠ q.now + 1 → q.now + 1 < e.due := by
    intro e he hne
    have := h.ordered.later e he
    omega
  change Function.update w.slots w.curslot (tickLoop (w.slots w.curslot)).1 s =
    ((q.pending.filter fun e => e.due ≠ q.now + 1).filter _).map (w.tick.1.timerOf (q.now + 1))
  rw [List.filter_filter]
  by_cases hs : s = w.curslot
  · subst hs
    rw [Function.update_self, tickLoop_eq, h.slots, List.filter_map, List.map_map,
      List.filter_filter]
    refine map_filter_congr (fun e he => ?_) (fun e he hp => ?_)
    · by_cases hplace : w.place q.now e = w.curslot
      · have hpos := turns_pos_iff h.cur (h.ordered.later e he) hplace
        by_cases hdue : e.due = q.now + 1
        · simp [hdue, hpos, hplace]
        · have hkeep := place_tick w (hlater e he hdue)
          simp [hdue, hpos, hplace, DeadlineQueue.tick, hkeep]
      · by_cases hdue : e.due = q.now + 1
        · simp [hdue, hplace]
        · have hkeep := place_tick w (hlater e he hdue)
          simp [hplace, DeadlineQueue.tick, hkeep]
    · simp only [Bool.and_eq_true, decide_eq_true_eq] at hp
      have hlt := hlater e he hp.2
      have hplace : w.place q.now e = w.curslot := (place_tick w hlt).symm.trans hp.1
      rw [timerOf_tick h.cur hlt, if_pos hplace]
      rfl
  · rw [Function.update_of_ne hs, h.slots]
    refine map_filter_congr (fun e he => ?_) (fun e he hp => ?_)
    · by_cases hdue : e.due = q.now + 1
      · have hplace : w.place q.now e = w.curslot := by
          rw [place_eq_curslot_iff h.cur, remaining, hdue]
          simp
        simp [hdue, hplace, Ne.symm hs]
      · have hkeep := place_tick w (hlater e he hdue)
        simp [hdue, DeadlineQueue.tick, hkeep]
    · simp only [Bool.and_eq_true, decide_eq_true_eq] at hp
      have hlt := hlater e he hp.2
      have hplace : w.place q.now e = s := (place_tick w hlt).symm.trans hp.1
      rw [timerOf_tick h.cur hlt, if_neg (hplace ▸ hs)]

/-- A tick calls the timers of the entries that are due, in the order of addition. -/
theorem Refines.called {q : DeadlineQueue α} {w : TimeWheel α} (h : Refines q w) :
    w.tick.2 = q.due.map (w.timerOf q.now) := by
  change (tickLoop (w.slots w.curslot)).2 = _
  rw [tickLoop_eq]
  dsimp only
  rw [h.slots, List.filter_map, List.filter_filter]
  refine map_filter_congr (fun e he => ?_) (fun _ _ _ => rfl)
  by_cases hplace : w.place q.now e = w.curslot
  · have hpos := turns_pos_iff h.cur (h.ordered.later e he) hplace
    simp [hplace, not_lt.symm.trans (not_iff_not.2 hpos)]
  · have hne : e.due ≠ q.now + 1 := by
      intro hdue
      apply hplace
      rw [place_eq_curslot_iff h.cur, remaining, hdue]
      simp
    simp [hplace, hne]

theorem Refines.tick {q : DeadlineQueue α} {w : TimeWheel α} (h : Refines q w) :
    Refines q.tick w.tick.1 where
  ordered := h.ordered.tick
  cur := Nat.mod_lt _ (Nat.zero_lt_of_lt h.cur)
  next := h.next
  slots := h.kept

/-! ### Deleting a timer -/

theorem eraseP_eq_filter {l : List (Timer α)} (h : l.Pairwise fun a b => a.id < b.id) (id : Nat) :
    l.eraseP (fun t => t.id = id) = l.filter fun t => t.id ≠ id := by
  induction l with
  | nil => rfl
  | cons t l ih =>
      obtain ⟨hhead, htail⟩ := List.pairwise_cons.1 h
      by_cases hid : t.id = id
      · have hrest : ∀ t' ∈ l, t'.id ≠ id := by
          intro t' ht'
          have := hhead t' ht'
          omega
        rw [List.eraseP_cons_of_pos (by simpa using hid),
          List.filter_cons_of_neg (by simpa using hid),
          List.filter_eq_self.2 (by simpa using hrest)]
      · rw [List.eraseP_cons_of_neg (by simpa using hid),
          List.filter_cons_of_pos (by simpa using hid), ih htail]

/-- Only the timer that is asked for leaves its slot. -/
theorem Refines.delTimer {q : DeadlineQueue α} {w : TimeWheel α} (h : Refines q w)
    {timer : Timer α}
    (hslot : ∀ e ∈ q.pending, e.id = timer.id → w.place q.now e = timer.slot) :
    Refines (q.del timer.id) (w.delTimer (some timer)) where
  ordered := h.ordered.del timer.id
  cur := h.cur
  next := h.next
  slots := fun s => by
    change Function.update w.slots timer.slot
      ((w.slots timer.slot).eraseP fun t => t.id = timer.id) s =
      ((q.pending.filter fun e => e.id ≠ timer.id).filter _).map (w.timerOf q.now)
    rw [List.filter_filter]
    by_cases hs : s = timer.slot
    · subst hs
      have hids : (w.slots timer.slot).Pairwise fun a b => a.id < b.id := by
        rw [h.slots]
        exact List.pairwise_map.2 (h.ordered.ids.filter _)
      rw [Function.update_self, eraseP_eq_filter hids, h.slots, List.filter_map,
        List.filter_filter]
      refine map_filter_congr (fun e he => ?_) (fun _ _ _ => rfl)
      exact Bool.and_comm _ _
    · rw [Function.update_of_ne hs, h.slots]
      refine map_filter_congr (fun e he => ?_) (fun _ _ _ => rfl)
      by_cases hid : e.id = timer.id
      · simp [hid, hslot e he hid, Ne.symm hs]
      · simp only [hid, ne_eq, not_false_eq_true, decide_true, Bool.and_true]
        rfl

end TimeWheel

end Grit
