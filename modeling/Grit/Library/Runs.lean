import Mathlib.Logic.Function.Basic
import Mathlib.Data.List.Basic
import Mathlib.Algebra.BigOperators.Group.Finset.Basic

/-!
# Programs and runs

Two programs that may fail are in lockstep if they fail with the same error, or give results
that are related. Sequences of programs in lockstep are in lockstep, so a relation between two
data representations carries over from the single operations to whole programs.

The other two parts are about systems that make steps `f s e`.

`Rounds`: a measure never grows, and as long as the goal is not reached some event of a fixed kind
makes it smaller. A step that leaves the measure as it is must not take that chance away. Then the
goal is reached after finitely many rounds in which each event of the kind happens, in any order
and with anything else between.

`Settling`: if every step that is enabled lowers a measure, and a step that is not raises it by no
more than a credit of its own, then a run has no more enabled steps than its credits allow, and
from every state enabled steps lead to one in which no step is enabled. The measures are sums: over
the elements of a list, of which any may be taken next, and over a finite set of places, of which a
step changes one.
-/

/-! ### Programs in lockstep -/

inductive Lockstep {ε α β : Type*} (R : α → β → Prop) : Except ε α → Except ε β → Prop
  | error (e : ε) : Lockstep R (.error e) (.error e)
  | ok {a : α} {b : β} : R a b → Lockstep R (.ok a) (.ok b)

namespace Lockstep

variable {ε : Type*} {α β α' β' : Type}

theorem refl (x : Except ε α) : Lockstep Eq x x := by
  cases x with
  | error e => exact .error e
  | ok a => exact .ok rfl

theorem eq {x y : Except ε α} (h : Lockstep Eq x y) : x = y := by
  cases h with
  | error e => rfl
  | ok hab => rw [hab]

theorem bind {R : α → β → Prop} {S : α' → β' → Prop} {x : Except ε α}
    {y : Except ε β} {f : α → Except ε α'} {g : β → Except ε β'} (h : Lockstep R x y)
    (hfg : ∀ a b, R a b → Lockstep S (f a) (g b)) : Lockstep S (x >>= f) (y >>= g) := by
  cases h with
  | error e => exact .error e
  | ok hab => exact hfg _ _ hab

theorem ite {R : α → β → Prop} {p : Prop} [Decidable p] {x x' : Except ε α} {y y' : Except ε β}
    (h : Lockstep R x y) (h' : Lockstep R x' y') :
    Lockstep R (if p then x else x') (if p then y else y') := by
  split
  · exact h
  · exact h'

end Lockstep

/-! ### Progress under fair rounds -/

namespace Rounds

variable {σ ε : Type*}

/-- The event makes the measure smaller. -/
def Helps (f : σ → ε → σ) (m : σ → Nat) (s : σ) (e : ε) : Prop := m (f s e) < m s

/-- `Inv` holds in all states considered, and `own` are the events that are bound to happen. -/
structure Progress (f : σ → ε → σ) (m : σ → Nat) (Inv Goal : σ → Prop) (own : ε → Prop) :
    Prop where
  inv : ∀ s e, Inv s → Inv (f s e)
  stays : ∀ s e, Inv s → Goal s → Goal (f s e)
  mono : ∀ s e, Inv s → m (f s e) ≤ m s
  keeps : ∀ s e e', Inv s → m (f s e) = m s → own e' → Helps f m s e' → Helps f m (f s e) e'
  helps : ∀ s, Inv s → ¬ Goal s → ∃ e, own e ∧ Helps f m s e

variable {f : σ → ε → σ} {m : σ → Nat} {Inv Goal : σ → Prop} {own : ε → Prop}

theorem Progress.foldl_inv (h : Progress f m Inv Goal own) {s : σ} (hs : Inv s) (l : List ε) :
    Inv (l.foldl f s) := by
  induction l generalizing s with
  | nil => exact hs
  | cons e l ih => exact ih (h.inv s e hs)

theorem Progress.foldl_stays (h : Progress f m Inv Goal own) {s : σ} (hs : Inv s)
    (hgoal : Goal s) (l : List ε) : Goal (l.foldl f s) := by
  induction l generalizing s with
  | nil => exact hgoal
  | cons e l ih => exact ih (h.inv s e hs) (h.stays s e hs hgoal)

theorem Progress.foldl_le (h : Progress f m Inv Goal own) {s : σ} (hs : Inv s) (l : List ε) :
    m (l.foldl f s) ≤ m s := by
  induction l generalizing s with
  | nil => exact Nat.le_refl _
  | cons e l ih => exact Nat.le_trans (ih (h.inv s e hs)) (h.mono s e hs)

/-- An event that helps at the start of a round makes the measure smaller when its turn comes,
unless another one has done so before. -/
theorem Progress.foldl_lt (h : Progress f m Inv Goal own) {s : σ} (hs : Inv s) {e : ε}
    (hmine : own e) (he : Helps f m s e) {l : List ε} (hl : e ∈ l) : m (l.foldl f s) < m s := by
  induction l generalizing s with
  | nil => simp at hl
  | cons e' l ih =>
      have hle := h.foldl_le (h.inv s e' hs) l
      rcases Nat.lt_or_eq_of_le (h.mono s e' hs) with hlt | heq
      · exact Nat.lt_of_le_of_lt hle hlt
      · rcases List.mem_cons.1 hl with rfl | hl
        · exact absurd heq (Nat.ne_of_lt he)
        · have hrest := ih (h.inv s e' hs) (h.keeps s e' e hs heq hmine he) hl
          exact Nat.lt_of_lt_of_eq hrest heq

/-- Enough rounds reach the goal. -/
theorem Progress.reaches (h : Progress f m Inv Goal own) {s : σ} (hs : Inv s)
    {rounds : List (List ε)} (hown : ∀ r ∈ rounds, ∀ e, own e → e ∈ r)
    (hlength : m s ≤ rounds.length) : Goal (rounds.flatten.foldl f s) := by
  induction rounds generalizing s with
  | nil =>
      by_contra hgoal
      obtain ⟨e, -, he⟩ := h.helps s hs hgoal
      exact Nat.not_lt_zero _ (Nat.lt_of_lt_of_le he hlength)
  | cons r rounds ih =>
      rw [List.flatten_cons, List.foldl_append]
      by_cases hgoal : Goal s
      · exact h.foldl_stays (h.foldl_inv hs r) (h.foldl_stays hs hgoal r) _
      · obtain ⟨e, hmine, he⟩ := h.helps s hs hgoal
        have hlt := h.foldl_lt hs hmine he (hown r List.mem_cons_self e hmine)
        rw [List.length_cons] at hlength
        exact ih (h.foldl_inv hs r) (fun r' hr' => hown r' (List.mem_cons_of_mem r hr')) (by omega)

end Rounds

/-! ### Systems that settle -/

namespace Settling

section Weight

variable {α : Type*}

def weight (w : α → Nat) (l : List α) : Nat := l.foldr (fun a n => w a + n) 0

@[simp] theorem weight_nil (w : α → Nat) : weight w [] = 0 := rfl

@[simp] theorem weight_cons (w : α → Nat) (a : α) (l : List α) :
    weight w (a :: l) = w a + weight w l := rfl

@[simp] theorem weight_append (w : α → Nat) (l l' : List α) :
    weight w (l ++ l') = weight w l + weight w l' := by
  induction l with
  | nil => simp
  | cons a l ih =>
      rw [List.cons_append, weight_cons, weight_cons, ih]
      omega

/-- The element at position `i` is taken. -/
theorem weight_eraseIdx (w : α → Nat) {l : List α} {i : Nat} {a : α} (h : l[i]? = some a) :
    weight w (l.eraseIdx i) + w a = weight w l := by
  induction l generalizing i with
  | nil => simp at h
  | cons b l ih =>
      cases i with
      | zero =>
          obtain rfl : b = a := by simpa using h
          simp [Nat.add_comm]
      | succ i =>
          have hrest := ih (by simpa using h)
          rw [List.eraseIdx_cons_succ, weight_cons, weight_cons]
          omega

end Weight

/-- The place `p` changes. -/
theorem sum_change {ι : Type*} [DecidableEq ι] (f f' : ι → Nat) {s : Finset ι} {p : ι}
    (hp : p ∈ s) (h : ∀ q ∈ s, q ≠ p → f' q = f q) :
    ∑ q ∈ s, f' q + f p = ∑ q ∈ s, f q + f' p := by
  have hrest : ∑ q ∈ s.erase p, f' q = ∑ q ∈ s.erase p, f q :=
    Finset.sum_congr rfl fun q hq => h q (Finset.mem_of_mem_erase hq) (Finset.ne_of_mem_erase hq)
  have hf := Finset.add_sum_erase s f hp
  have hf' := Finset.add_sum_erase s f' hp
  omega

variable {σ ε : Type*}

/-- In the states in which `Inv` holds, an enabled step lowers the measure and any other raises it
by its credit at most. -/
structure Settles (f : σ → ε → σ) (m : σ → Nat) (Inv : σ → Prop) (enabled : σ → ε → Prop)
    (credit : ε → Nat) : Prop where
  inv : ∀ s e, Inv s → Inv (f s e)
  lowers : ∀ s e, Inv s → enabled s e → m (f s e) < m s
  raises : ∀ s e, Inv s → ¬ enabled s e → m (f s e) ≤ m s + credit e

/-- Each step of the schedule is enabled in the state in which it is taken. -/
def Schedule (f : σ → ε → σ) (enabled : σ → ε → Prop) : σ → List ε → Prop
  | _, [] => True
  | s, e :: l => enabled s e ∧ Schedule f enabled (f s e) l

/-- The number of steps of the run that are enabled when they are taken. -/
def taken (f : σ → ε → σ) (enabled : σ → ε → Prop) [∀ s e, Decidable (enabled s e)] :
    σ → List ε → Nat
  | _, [] => 0
  | s, e :: l => (if enabled s e then 1 else 0) + taken f enabled (f s e) l

variable {f : σ → ε → σ} {m : σ → Nat} {Inv : σ → Prop} {enabled : σ → ε → Prop}
  {credit : ε → Nat}

theorem Settles.inv_foldl (h : Settles f m Inv enabled credit) {s : σ} (hs : Inv s)
    (l : List ε) : Inv (l.foldl f s) :=
  List.foldlRecOn l f hs fun s hs e _ => h.inv s e hs

/-- The enabled steps of a run are paid for by what it starts with and by its credits. -/
theorem Settles.taken_le [∀ s e, Decidable (enabled s e)] (h : Settles f m Inv enabled credit)
    {s : σ} (hs : Inv s) (l : List ε) :
    taken f enabled s l + m (l.foldl f s) ≤ m s + weight credit l := by
  induction l generalizing s with
  | nil => exact Nat.le_of_eq (Nat.add_comm _ _)
  | cons e l ih =>
      have hrest := ih (h.inv s e hs)
      rw [List.foldl_cons, taken, weight_cons]
      split_ifs with he
      · have hlt := h.lowers s e hs he
        omega
      · have hle := h.raises s e hs he
        omega

/-- Enabled steps lead to a state in which no step is enabled. -/
theorem Settles.exists_schedule (h : Settles f m Inv enabled credit) {s : σ} (hs : Inv s) :
    ∃ l, Schedule f enabled s l ∧ ∀ e, ¬ enabled (l.foldl f s) e := by
  induction hm : m s using Nat.strong_induction_on generalizing s with
  | h n ih =>
      by_cases hdone : ∃ e, enabled s e
      · obtain ⟨e, he⟩ := hdone
        have hlt : m (f s e) < n := hm ▸ h.lowers s e hs he
        obtain ⟨l, hl, hlast⟩ := ih _ hlt (h.inv s e hs) rfl
        exact ⟨e :: l, ⟨he, hl⟩, hlast⟩
      · exact ⟨[], trivial, fun e he => hdone ⟨e, he⟩⟩

end Settling
