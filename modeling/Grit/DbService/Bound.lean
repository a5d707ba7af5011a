import Grit.DbService.Pending

/-!
# At most one result for one commit

Each step moves the work for a transaction along its chain without doubling it:
what has been returned, what is queued, what an outstanding lsn will queue and what
is on its way through the other processes never exceeds the number of commits.
-/

namespace Grit

open Cmd

namespace DbService

variable {C W : Type*}

/-- While an lsn of `x` is outstanding, nothing is queued for the transaction that
waits for it; `pend` is the number of outstanding lsns and `k` the number of
commits so far. -/
structure Ready (x : Int) (k pend : Nat) (d : DbService C W) : Prop where
  absent : current x d = none → pend = 0 ∧ judging x d = 0
  present : ∀ t, current x d = some t → t.lsn ≠ -1 ∧ pend ≤ 1 ∧
    (pend = 1 → judging x d = 0 ∧ t.lsn ≤ 0) ∧ (k = 0 → t.alreadyCommit = false)

/-- The validations that outstanding lsns will queue. -/
def armed (x : Int) (pend : Nat) (d : DbService C W) : Nat :=
  if (current x d).any (fun t => t.alreadyCommit) then pend else 0

theorem armed_le (x : Int) (pend : Nat) (d : DbService C W) : armed x pend d ≤ pend := by
  unfold armed
  split
  · exact Nat.le_refl _
  · exact Nat.zero_le _

theorem armed_mono (x : Int) {pend pend' : Nat} (h : pend' ≤ pend) (d : DbService C W) :
    armed x pend' d ≤ armed x pend d := by
  unfold armed
  split
  · exact h
  · exact Nat.le_refl _

theorem armed_congr {x : Int} {d d' : DbService C W}
    (h : (current x d').any (fun t => t.alreadyCommit) =
      (current x d).any fun t => t.alreadyCommit) (pend : Nat) :
    armed x pend d' = armed x pend d := by
  rw [armed, armed, h]

theorem armed_some {x : Int} {d : DbService C W} {t : Transaction}
    (h : current x d = some t) (pend : Nat) :
    armed x pend d = if t.alreadyCommit then pend else 0 := by
  rw [armed, h, Option.any_some]

theorem Ready.mono {x : Int} {k k' pend pend' : Nat} {d d' : DbService C W}
    (h : Ready x k pend d) (hk : k ≤ k') (hpend : pend' ≤ pend)
    (hJ : judging x d' ≤ judging x d) (hcur : current x d' = current x d) :
    Ready x k' pend' d' := by
  constructor
  · intro hnone
    obtain ⟨h₁, h₂⟩ := h.absent (hcur ▸ hnone)
    omega
  · intro t ht
    obtain ⟨h₁, h₂, h₃, h₄⟩ := h.present t (hcur ▸ ht)
    refine ⟨h₁, by omega, ?_, fun hk' => h₄ (by omega)⟩
    intro hone
    obtain ⟨h₅, h₆⟩ := h₃ (by omega)
    exact ⟨by omega, h₆⟩

/-- While a validation is queued, no lsn is outstanding. -/
theorem Ready.pend_eq_zero {x : Int} {k pend : Nat} {d : DbService C W} (h : Ready x k pend d)
    (hJ : judging x d ≠ 0) : pend = 0 := by
  cases hcur : current x d with
  | none => exact (h.absent hcur).1
  | some t =>
      obtain ⟨-, hone, hwait, -⟩ := h.present t hcur
      by_contra hne
      exact hJ (hwait (by omega)).1

/-- An object takes the place of another one. -/
theorem Ready.replace {x : Int} {k pend : Nat} {d : DbService C W} {t : Transaction}
    (hcur : current x d = some t) (hlsn : t.lsn ≠ -1) (hpend : pend ≤ 1)
    (hwait : pend = 1 → judging x d = 0 ∧ t.lsn ≤ 0)
    (hk : k = 0 → t.alreadyCommit = false) : Ready x k pend d := by
  constructor
  · intro hnone
    rw [hcur] at hnone
    exact absurd hnone (by simp)
  · intro t' ht'
    rw [hcur] at ht'
    obtain rfl := Option.some.inj ht'
    exact ⟨hlsn, hpend, hwait, hk⟩

/-- The validations that have been done, are queued or will be queued by an outstanding lsn:
not more than there have been commits. `n` of them are done. -/
structure Chain (x : Int) (k pend n : Nat) (d : DbService C W) : Prop where
  sum : n + judging x d + armed x pend d ≤ k
  ready : Ready x k pend d

theorem Chain.mono {x : Int} {k k' pend pend' n n' : Nat} {d : DbService C W}
    (h : Chain x k pend n d) (hk : k ≤ k') (hpend : pend' ≤ pend) (hn : n' ≤ n) :
    Chain x k' pend' n' d := by
  have hsum := h.sum
  have harmed := armed_mono x hpend d
  exact ⟨by omega, h.ready.mono hk hpend (Nat.le_refl _) rfl⟩

/-- A step that leaves the collected transaction as it is. -/
theorem Chain.of_current_eq {x : Int} {k k' pend pend' n n' : Nat} {d d' : DbService C W}
    (h : Chain x k pend n d) (hcur : current x d' = current x d)
    (hJ : judging x d' ≤ judging x d) (hk : k ≤ k') (hpend : pend' ≤ pend)
    (hn : n' + judging x d' ≤ n + judging x d) : Chain x k' pend' n' d' := by
  have hle := h.sum
  have harmed := armed_mono x hpend d
  have hcongr := armed_congr (congrArg _ hcur) pend'
  exact ⟨by omega, h.ready.mono hk hpend hJ hcur⟩

section Step

variable {x : Int} {k k' pend pend' n n' : Nat} {d d' : DbService C W} {t t' : Transaction}

/-- Data is added to a transaction that has its lsn or waits for it. -/
theorem Chain.collect (h : Chain x k pend n d) (hcur : current x d = some t)
    (hcur' : current x d' = some t') (hlsn : t'.lsn = t.lsn)
    (hcommit : t'.alreadyCommit = t.alreadyCommit) (hk : k ≤ k')
    (hJ : judging x d' ≤ judging x d) (hpend : pend' ≤ pend)
    (hn : n' + judging x d' ≤ n + judging x d) : Chain x k' pend' n' d' := by
  have hsum := h.sum
  obtain ⟨hne, hone, hwait, hnone⟩ := h.ready.present t hcur
  have hcongr : armed x pend' d' = armed x pend' d := by
    rw [armed_some hcur, armed_some hcur', hcommit]
  have harmed := armed_mono x hpend d
  refine ⟨by omega, .replace hcur' (hlsn ▸ hne) (by omega) ?_ (fun hk' => ?_)⟩
  · intro hp
    obtain ⟨hj, hl⟩ := hwait (by omega)
    exact ⟨by omega, hlsn ▸ hl⟩
  · rw [hcommit]
    exact hnone (by omega)

/-- The first data of a transaction asks for its lsn. -/
theorem Chain.create (h : Chain x k pend n d) (hcur : current x d = none)
    (hcur' : current x d' = some t') (hlsn : t'.lsn = 0) (hcommit : t'.alreadyCommit = false)
    (hk : k ≤ k') (hJ : judging x d' ≤ judging x d) (hpend : pend' ≤ pend + 1)
    (hn : n' + judging x d' ≤ n + judging x d) : Chain x k' pend' n' d' := by
  have hsum := h.sum
  obtain ⟨hp, hj⟩ := h.ready.absent hcur
  have harmed : armed x pend' d' = 0 := by
    rw [armed_some hcur', hcommit]
    rfl
  refine ⟨by omega, .replace hcur' (by omega) (by omega) ?_ (fun _ => hcommit)⟩
  intro _
  exact ⟨by omega, by omega⟩

/-- A commit that waits for the lsn: the outstanding lsn will queue the validation. -/
theorem Chain.commitEarly (h : Chain x 0 pend n d) (hcur : current x d = some t)
    (hcur' : current x d' = some t') (hlsn : t'.lsn = t.lsn) (hneg : ¬ 0 < t.lsn)
    (hpend : pend' ≤ pend) (hn : n' + judging x d' ≤ n + judging x d) :
    Chain x 1 pend' n' d' := by
  have hsum := h.sum
  obtain ⟨hne, hone, -, -⟩ := h.ready.present t hcur
  have harmed := armed_le x pend' d'
  refine ⟨by omega, .replace hcur' (hlsn ▸ hne) (by omega) ?_
    (fun hk => absurd hk Nat.one_ne_zero)⟩
  intro _
  exact ⟨by omega, hlsn ▸ Int.not_lt.1 hneg⟩

/-- A commit that finds the lsn queues the validation at once. -/
theorem Chain.commitReady (h : Chain x 0 pend n d) (hcur : current x d = some t)
    (hcur' : current x d' = some t') (hlsn : t'.lsn = t.lsn) (hpos : 0 < t.lsn)
    (hpend : pend' ≤ pend) (hn : n' + judging x d' ≤ n + judging x d + 1) :
    Chain x 1 pend' n' d' := by
  have hsum := h.sum
  obtain ⟨hne, hone, hwait, -⟩ := h.ready.present t hcur
  -- an outstanding lsn would mean that the transaction still waits for it
  have hp : pend ≠ 1 := fun hp => absurd (hwait hp).2 (Int.not_le.2 hpos)
  have harmed := armed_le x pend' d'
  exact ⟨by omega, .replace hcur' (hlsn ▸ hne) (by omega) (fun hp' => absurd hp' (by omega))
    (fun hk => absurd hk Nat.one_ne_zero)⟩

/-- The lsn comes before the commit, and nothing is queued. -/
theorem Chain.lsnEarly (h : Chain x k pend n d) (hcur : current x d = some t)
    (hcur' : current x d' = some t') (hlsn : t'.lsn = 0) (hcommit : t'.alreadyCommit = false)
    (hpend : pend' + 1 ≤ pend) (hn : n' + judging x d' ≤ n + judging x d) :
    Chain x k pend' n' d' := by
  have hsum := h.sum
  obtain ⟨-, hone, -, -⟩ := h.ready.present t hcur
  have harmed := armed_le x pend' d'
  exact ⟨by omega, .replace hcur' (by omega) (by omega) (fun hp => absurd hp (by omega))
    (fun _ => hcommit)⟩

/-- The lsn comes after the commit: what it was to queue is queued. -/
theorem Chain.lsnReady (h : Chain x k pend n d) (hcur : current x d = some t)
    (hcur' : current x d' = some t') (hlsn : t'.lsn = 0) (hcommit : t.alreadyCommit = true)
    (hpend : pend' + 1 ≤ pend) (hn : n' + judging x d' ≤ n + judging x d + 1) :
    Chain x k pend' n' d' := by
  have hsum := h.sum
  obtain ⟨-, hone, -, hnone⟩ := h.ready.present t hcur
  have hbefore : armed x pend d = pend := by rw [armed_some hcur, if_pos hcommit]
  have harmed := armed_le x pend' d'
  exact ⟨by omega, .replace hcur' (by omega) (by omega) (fun hp => absurd hp (by omega))
    (fun hk => absurd (hnone hk) (by simp [hcommit]))⟩

/-- The only validation ends and its object may be gone. -/
theorem Chain.judged (h : Chain x k pend n d)
    (hcur : current x d' = current x d ∨ current x d' = none)
    (hk : k ≤ k') (hone : k ≤ 1) (hJ : judging x d' + 1 ≤ judging x d) (hpend : pend' ≤ pend)
    (hn : n' + judging x d' ≤ n + judging x d) : Chain x k' pend' n' d' := by
  rcases hcur with hcur | hcur
  · exact h.of_current_eq hcur (by omega) hk hpend hn
  · have hsum := h.sum
    have hp : pend = 0 := h.ready.pend_eq_zero (by omega)
    have harmed := armed_le x pend' d'
    refine ⟨by omega, fun _ => by omega, ?_⟩
    intro t ht
    rw [hcur] at ht
    exact absurd ht (by simp)

/-- A step of the DbService keeps the chain, provided that there is one commit at most, the
DBTL gives the lsn 0, and what is done grows only by what is queued no more. -/
theorem Chain.localStep {lsns lsns' : Nat} {es : List (Event C)} {inp : Input}
    (h : Chain x k (asking x d + lsns) n d) (hstep : LocalStep x d d' es inp)
    (hlsns : lsns' + inp.lsns = lsns + requests x es)
    (hn : n' ≤ n + (judging x d - judging x d')) (hk : k + inp.commits ≤ 1)
    (hzero : ∀ l, inp = .lsn l → l = 0) (hlive : d'.crashed = false) :
    Chain x (k + inp.commits) (asking x d' + lsns') n' d' := by
  cases hstep with
  | stuck _ hc _ =>
      rw [hlive] at hc
      exact absurd hc (by simp)
  | quiet _ htasks hes hcur =>
      obtain ⟨hJ, hS, hL⟩ := htasks
      obtain ⟨h₁, h₂, h₃⟩ := hes
      exact h.of_current_eq hcur hJ (by omega) (by omega) (by omega)
  | collect _ t rset wset hes hJ hS hL hcur hcur' =>
      have hne : t.lsn ≠ -1 := (h.ready.present t hcur).1
      have hreq := hes.requests
      rw [if_neg hne] at hL
      exact h.collect hcur hcur' (if_neg hne) rfl (Nat.le_add_right _ _) hJ (by omega)
        (by omega)
  | create _ rset wset hes hJ hS hL hcur hcur' =>
      have hreq := hes.requests
      exact h.create hcur hcur' rfl rfl (Nat.le_add_right _ _) hJ (by omega) (by omega)
  | commitEarly t b htasks hes hcur hlsn hcur' =>
      obtain ⟨hJ, hS, hL⟩ := htasks
      have hreq := hes.requests
      simp only [Input.commits, Input.lsns] at hk hlsns
      obtain rfl : k = 0 := by omega
      exact h.commitEarly hcur hcur' rfl hlsn (by omega) (by omega)
  | commitReady t b hes hJ hS hL hcur hlsn hcur' =>
      have hreq := hes.requests
      simp only [Input.commits, Input.lsns] at hk hlsns
      obtain rfl : k = 0 := by omega
      exact h.commitReady hcur hcur' rfl hlsn (by omega) (by omega)
  | lsnEarly t l htasks hes hcur hcommit hcur' =>
      obtain ⟨hJ, hS, hL⟩ := htasks
      have hreq := hes.requests
      simp only [Input.lsns] at hlsns
      exact h.lsnEarly hcur hcur' (hzero l rfl) hcommit (by omega) (by omega)
  | lsnReady t l hes hJ hS hL hcur hcommit hcur' =>
      have hreq := hes.requests
      simp only [Input.lsns] at hlsns
      exact h.lsnReady hcur hcur' (hzero l rfl) hcommit (by omega) (by omega)
  | decision hes hJ hS hL hcur =>
      have hreq := hes.requests
      exact h.of_current_eq hcur hJ (by omega) (by omega) (by omega)
  | result htasks hr hes hcur =>
      obtain ⟨hJ, hS, hL⟩ := htasks
      exact h.of_current_eq hcur hJ (by omega) (by omega) (by omega)
  | ask _ hes hJ hS hL hcur => exact h.of_current_eq hcur hJ (by omega) (by omega) (by omega)
  | judged _ hes hJ hS hL hcur =>
      exact h.judged hcur (Nat.le_add_right _ _) (by omega) hJ (by omega) (by omega)
  | solved _ hes hJ hS hL hcur => exact h.of_current_eq hcur hJ (by omega) (by omega) (by omega)

end Step

/-! ### Counting results -/

/-- The bound for `k` commits: `lsns` requests or replies for an lsn and `away` votes,
decisions, logs and results of `x` are outside the DbService. -/
structure Bounded (x : Int) (k lsns away : Nat) (d : DbService C W) : Prop where
  sum : results x d.out + judging x d + solving x d + armed x (asking x d + lsns) d +
    away ≤ k
  ready : Ready x k (asking x d + lsns) d

/-- A validation is done when its result has been returned or its outcome has been handed
on. -/
theorem bounded_iff {x : Int} {k lsns away : Nat} {d : DbService C W} :
    Bounded x k lsns away d ↔
      Chain x k (asking x d + lsns) (results x d.out + solving x d + away) d := by
  constructor
  · intro h
    have hsum := h.sum
    exact ⟨by omega, h.ready⟩
  · intro h
    have hsum := h.sum
    exact ⟨by omega, h.ready⟩

theorem Bounded.mono {x : Int} {k k' lsns lsns' away away' : Nat} {d : DbService C W}
    (h : Bounded x k lsns away d) (hk : k ≤ k') (hlsns : lsns' ≤ lsns)
    (haway : away' ≤ away) : Bounded x k' lsns' away' d :=
  bounded_iff.2 ((bounded_iff.1 h).mono hk (Nat.add_le_add_left hlsns _)
    (Nat.add_le_add_left haway _))

section Results

variable {x : Int} {k lsns lsns' away away' : Nat} {d d' : DbService C W}
  {es : List (Event C)} {inp : Input}

theorem results_append (x : Int) (out out' : List (Event C)) :
    results x (out ++ out') = results x out + results x out' := by
  simp [results]

theorem results_le_of_silent (hes : Silent x es) {out : List (Event C)} {n c : Nat}
    (h : results x out + away ≤ k) (haway : away' + n = away + handedOn x es) :
    results x out + results x es + away' ≤ k + c := by
  rw [hes.handedOn] at haway
  rw [hes.results]
  omega

/-- What has been returned or is on its way stays within the bound, also when the step
ends the process. -/
theorem Bounded.results_le (h : Bounded x k lsns away d) (hstep : LocalStep x d d' es inp)
    (hout : d'.out = d.out ++ es) (haway : away' + inp.works = away + handedOn x es) :
    results x d'.out + away' ≤ k + inp.commits := by
  have hsum := h.sum
  have hle : results x d.out + away ≤ k := by omega
  rw [hout, results_append]
  cases hstep with
  | quiet _ _ hes _ => exact results_le_of_silent hes hle haway
  | stuck _ _ hes => exact results_le_of_silent hes hle haway
  | collect _ _ _ _ hes _ _ _ _ _ => exact results_le_of_silent hes hle haway
  | create _ _ _ hes _ _ _ _ _ => exact results_le_of_silent hes hle haway
  | commitEarly _ _ _ hes _ _ _ => exact results_le_of_silent hes hle haway
  | commitReady _ _ hes _ _ _ _ _ _ => exact results_le_of_silent hes hle haway
  | lsnEarly _ _ _ hes _ _ _ => exact results_le_of_silent hes hle haway
  | lsnReady _ _ hes _ _ _ _ _ _ => exact results_le_of_silent hes hle haway
  | decision hes _ _ _ _ => exact results_le_of_silent hes hle haway
  | result _ hr hes _ =>
      obtain ⟨hhanded, -⟩ := hes
      simp only [Input.works] at haway
      omega
  | ask _ hes _ _ _ _ => omega
  | judged _ hes hJ _ _ _ => omega
  | solved _ hes _ hS _ _ => omega

/-- What is returned, decided or on its way grows only by what is queued no more. -/
theorem LocalStep.done_le (hstep : LocalStep x d d' es inp) (hout : d'.out = d.out ++ es)
    (haway : away' + inp.works = away + handedOn x es) (hlive : d'.crashed = false) :
    results x d'.out + solving x d' + away' ≤
      results x d.out + solving x d + away + (judging x d - judging x d') := by
  rw [hout, results_append]
  cases hstep with
  | quiet _ htasks hes _ =>
      obtain ⟨hJ, hS, hL⟩ := htasks
      obtain ⟨h₁, h₂, -⟩ := hes
      omega
  | stuck _ hc _ =>
      rw [hlive] at hc
      exact absurd hc (by simp)
  | collect _ _ _ _ hes _ hS _ _ _ =>
      obtain ⟨h₁, h₂, -⟩ := hes
      omega
  | create _ _ _ hes _ hS _ _ _ =>
      obtain ⟨h₁, h₂, -⟩ := hes
      omega
  | commitEarly _ _ htasks hes _ _ _ =>
      obtain ⟨hJ, hS, hL⟩ := htasks
      obtain ⟨h₁, h₂, -⟩ := hes
      omega
  | commitReady _ _ hes _ hS _ _ _ _ =>
      obtain ⟨h₁, h₂, -⟩ := hes
      omega
  | lsnEarly _ _ htasks hes _ _ _ =>
      obtain ⟨hJ, hS, hL⟩ := htasks
      obtain ⟨h₁, h₂, -⟩ := hes
      omega
  | lsnReady _ _ hes _ hS _ _ _ _ =>
      obtain ⟨h₁, h₂, -⟩ := hes
      omega
  | decision hes _ hS _ _ =>
      obtain ⟨h₁, h₂, -⟩ := hes
      simp only [Input.works] at haway
      omega
  | result htasks hr hes _ =>
      obtain ⟨hJ, hS, hL⟩ := htasks
      obtain ⟨h₂, -⟩ := hes
      simp only [Input.works] at haway
      omega
  | ask _ hes _ hS _ _ => omega
  | judged _ hes hJ hS _ _ => omega
  | solved _ hes _ hS _ _ => omega

/-- A step of the DbService keeps the bound, provided that there is one commit at most
and the DBTL gives the lsn 0. -/
theorem Bounded.localStep (h : Bounded x k lsns away d) (hstep : LocalStep x d d' es inp)
    (hout : d'.out = d.out ++ es) (haway : away' + inp.works = away + handedOn x es)
    (hlsns : lsns' + inp.lsns = lsns + requests x es) (hk : k + inp.commits ≤ 1)
    (hzero : ∀ l, inp = .lsn l → l = 0) (hlive : d'.crashed = false) :
    Bounded x (k + inp.commits) lsns' away' d' :=
  bounded_iff.2 ((bounded_iff.1 h).localStep hstep hlsns (hstep.done_le hout haway hlive) hk
    hzero hlive)

end Results

end DbService

end Grit
