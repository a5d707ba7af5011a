import Grit.DbService.Pending

/-!
# A transaction that is not committed yet

Until a commit of a transaction has been handled, no validation of it is queued, and so
nothing takes it out of the map of the DbService.
-/

namespace Grit

open Cmd

namespace DbService

variable {C W : Type*}

/-- No commit of `x` has been handled. -/
structure Fresh (x : Int) (d : DbService C W) : Prop where
  wellFormed : WellFormed d
  unjudged : judging x d = 0
  uncommitted : ∀ t, current x d = some t → t.alreadyCommit = false

theorem fresh_init (x : Int) (w : W) : Fresh x (init w : DbService C W) := by
  refine ⟨wellFormed_init w, rfl, ?_⟩
  intro t ht
  simp [init, current] at ht

theorem Fresh.of_current_eq {x : Int} {d d' : DbService C W} (h : Fresh x d)
    (hwf : WellFormed d') (hJ : judging x d' ≤ judging x d)
    (hcur : current x d' = current x d) :
    Fresh x d' ∧ ((current x d).isSome = true → (current x d').isSome = true) := by
  refine ⟨⟨hwf, ?_, ?_⟩, ?_⟩
  · have hzero := h.unjudged
    omega
  · rw [hcur]
    exact h.uncommitted
  · rw [hcur]
    exact id

/-- Another object in the map, with nothing queued for it. -/
theorem Fresh.replace {x : Int} {d d' : DbService C W} (h : Fresh x d)
    (hwf : WellFormed d') (hJ : judging x d' ≤ judging x d) {t : Transaction}
    (hcur : current x d' = some t) (hcommit : t.alreadyCommit = false) :
    Fresh x d' ∧ ((current x d).isSome = true → (current x d').isSome = true) := by
  refine ⟨⟨hwf, ?_, ?_⟩, ?_⟩
  · have hzero := h.unjudged
    omega
  · intro t' ht'
    rw [hcur] at ht'
    obtain rfl := Option.some.inj ht'
    exact hcommit
  · intro _
    rw [hcur]
    rfl

/-- Nothing but a commit starts the validation, and only a validation takes the
transaction out of the map. -/
theorem Fresh.localStep {x : Int} {d d' : DbService C W} {es : List (Event C)}
    {inp : Input} (h : Fresh x d) (hstep : LocalStep x d d' es inp) (hcommit : inp ≠ .commit)
    (hwf : WellFormed d') (hlive : d'.crashed = false) :
    Fresh x d' ∧ ((current x d).isSome = true → (current x d').isSome = true) := by
  have hzero := h.unjudged
  cases hstep with
  | quiet _ htasks _ hcur => exact h.of_current_eq hwf htasks.judging hcur
  | stuck _ hc _ =>
      rw [hlive] at hc
      exact absurd hc (by simp)
  | collect _ t rset wset _ hJ _ _ hcur hcur' =>
      exact h.replace hwf hJ hcur' (h.uncommitted t hcur)
  | create _ rset wset _ hJ _ _ _ hcur' => exact h.replace hwf hJ hcur' rfl
  | commitEarly => exact absurd rfl hcommit
  | commitReady => exact absurd rfl hcommit
  | lsnEarly t l htasks _ _ hno hcur' =>
      exact h.replace hwf htasks.judging hcur' hno
  | lsnReady t l _ _ _ _ hcur hyes _ =>
      rw [h.uncommitted t hcur] at hyes
      exact absurd hyes (by simp)
  | decision _ hJ _ _ hcur => exact h.of_current_eq hwf hJ hcur
  | result htasks _ _ hcur => exact h.of_current_eq hwf htasks.judging hcur
  | ask _ _ hJ _ _ hcur => exact h.of_current_eq hwf hJ hcur
  | judged _ _ hJ _ _ _ => omega
  | solved _ _ hJ _ _ hcur => exact h.of_current_eq hwf hJ hcur

theorem Fresh.message {x : Int} {conn : C} {msg : RootMsg} {d d' : DbService C W}
    (h : Fresh x d) (hstep : MessageStep conn msg d d') (hcommit : inputOf x msg ≠ .commit)
    (hlive : d'.crashed = false) :
    Fresh x d' ∧ ((current x d).isSome = true → (current x d').isSome = true) := by
  obtain ⟨es, -, hlocal⟩ := localStep_of_messageStep (x := x) h.wellFormed hstep
  exact h.localStep hlocal hcommit (h.wellFormed.messageStep hstep hlive) hlive

theorem Fresh.task {x : Int} {ops : Wcheck W} {i : Nat} {d d' : DbService C W}
    (h : Fresh x d) (hstep : TaskStep ops i d d') (hlive : d'.crashed = false) :
    Fresh x d' ∧ ((current x d).isSome = true → (current x d').isSome = true) := by
  obtain ⟨es, -, hlocal, -⟩ := localStep_of_taskStep (x := x) h.wellFormed hstep
  exact h.localStep hlocal (by simp) (h.wellFormed.taskStep hstep) hlive

/-- Data puts its transaction into the map. -/
theorem current_of_data {conn : C} {m : DbServiceMsg} {d d' : DbService C W}
    (hcmd : m.cmd = kData) (hstep : MessageStep conn (.dbServiceMsg m) d d')
    (hlive : d'.crashed = false) : (current m.txid d').isSome = true := by
  cases hstep with
  | skip h _ => exact absurd hcmd (h m rfl).1
  | stuck _ _ hc =>
      rw [hlive] at hc
      exact absurd hc (by simp)
  | collect data hmsg _ p t s₁ hopen rset wset =>
      obtain rfl := RootMsg.dbServiceMsg.inj hmsg
      rw [current, (opened_find hopen).1]
      simp
  | commitEarly data hmsg hc =>
      obtain rfl := RootMsg.dbServiceMsg.inj hmsg
      simp [hcmd] at hc
  | commitReady data hmsg hc =>
      obtain rfl := RootMsg.dbServiceMsg.inj hmsg
      simp [hcmd] at hc
  | lsnEarly data hmsg => simp at hmsg
  | lsnReady data hmsg => simp at hmsg
  | decision data hmsg => simp at hmsg
  | result data hmsg => simp at hmsg

end DbService

end Grit
