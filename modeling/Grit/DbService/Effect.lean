import Grit.DbService.WellFormed

/-!
# What a step tells the outside about one transaction

For a transaction `x`, the events of a DbService are read as answers of local
checks, votes sent to the GTM, logs and failures. `Effect` relates what a step
adds to these to the reason for it: the step's own local check, or a decision of
the GTM that was queued before.
-/

namespace Grit

open Cmd

namespace DbService

variable {C W : Type*}

/-- The answers of the local checks of transaction `x`; `true` is a conflict. -/
def answers (x : Int) (out : List (Event C)) : List Bool :=
  out.filterMap fun e =>
    match e with
    | .judged t _ c => if t.txid = x then some c else none
    | _ => none

/-- The votes on transaction `x`. -/
def ballots (x : Int) (out : List (Event C)) : List Bool :=
  out.filterMap fun e =>
    match e with
    | .sendGtm m =>
        if m.cmd = kJudgeConflit ∧ m.txid = x then some m.isLocalConflict else none
    | _ => none

/-- `cacheRWSet` or `sendLog` was called for transaction `x`. -/
def Logged (x : Int) (out : List (Event C)) : Prop :=
  (∃ t, .cacheRWSet t ∈ out ∧ t.txid = x) ∨
    ∃ m, .sendDbtl m ∈ out ∧ m.cmd = kLog ∧ m.txid = x

/-- `retResult(kTranFail, x)` was called. -/
def Failed (x : Int) (out : List (Event C)) : Prop := .retResult kTranFail x ∈ out

/-- Every validation of transaction `x` was one of a global transaction. -/
def AllGlobal (x : Int) (out : List (Event C)) : Prop :=
  ∀ t ks c, .judged t ks c ∈ out → t.txid = x → t.needGlobalConflct = true

theorem answers_append (x : Int) (out out' : List (Event C)) :
    answers x (out ++ out') = answers x out ++ answers x out' := by
  simp [answers]

theorem ballots_append (x : Int) (out out' : List (Event C)) :
    ballots x (out ++ out') = ballots x out ++ ballots x out' := by
  simp [ballots]

theorem logged_append {x : Int} {out out' : List (Event C)} :
    Logged x (out ++ out') ↔ Logged x out ∨ Logged x out' := by
  simp only [Logged, List.mem_append, or_and_right, exists_or]
  exact or_or_or_comm

theorem failed_append {x : Int} {out out' : List (Event C)} :
    Failed x (out ++ out') ↔ Failed x out ∨ Failed x out' := by
  simp [Failed]

/-- The GTM's decision `b` on transaction `x` is queued. -/
def Decided (x : Int) (b : Bool) (tasks : List Task) : Prop :=
  ∃ data, .solve data ∈ tasks ∧ data.cmd = kJudgeConflit ∧ data.txid = x ∧
    data.isGlobalConflict = b

/-- The step from `d` to `d'` appends the events `es`. -/
structure Effect (x : Int) (d d' : DbService C W) (es : List (Event C)) : Prop where
  out : d'.out = d.out ++ es
  cast : ∀ c, (ballots x es).count c ≤ (answers x es).count c
  logged : AllGlobal x es → Logged x es → Decided x false d.tasks
  failed : Failed x es → true ∈ answers x es ∨ Decided x true d.tasks

theorem Effect.of_silent {x : Int} {d d' : DbService C W} {es : List (Event C)}
    (hout : d'.out = d.out ++ es) (hballots : ballots x es = [])
    (hlogged : ¬ Logged x es) (hfailed : ¬ Failed x es) : Effect x d d' es := by
  constructor
  · exact hout
  · simp [hballots]
  · exact fun _ h => absurd h hlogged
  · exact fun h => absurd h hfailed

theorem effect_of_judgeStep {ops : Wcheck W} (x : Int) {i p : Nat} {t : Transaction}
    {d d' : DbService C W}
    (hstep : JudgeStep ops p t { d with tasks := d.tasks.eraseIdx i } d') :
    ∃ es, Effect x d d' es := by
  cases hstep with
  | stuck =>
      refine ⟨_, Effect.of_silent rfl ?_ ?_ ?_⟩
      · simp [ballots, prologue]
      · simp [Logged, prologue]
      · simp [Failed, prologue]
  | vote w ks hcheck hg =>
      refine ⟨_, rfl, ?_, ?_, ?_⟩
      · intro c
        by_cases hx : t.txid = x
        · simp [ballots, answers, prologue, createGtmMsg, hx]
        · simp [ballots, answers, prologue, createGtmMsg, hx]
      · intro _ h
        simp [Logged, prologue] at h
      · intro h
        simp [Failed, prologue] at h
  | cacheStuck w ks hcheck hg hw =>
      refine ⟨_, rfl, ?_, ?_, ?_⟩
      · simp [ballots, prologue]
      · intro hall h
        have hx : t.txid = x := by simpa [Logged, prologue] using h
        have htrue := hall t ks false (by simp) hx
        simp [hg] at htrue
      · intro h
        simp [Failed, prologue] at h
  | cache w w' ks hcheck hg hw =>
      refine ⟨_, rfl, ?_, ?_, ?_⟩
      · simp [ballots, prologue]
      · intro hall h
        have hx : t.txid = x := by simpa [Logged, prologue, createDbtlMsg] using h
        have htrue := hall t ks false (by simp) hx
        simp [hg] at htrue
      · intro h
        simp [Failed, prologue] at h
  | failLost w ks hcheck hconn =>
      refine ⟨_, rfl, ?_, ?_, ?_⟩
      · simp [ballots, prologue]
      · intro _ h
        simp [Logged, prologue] at h
      · intro h
        have hx : x = t.txid := by simpa [Failed, prologue] using h
        exact Or.inl (by simp [answers, prologue, hx])
  | fail w ks conn heap c vote hcheck hconn hheap hvote =>
      refine ⟨_, rfl, ?_, ?_, ?_⟩
      · intro b
        rcases hvote with rfl | ⟨-, rfl⟩
        · simp [ballots, prologue]
        · by_cases hx : t.txid = x
          · simp [ballots, answers, prologue, createGtmMsg, hx]
          · simp [ballots, answers, prologue, createGtmMsg, hx]
      · intro _ h
        rcases hvote with rfl | ⟨-, rfl⟩
        · simp [Logged, prologue] at h
        · simp [Logged, prologue] at h
      · intro h
        have hx : x = t.txid := by
          rcases hvote with rfl | ⟨-, rfl⟩
          · simpa [Failed, prologue] using h
          · simpa [Failed, prologue] using h
        exact Or.inl (by simp [answers, prologue, hx])

theorem effect_of_retStep {status : Cmd} {x y : Int} {d d₁ d' : DbService C W}
    (es : List (Event C)) (hout : d₁.out = d.out ++ es)
    (hes : ballots x es = [] ∧ ¬ Logged x es ∧ ¬ Failed x es)
    (hfail : status = kTranFail → y = x → Decided x true d.tasks)
    (hstep : RetStep status y d₁ d') : ∃ es', Effect x d d' es' := by
  obtain ⟨hballots, hlogged, hfailed⟩ := hes
  have hmk : ∀ es', d'.out = d₁.out ++ .retResult status y :: es' →
      (∀ e ∈ es', ∃ conn m, e = .sendEs conn m) → ∃ es', Effect x d d' es' := by
    intro es' hout' hsend
    have hb : ballots x es' = [] := by
      rw [ballots, List.filterMap_eq_nil_iff]
      intro e he
      obtain ⟨conn, m, rfl⟩ := hsend e he
      rfl
    have hno : ∀ e ∈ es', (∀ t, e ≠ .cacheRWSet t) ∧ (∀ m, e ≠ .sendDbtl m) ∧
        e ≠ .retResult kTranFail x := by
      intro e he
      obtain ⟨conn, m, rfl⟩ := hsend e he
      simp
    refine ⟨es ++ .retResult status y :: es', ?_, ?_, ?_, ?_⟩
    · rw [hout', hout, List.append_assoc]
    · intro c
      rw [ballots_append, hballots, List.nil_append]
      simp only [ballots] at hb
      simp [ballots, hb]
    · intro _ h
      rcases logged_append.1 h with h | ⟨t, h, -⟩ | ⟨m, h, -⟩
      · exact absurd h hlogged
      · simp only [List.mem_cons, reduceCtorEq, false_or] at h
        exact absurd rfl ((hno _ h).1 t)
      · simp only [List.mem_cons, reduceCtorEq, false_or] at h
        exact absurd rfl ((hno _ h).2.1 m)
    · intro h
      rcases failed_append.1 h with h | h
      · exact absurd h hfailed
      · simp only [Failed, List.mem_cons, Event.retResult.injEq] at h
        rcases h with ⟨rfl, rfl⟩ | h
        · exact Or.inr (hfail rfl rfl)
        · exact absurd rfl (hno _ h).2.2
  cases hstep with
  | lost => exact hmk [] rfl (by simp)
  | sent conn heap c hconn hheap => exact hmk [_] rfl (by simp)

theorem effect_of_solveStep {ops : Wcheck W} (x : Int) {i : Nat} {data : DbtmMsg}
    {d d' : DbService C W} (hwf : WellFormed d)
    (htask : d.tasks[i]? = some (.solve data)) (hcmd : data.cmd = kJudgeConflit)
    (hstep : SolveStep ops data { d with tasks := d.tasks.eraseIdx i } d') :
    ∃ es, Effect x d d' es := by
  have hqueued : ∀ {b}, data.isGlobalConflict = b → data.txid = x → Decided x b d.tasks := by
    intro b hb hx
    exact ⟨data, List.mem_of_getElem? htask, hcmd, hx, hb⟩
  cases hstep with
  | missing => exact ⟨[], Effect.of_silent (by simp) rfl (by simp [Logged]) (by simp [Failed])⟩
  | dangling => exact ⟨[], Effect.of_silent (by simp) rfl (by simp [Logged]) (by simp [Failed])⟩
  | cacheStuck p t hp ht hd hw =>
      have hname := hwf.named data.txid p t hp ht
      refine ⟨_, rfl, by simp [ballots], ?_, by simp [Failed]⟩
      intro _ h
      have hx : t.txid = x := by simpa [Logged] using h
      exact hqueued hd (hname.symm.trans hx)
  | cache p t w tail hp ht hd hw htail =>
      have hname := hwf.named data.txid p t hp ht
      refine ⟨_, rfl, ?_, ?_, ?_⟩
      · rcases htail with ⟨rfl, -⟩ | rfl
        · simp [ballots]
        · simp [ballots]
      · intro _ h
        have hx : t.txid = x := by
          rcases htail with ⟨rfl, -⟩ | rfl
          · simpa [Logged, createDbtlMsg] using h
          · simpa [Logged, createDbtlMsg] using h
        exact hqueued hd (hname.symm.trans hx)
      · rcases htail with ⟨rfl, -⟩ | rfl
        · simp [Failed]
        · simp [Failed]
  | fail s' hd hret =>
      refine effect_of_retStep (d := d) _ rfl ?_ ?_ hret
      · simp [ballots, Logged, Failed]
      · exact fun _ hx => hqueued hd hx

theorem effect_of_taskStep {ops : Wcheck W} (x : Int) {i : Nat} {d d' : DbService C W}
    (hwf : WellFormed d) (hstep : TaskStep ops i d d') : ∃ es, Effect x d d' es := by
  cases hstep with
  | none => exact ⟨[], Effect.of_silent (by simp) rfl (by simp [Logged]) (by simp [Failed])⟩
  | getLsn txid htask =>
      refine ⟨_, Effect.of_silent rfl ?_ ?_ ?_⟩
      · simp [ballots]
      · simp [Logged, createDbtlMsg]
      · simp [Failed]
  | dangling => exact ⟨[], Effect.of_silent (by simp) rfl (by simp [Logged]) (by simp [Failed])⟩
  | judge p t htask ht s' hjudge => exact effect_of_judgeStep x hjudge
  | ignore => exact ⟨[], Effect.of_silent (by simp) rfl (by simp [Logged]) (by simp [Failed])⟩
  | solve data htask hcmd s' hsolve => exact effect_of_solveStep x hwf htask hcmd hsolve

/-- A message has no effect on `x` beyond what it queues, unless it reports the
failure of `x`. -/
theorem effect_of_messageStep (x : Int) {conn : C} {msg : RootMsg} {d d' : DbService C W}
    (hno : ∀ data, msg = .dbtmMsg data → data.cmd ≠ kTranFail)
    (hstep : MessageStep conn msg d d') : ∃ es, Effect x d d' es := by
  have hnil : d'.out = d.out → ∃ es, Effect x d d' es := by
    intro h
    exact ⟨[], Effect.of_silent (by simp [h]) rfl (by simp [Logged]) (by simp [Failed])⟩
  cases hstep with
  | skip => exact hnil rfl
  | stuck _ hout hc => exact hnil hout
  | collect data hmsg hcmd p t s₁ hopen rset wset => exact hnil (opened_find hopen).2.2
  | commitEarly => exact hnil rfl
  | commitReady =>
      exact ⟨_, Effect.of_silent rfl (by simp [ballots]) (by simp [Logged]) (by simp [Failed])⟩
  | lsnEarly => exact hnil rfl
  | lsnReady =>
      exact ⟨_, Effect.of_silent rfl (by simp [ballots]) (by simp [Logged]) (by simp [Failed])⟩
  | decision => exact hnil rfl
  | result data hmsg hcmd s' hret =>
      refine effect_of_retStep (d := d) [] (by simp) ?_ ?_ hret
      · simp [ballots, Logged, Failed]
      · exact fun hfail => absurd hfail (hno data hmsg)

/-- Only a message queues a decision. -/
theorem solve_mem_of_messageStep {conn : C} {msg : RootMsg} {d d' : DbService C W}
    (hstep : MessageStep conn msg d d') (hlive : d'.crashed = false) {data : DbtmMsg}
    (h : Task.solve data ∈ d'.tasks) :
    Task.solve data ∈ d.tasks ∨ msg = .dbtmMsg data := by
  cases hstep with
  | skip => exact Or.inl h
  | stuck _ hout hc => simp [hc] at hlive
  | collect data hmsg hcmd p t s₁ hopen rset wset =>
      have htasks : s₁.tasks = d.tasks := by
        cases hopen with
        | old => rfl
        | new => rfl
      rw [htasks] at h
      rcases List.mem_append.1 h with h | h
      · exact Or.inl h
      · split at h
        · simp at h
        · simp at h
  | commitEarly => exact Or.inl h
  | commitReady => exact Or.inl (by simpa using h)
  | lsnEarly => exact Or.inl h
  | lsnReady => exact Or.inl (by simpa using h)
  | decision data' hmsg hcmd =>
      rcases List.mem_append.1 h with h | h
      · exact Or.inl h
      · simp only [List.mem_singleton, Task.solve.injEq] at h
        subst h
        exact Or.inr hmsg
  | result data' hmsg hcmd s' hret =>
      cases hret with
      | lost => exact Or.inl h
      | sent => exact Or.inl h

theorem tasks_of_taskStep {ops : Wcheck W} {i : Nat} {d d' : DbService C W}
    (hstep : TaskStep ops i d d') : d'.tasks = d.tasks.eraseIdx i := by
  cases hstep with
  | none h => exact (List.eraseIdx_of_length_le (by simpa using h)).symm
  | getLsn => rfl
  | dangling => rfl
  | judge p t htask ht s' hjudge =>
      cases hjudge with
      | stuck => rfl
      | vote => rfl
      | cacheStuck => rfl
      | cache => rfl
      | failLost => rfl
      | fail => rfl
  | ignore => rfl
  | solve data htask hcmd s' hsolve =>
      cases hsolve with
      | missing => rfl
      | dangling => rfl
      | cacheStuck => rfl
      | cache => rfl
      | fail s' hd hret =>
          cases hret with
          | lost => rfl
          | sent => rfl

end DbService

end Grit
