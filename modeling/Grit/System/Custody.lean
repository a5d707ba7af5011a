import Grit.DbService.Custody
import Grit.System.Outcome

/-!
# Decisions find their transactions

The GTM, the log services and the other participants only pass tokens on, so that the invariant
of one DbService holds along every run in which the transaction is committed there once.
-/

namespace Grit

open Cmd DbService Token

namespace Sys

variable {A P C W : Type*} [DecidableEq P]

/-- The invariant for the participant `p` and the transaction `x`, after `k` commits. -/
structure InCustody (p : P) (x : Int) (k : Nat) (s : Sys A P C W) : Prop where
  linked : Linked s
  checked : (checks x (s.dbs p).out).length ≤ k
  custody : Custody x (tokens p x s) (s.dbs p)
  live : (s.dbs p).crashed = false → WellFormed (s.dbs p) ∧
    Chain x k (asking x (s.dbs p) + (tokens p x s).countP fun tok => tok = .lsn)
      (checks x (s.dbs p).out).length (s.dbs p)

theorem InCustody.logs_le {p : P} {x : Int} {k : Nat} {s : Sys A P C W} (h : InCustody p x k s) :
    (logs x (s.dbs p).out).length ≤ k := by
  have hvoted := h.custody.voted
  have hchecked := h.checked
  omega

theorem InCustody.fade {p : P} {x : Int} {k k' : Nat} {s s' : Sys A P C W}
    (h : InCustody p x k s) (hk : k ≤ k') (hlinked : Linked s') (hdbs : s'.dbs p = s.dbs p)
    (hfades : Fades p x s s') : InCustody p x k' s' := by
  refine ⟨hlinked, ?_, ?_, ?_⟩
  · rw [hdbs]
    exact Nat.le_trans h.checked hk
  · rw [hdbs]
    exact h.custody.fade hfades
  · intro hlive
    rw [hdbs] at hlive ⊢
    obtain ⟨hwf, hchain⟩ := h.live hlive
    exact ⟨hwf, hchain.mono hk (Nat.add_le_add_left (hfades _ inherited_lsn) _) (Nat.le_refl _)⟩

/-- The DbService of `p` takes a step. -/
theorem InCustody.move {p : P} {x : Int} {k : Nat} {s s' : Sys A P C W}
    (h : InCustody p x k s) (hlive : (s.dbs p).crashed = false) (hlinked : Linked s')
    {es : List (Event C)} (hout : (s'.dbs p).out = (s.dbs p).out ++ es) {inp : Input}
    (hlocal : LocalStep x (s.dbs p) (s'.dbs p) (unreturned es) inp) {tok : Option Token}
    (hmove : Move x (s.dbs p) (s'.dbs p) es tok)
    (hlsns : inp.lsns = tok.toList.countP fun tok => tok = .lsn)
    (hcount : ∀ f, (tokens p x s').countP f + tok.toList.countP f =
      (tokens p x s).countP f + (sent x es).countP f)
    (hk : k + inp.commits ≤ 1) (hzero : ∀ l, inp = .lsn l → l = 0)
    (hwf : (s'.dbs p).crashed = false → WellFormed (s'.dbs p)) :
    InCustody p x (k + inp.commits) s' := by
  obtain ⟨-, hchain⟩ := h.live hlive
  have hsum := hchain.sum
  have hdone : (checks x (s'.dbs p).out).length ≤ (checks x (s.dbs p).out).length +
      (judging x (s.dbs p) - judging x (s'.dbs p)) := by
    rw [hout, checks_append, List.length_append]
    exact Nat.add_le_add_left hmove.checks_le _
  refine ⟨hlinked, by omega, h.custody.move hlive hmove hout (by omega) hcount, ?_⟩
  intro hlive'
  refine ⟨hwf hlive', hchain.localStep hlocal ?_ hdone hk hzero hlive'⟩
  rw [hlsns, requests_unreturned, requests_eq]
  exact hcount _

theorem InCustody.step {ops : Wcheck W} {p : P} {x : Int} {k : Nat} {s s' : Sys A P C W}
    {a : Act A P C} (h : InCustody p x k s)
    (hk : k + (if isCommit p x a then 1 else 0) ≤ 1) (hstep : Step ops s a s') :
    InCustody p x (k + if isCommit p x a then 1 else 0) s' := by
  obtain ⟨hlinked, hview⟩ := view_of_step h.linked hstep p x
  cases hview with
  | elsewhere hdbs hfades => exact h.fade (Nat.le_add_right _ _) hlinked hdbs hfades
  | message conn msg hlive hmsg hcommit hzero hcount =>
      obtain ⟨hwf, -⟩ := h.live hlive
      obtain ⟨es, hout, hmove⟩ := move_of_messageStep (x := x) hwf hmsg
      obtain ⟨es', hout', hlocal⟩ := localStep_of_messageStep (x := x) hwf hmsg
      obtain rfl := List.append_cancel_left (hout.symm.trans hout')
      rw [← hcommit] at hk ⊢
      exact h.move hlive hlinked hout hlocal.unreturned hmove (lsns_eq x msg) (hcount es hout) hk
        hzero (hwf.messageStep hmsg)
  | task i ha hlive htask hcount =>
      subst ha
      obtain ⟨hwf, -⟩ := h.live hlive
      obtain ⟨es, hout, hmove⟩ := move_of_taskStep (x := x) hwf htask
      obtain ⟨es', hout', hlocal, -⟩ := localStep_of_taskStep (x := x) hwf htask
      obtain rfl := List.append_cancel_left (hout.symm.trans hout')
      exact h.move hlive hlinked hout hlocal hmove rfl (hcount es hout) hk (by simp)
        (fun _ => hwf.taskStep htask)

theorem inCustody_init (transInfo : String → List IpAndPort) (txid : BitVec 32) (w : P → W)
    (useRocksDb : P → Bool) (p : P) (x : Int) :
    InCustody p x 0 (init transInfo txid w useRocksDb : Sys A P C W) := by
  refine ⟨linked_init transInfo txid w useRocksDb, Nat.le_refl _, ?_, ?_⟩
  · constructor
    · exact Nat.le_refl _
    · exact Nat.le_refl _
    · intro data hdata
      simp [tokens, init, Gtm.init, heldTokens, Dbtl.init] at hdata
    · intro data hdata
      simp [init, DbService.init, logs] at hdata
    · intro _ c hc
      simp [init, DbService.init, checks] at hc
    · intro _
      refine ⟨Nat.le_refl _, ?_, ?_⟩
      · intro hmem
        simp [init, DbService.init, queue] at hmem
      · intro _ t ht
        simp [init, DbService.init, checks] at ht
  · intro _
    refine ⟨wellFormed_init (w p), Nat.le_refl _, ?_, ?_⟩
    · intro _
      exact ⟨rfl, rfl⟩
    · intro t ht
      simp [init, DbService.init, current] at ht

theorem inCustody_run (ops : Wcheck W) (transInfo : String → List IpAndPort) (txid : BitVec 32)
    (w : P → W) (useRocksDb : P → Bool) (p : P) (x : Int) (l : List (Act A P C))
    (hcommit : commits p x l ≤ 1) :
    InCustody p x (commits p x l) (run ops (init transInfo txid w useRocksDb) l) := by
  induction l using List.reverseRecOn with
  | nil => exact inCustody_init transInfo txid w useRocksDb p x
  | append_singleton l a ih =>
      rw [commits_concat] at hcommit ⊢
      rw [run_concat]
      exact (ih (Nat.le_of_add_right_le hcommit)).step hcommit (step_step ops _ a)

/-- Handling the decision on `data.txid` finds the transaction that has passed its one local
check, as it was then, and caches it. -/
def Finds (ops : Wcheck W) (data : DbtmMsg) (d : DbService C W) : Prop :=
  ∃ p t, d.dbtmTable.find data.txid = some p ∧ d.heap p = some t ∧ t.txid = data.txid ∧
    checks data.txid d.out = [(t, false)] ∧
    ∃ es, (d.solve ops data).out = d.out ++ .cacheRWSet t :: es ∧ ∀ u, .cacheRWSet u ∉ es

theorem finds_of_stored {ops : Wcheck W} {data : DbtmMsg} {d : DbService C W} (hwf : WellFormed d)
    (hcmd : data.cmd = kJudgeConflit) (hfalse : data.isGlobalConflict = false) {t : Transaction}
    (hstored : stored data.txid d = some t) (hchecks : checks data.txid d.out = [(t, false)]) :
    Finds ops data d := by
  obtain ⟨p, hp, ht⟩ := Option.bind_eq_some_iff.1 hstored
  refine ⟨p, t, hp, ht, hwf.named _ p t hp ht, hchecks, ?_⟩
  have hstep := solve_step ops hcmd d
  generalize d.solve ops data = d' at hstep ⊢
  cases hstep with
  | missing h _ => simp [hp] at h
  | dangling q h hq _ =>
      obtain rfl := Option.some.inj (hp.symm.trans h)
      simp [ht] at hq
  | cacheStuck q u h hq _ _ =>
      obtain rfl := Option.some.inj (hp.symm.trans h)
      obtain rfl := Option.some.inj (ht.symm.trans hq)
      exact ⟨[], rfl, by simp⟩
  | cache q u w tail h hq _ _ htail =>
      obtain rfl := Option.some.inj (hp.symm.trans h)
      obtain rfl := Option.some.inj (ht.symm.trans hq)
      refine ⟨_, rfl, ?_⟩
      rcases htail with ⟨rfl, -⟩ | rfl
      · simp
      · simp
  | fail s' hd _ => simp [hfalse] at hd

/-- In every run in which `p` handles one commit of the transaction at most, a queued decision
without conflict finds the transaction. -/
theorem decision_finds (ops : Wcheck W) (transInfo : String → List IpAndPort) (txid : BitVec 32)
    (w : P → W) (useRocksDb : P → Bool) (p : P) (l : List (Act A P C)) (data : DbtmMsg)
    (hcommit : commits p data.txid l ≤ 1)
    (hlive : ((run ops (init transInfo txid w useRocksDb) l).dbs p).crashed = false)
    (htask : .solve data ∈ ((run ops (init transInfo txid w useRocksDb) l).dbs p).tasks)
    (hcmd : data.cmd = kJudgeConflit) (hfalse : data.isGlobalConflict = false) :
    Finds ops data ((run ops (init transInfo txid w useRocksDb) l).dbs p) := by
  have h := inCustody_run ops transInfo txid w useRocksDb p data.txid l hcommit
  have hqueue := mem_queue htask hcmd rfl
  rw [hfalse] at hqueue
  have hchecked := Nat.le_trans h.checked hcommit
  obtain ⟨t, hstored, hchecks⟩ := h.custody.finds hlive hchecked hqueue
  exact finds_of_stored (h.live hlive).1 hcmd hfalse hstored hchecks

/-- Both participants have passed transaction `0`, and the decision has reached the first one. -/
theorem decision_finds_success :
    Finds Wcheck.contract (createDbtmMsg kJudgeConflit 0 false)
      ((run Wcheck.contract (init (fun _ => [⟨"a", 1⟩, ⟨"b", 2⟩]) 0 (fun _ => []) fun _ => false)
        (successRun.take 17)).dbs false) :=
  decision_finds _ _ _ _ _ false (successRun.take 17) _ (by decide) (by decide) (by decide) rfl rfl

end Sys

end Grit
