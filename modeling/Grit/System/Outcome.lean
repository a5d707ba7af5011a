import Grit.Library.History
import Grit.DbService.Bound
import Grit.System.Tokens

/-!
# One outcome for one commit

For a participant `p` and a transaction `x`: the votes, decisions, logs and results on
their way through the net, the GTM and the DBTL are counted together with what the
DbService of `p` has queued and has returned. No step increases the total, except for
a commit, which adds one; the lsns on their way are counted apart.
-/

namespace Grit

open Cmd DbService Token

namespace Sys

variable {A P C W : Type*} [DecidableEq P]

/-- The packet carries a vote, a decision, a log or a result of `x` from or to `p`. -/
def carries (p : P) (x : Int) : Packet P → Bool
  | .toGtm q m => q = p ∧ m.cmd = kJudgeConflit ∧ m.txid = x
  | .toDbService q m => q = p ∧ (inputOf x (.dbtmMsg m)).works = 1
  | .toDbtl q m => q = p ∧ m.cmd = kLog ∧ m.txid = x

/-- The packet carries a request for the lsn of `x` or its reply. -/
def carriesLsn (p : P) (x : Int) : Packet P → Bool
  | .toGtm _ _ => false
  | .toDbService q m => q = p ∧ (inputOf x (.dbtmMsg m)).lsns = 1
  | .toDbtl q m => q = p ∧ m.cmd = kLsn ∧ m.txid = x

/-- The votes of `p` on `x` that the GTM holds. -/
def held (p : P) (x : Int) (g : Gtm (A ⊕ P)) : Nat :=
  match g.table.find x with
  | none => 0
  | some info => info.connList.countP (isFrom p)

/-- The logs of `x` that the DBTL has queued. -/
def logging (x : Int) (d : Dbtl P) : Nat := d.tasks.countP fun t => t.txid = x

/-- What of `x` is outside the DbService of `p`. -/
def away (p : P) (x : Int) (s : Sys A P C W) : Nat :=
  s.net.countP (carries p x) + held p x s.gtm + logging x (s.dbtl p)

def lsnsAway (p : P) (x : Int) (s : Sys A P C W) : Nat := s.net.countP (carriesLsn p x)

/-- There have been `k` commits of `x` at `p`, and not more results. -/
structure OneOutcome (p : P) (x : Int) (k : Nat) (s : Sys A P C W) : Prop where
  conn : ∀ q t, t ∈ (s.dbtl q).tasks → t.conn = q
  lsn : ∀ q m, .toDbService q m ∈ s.net → m.cmd = kLsn → m.lsn = 0
  returned : results x (s.dbs p).out + away p x s ≤ k
  live : (s.dbs p).crashed = false →
    WellFormed (s.dbs p) ∧ Bounded x k (lsnsAway p x s) (away p x s) (s.dbs p)

/-! ### Counting tokens -/

theorem countP_carries (p : P) (x : Int) (net : List (Packet P)) :
    (net.filterMap (packetToken p x)).countP isWork = net.countP (carries p x) := by
  rw [List.countP_filterMap]
  apply List.countP_congr
  intro m _
  cases m with
  | toGtm q m =>
      by_cases hq : q = p
      · by_cases hm : m.cmd = kJudgeConflit ∧ m.txid = x
        · simp [packetToken, tokenOfGtm, carries, isWork, hq, hm]
        · simp [packetToken, tokenOfGtm, carries, hm]
      · simp [packetToken, carries, hq]
  | toDbService q m =>
      by_cases hq : q = p
      · by_cases hx : m.txid = x
        · cases hcmd : m.cmd with
          | _ => simp [packetToken, tokenOf, carries, isWork, inputOf, Input.works, hq, hx, hcmd]
        · simp [packetToken, tokenOf, carries, inputOf, Input.works, hx]
      · simp [packetToken, carries, hq]
  | toDbtl q m =>
      by_cases hq : q = p
      · by_cases hx : m.txid = x
        · cases hcmd : m.cmd with
          | _ => simp [packetToken, tokenOfDbtl, carries, isWork, hq, hx, hcmd]
        · simp [packetToken, tokenOfDbtl, carries, hx]
      · simp [packetToken, carries, hq]

theorem countP_carriesLsn (p : P) (x : Int) (net : List (Packet P)) :
    (net.filterMap (packetToken p x)).countP (fun tok => tok = .lsn) =
      net.countP (carriesLsn p x) := by
  rw [List.countP_filterMap]
  apply List.countP_congr
  intro m _
  cases m with
  | toGtm q m =>
      by_cases hq : q = p
      · by_cases hm : m.cmd = kJudgeConflit ∧ m.txid = x
        · simp [packetToken, tokenOfGtm, carriesLsn, hq, hm]
        · simp [packetToken, tokenOfGtm, carriesLsn, hm]
      · simp [packetToken, carriesLsn, hq]
  | toDbService q m =>
      by_cases hq : q = p
      · by_cases hx : m.txid = x
        · cases hcmd : m.cmd with
          | _ => simp [packetToken, tokenOf, carriesLsn, inputOf, Input.lsns, hq, hx, hcmd]
        · simp [packetToken, tokenOf, carriesLsn, inputOf, Input.lsns, hx]
      · simp [packetToken, carriesLsn, hq]
  | toDbtl q m =>
      by_cases hq : q = p
      · by_cases hx : m.txid = x
        · cases hcmd : m.cmd with
          | _ => simp [packetToken, tokenOfDbtl, carriesLsn, hq, hx, hcmd]
        · simp [packetToken, tokenOfDbtl, carriesLsn, hx]
      · simp [packetToken, carriesLsn, hq]

theorem away_eq (p : P) (x : Int) (s : Sys A P C W) :
    away p x s = (tokens p x s).countP isWork := by
  have hheld : (heldTokens p x s.gtm).countP isWork = held p x s.gtm := by
    rw [heldTokens, held]
    cases s.gtm.table.find x with
    | none => rfl
    | some info => simp [List.countP_replicate, isWork]
  have hlogging : ((s.dbtl p).tasks.filterMap (taskToken x)).countP isWork =
      logging x (s.dbtl p) := by
    rw [List.countP_filterMap]
    apply List.countP_congr
    intro t _
    by_cases hx : t.txid = x
    · simp [taskToken, isWork, hx]
    · simp [taskToken, hx]
  rw [countP_tokens, countP_carries, hheld, hlogging, away]

theorem lsnsAway_eq (p : P) (x : Int) (s : Sys A P C W) :
    lsnsAway p x s = (tokens p x s).countP fun tok => tok = .lsn := by
  have hheld : (heldTokens p x s.gtm).countP (fun tok => tok = .lsn) = 0 := by
    rw [heldTokens]
    cases s.gtm.table.find x with
    | none => rfl
    | some info => simp [List.countP_replicate]
  have hlogging : ((s.dbtl p).tasks.filterMap (taskToken x)).countP (fun tok => tok = .lsn) =
      0 := by
    rw [List.countP_filterMap, List.countP_eq_zero]
    intro t _
    by_cases hx : t.txid = x
    · simp [taskToken, hx]
    · simp [taskToken, hx]
  rw [countP_tokens, countP_carriesLsn, hheld, hlogging, lsnsAway, Nat.add_zero]

/-! ### Steps -/

/-- A step that the DbService of `p` does not take part in. -/
theorem OneOutcome.fade {p : P} {x : Int} {k k' : Nat} {s s' : Sys A P C W}
    (h : OneOutcome p x k s) (hk : k ≤ k') (hlinked : Linked s') (hdbs : s'.dbs p = s.dbs p)
    (hfades : Fades p x s s') : OneOutcome p x k' s' := by
  have haway : away p x s' ≤ away p x s := by
    rw [away_eq, away_eq]
    exact hfades _ inherited_isWork
  have hlsns : lsnsAway p x s' ≤ lsnsAway p x s := by
    rw [lsnsAway_eq, lsnsAway_eq]
    exact hfades _ inherited_lsn
  refine ⟨hlinked.conn, hlinked.lsn, ?_, ?_⟩
  · have hle := h.returned
    rw [hdbs]
    omega
  · intro hlive
    rw [hdbs] at hlive ⊢
    obtain ⟨hwf, hbound⟩ := h.live hlive
    exact ⟨hwf, hbound.mono hk hlsns haway⟩

/-- The DbService of `p` takes a step. -/
theorem OneOutcome.localStep {p : P} {x : Int} {k : Nat} {s s' : Sys A P C W}
    (h : OneOutcome p x k s) (hlive : (s.dbs p).crashed = false) (hlinked : Linked s')
    {es : List (Event C)} (hout : (s'.dbs p).out = (s.dbs p).out ++ es) {inp : Input}
    (hstep : LocalStep x (s.dbs p) (s'.dbs p) es inp)
    (haway : away p x s' + inp.works = away p x s + handedOn x es)
    (hlsns : lsnsAway p x s' + inp.lsns = lsnsAway p x s + requests x es)
    (hk : k + inp.commits ≤ 1) (hzero : ∀ l, inp = .lsn l → l = 0)
    (hwf : (s'.dbs p).crashed = false → WellFormed (s'.dbs p)) :
    OneOutcome p x (k + inp.commits) s' := by
  obtain ⟨-, hbound⟩ := h.live hlive
  refine ⟨hlinked.conn, hlinked.lsn, hbound.results_le hstep hout haway, ?_⟩
  intro hlive'
  exact ⟨hwf hlive', hbound.localStep hstep hout haway hlsns hk hzero hlive'⟩

/-! ### Runs -/

/-- The step validates `x` at `p` as a transaction of several participants, and the
check finds a conflict. -/
def conflictsGlobally (ops : Wcheck W) (p : P) (x : Int) (s : Sys A P C W) :
    Act A P C → Bool
  | .task q i =>
      q == p &&
        match (s.dbs p).tasks[i]? with
        | some (.judgeLocalConflict ptr) =>
            ((s.dbs p).heap ptr).any fun t =>
              t.txid = x ∧ t.needGlobalConflct ∧
                (localCheck ops t (s.dbs p).wcheck).any fun r => r.2.2
        | _ => false
  | _ => false

theorem clean_of_not_conflictsGlobally {ops : Wcheck W} {p : P} {x : Int} {s : Sys A P C W}
    {i : Nat} (h : conflictsGlobally ops p x s (.task p i : Act A P C) = false) :
    ∀ ptr t, (s.dbs p).tasks[i]? = some (.judgeLocalConflict ptr) →
      (s.dbs p).heap ptr = some t → Clean ops x t (s.dbs p).wcheck := by
  intro ptr t htask ht htxid hglobal r hr
  simpa [conflictsGlobally, htask, ht, htxid, hglobal, hr] using h

/-- A step keeps the bound, unless a global validation finds a local conflict. -/
theorem OneOutcome.step {ops : Wcheck W} {p : P} {x : Int} {k : Nat}
    {s s' : Sys A P C W} {a : Act A P C} (h : OneOutcome p x k s)
    (hk : k + (if isCommit p x a then 1 else 0) ≤ 1)
    (hclean : conflictsGlobally ops p x s a = false) (hstep : Step ops s a s') :
    OneOutcome p x (k + if isCommit p x a then 1 else 0) s' := by
  obtain ⟨hlinked, hview⟩ := view_of_step ⟨h.conn, h.lsn⟩ hstep p x
  cases hview with
  | elsewhere hdbs hfades => exact h.fade (Nat.le_add_right _ _) hlinked hdbs hfades
  | message conn msg hlive hmsg hcommit hzero hcount =>
      obtain ⟨hwf, -⟩ := h.live hlive
      obtain ⟨es, hout, hlocal⟩ := localStep_of_messageStep (x := x) hwf hmsg
      rw [← hcommit] at hk ⊢
      refine h.localStep hlive hlinked hout hlocal ?_ ?_ hk hzero (hwf.messageStep hmsg)
      · rw [away_eq, away_eq, works_eq, handedOn_eq]
        exact hcount es hout _
      · rw [lsnsAway_eq, lsnsAway_eq, lsns_eq, requests_eq]
        exact hcount es hout _
  | task i ha hlive htask hcount =>
      subst ha
      obtain ⟨hwf, -⟩ := h.live hlive
      obtain ⟨es, hout, -, hlocal⟩ := localStep_of_taskStep (x := x) hwf htask
      refine h.localStep hlive hlinked hout (hlocal (clean_of_not_conflictsGlobally hclean)) ?_ ?_
        hk (by simp) (fun _ => hwf.taskStep htask)
      · rw [away_eq, away_eq, handedOn_eq]
        exact hcount es hout _
      · rw [lsnsAway_eq, lsnsAway_eq, requests_eq]
        exact hcount es hout _

theorem oneOutcome_init (transInfo : String → List IpAndPort) (txid : BitVec 32) (w : P → W)
    (useRocksDb : P → Bool) (p : P) (x : Int) :
    OneOutcome p x 0 (init transInfo txid w useRocksDb : Sys A P C W) := by
  have haway : away p x (init transInfo txid w useRocksDb : Sys A P C W) = 0 := rfl
  have hlinked := linked_init transInfo txid w useRocksDb (A := A) (C := C)
  refine ⟨hlinked.conn, hlinked.lsn, ?_, ?_⟩
  · rw [haway]
    exact Nat.le_refl _
  · intro _
    refine ⟨wellFormed_init (w p), ?_, ?_, ?_⟩
    · rw [haway]
      exact Nat.le_refl _
    · intro _
      exact ⟨rfl, rfl⟩
    · intro t ht
      simp [init, DbService.init, current] at ht

theorem oneOutcome_run (ops : Wcheck W) (transInfo : String → List IpAndPort) (txid : BitVec 32)
    (w : P → W) (useRocksDb : P → Bool) (p : P) (x : Int) (l : List (Act A P C))
    (hcommit : commits p x l ≤ 1)
    (hclean : History.Each (fun pre a => conflictsGlobally ops p x
      (run ops (init transInfo txid w useRocksDb) pre) a = false) l) :
    OneOutcome p x (commits p x l) (run ops (init transInfo txid w useRocksDb) l) := by
  revert hcommit
  refine History.foldl_invariant (I := fun l s => commits p x l ≤ 1 →
    OneOutcome p x (commits p x l) s) _ l ?_ ?_ hclean
  · intro _
    exact oneOutcome_init transInfo txid w useRocksDb p x
  · intro pre a ih hlast hcommit
    rw [commits_concat] at hcommit ⊢
    exact (ih (Nat.le_of_add_right_le hcommit)).step hcommit hlast (step_step ops _ a)

/-- A transaction that is committed once gets one result at most at a participant whose
global validation of it finds no local conflict. -/
theorem one_outcome (ops : Wcheck W) (transInfo : String → List IpAndPort) (txid : BitVec 32)
    (w : P → W) (useRocksDb : P → Bool) (p : P) (x : Int) (l : List (Act A P C))
    (hcommit : commits p x l ≤ 1)
    (hclean : History.Each (fun pre a => conflictsGlobally ops p x
      (run ops (init transInfo txid w useRocksDb) pre) a = false) l) :
    results x ((run ops (init transInfo txid w useRocksDb) l).dbs p).out ≤ 1 := by
  have h := oneOutcome_run ops transInfo txid w useRocksDb p x l hcommit hclean
  have hle := h.returned
  omega

/-- Transaction `0` writes `k` at the first of its two participants; both pass it, and
the first one reports its success. -/
def successRun : List (Act Unit Bool Unit) :=
  [.getTxid () "transfer",
    .entityService false () (createDbServiceMsg kData 0 false (some [])
      (some [⟨some "k", some "a", some "v"⟩])),
    .entityService false () (createDbServiceMsg kCommit 0 true),
    .entityService true () (createDbServiceMsg kData 0 false (some []) (some [])),
    .entityService true () (createDbServiceMsg kCommit 0 true),
    .task false 0, .task true 0, .deliver 0 (), .deliver 0 (), .deliver 0 (), .deliver 0 (),
    .task false 0, .task true 0, .deliver 0 (), .deliver 0 (), .deliver 0 (), .deliver 0 (),
    .task false 0, .task true 0, .deliver 0 (), .dbtlTask false 0, .deliver 1 ()]

theorem one_outcome_success :
    results 0 ((run Wcheck.contract
        (init (fun _ => [⟨"a", 1⟩, ⟨"b", 2⟩]) 0 (fun _ => []) fun _ => false)
          successRun).dbs false).out = 1 ∧
      commits false 0 successRun = 1 ∧
      results 0 ((run Wcheck.contract
        (init (fun _ => [⟨"a", 1⟩, ⟨"b", 2⟩]) 0 (fun _ => []) fun _ => false)
          successRun).dbs false).out ≤ 1 :=
  ⟨by decide, by decide,
    one_outcome _ _ _ _ _ false 0 successRun (by decide) (by decide)⟩

/-- Transaction `5` has written `k` at the first participant and is cached there, so that
the global validation of transaction `0`, which writes `k` too, finds a conflict. -/
def conflictRun : List (Act Unit Bool Unit) :=
  [.entityService false () (createDbServiceMsg kData 5 false (some [])
      (some [⟨some "k", some "a", some "v"⟩])),
    .entityService false () (createDbServiceMsg kCommit 5 false),
    .task false 0, .deliver 0 (), .deliver 0 (), .task false 0, .deliver 0 (),
    .getTxid () "transfer",
    .entityService false () (createDbServiceMsg kData 0 false (some [])
      (some [⟨some "k", some "a", some "v"⟩])),
    .entityService false () (createDbServiceMsg kCommit 0 true),
    .entityService true () (createDbServiceMsg kData 0 false (some []) (some [])),
    .entityService true () (createDbServiceMsg kCommit 0 true),
    .task false 0, .task true 0, .deliver 0 (), .deliver 0 (), .deliver 0 (), .deliver 0 (),
    .task false 0, .task true 0, .deliver 0 (), .deliver 0 (), .deliver 0 (), .deliver 0 (),
    .task false 0]

/-- The first participant reports a failure when its own check finds the conflict, and
again when the GTM has decided. -/
theorem two_outcomes :
    commits false 0 conflictRun = 1 ∧
      results 0 ((run Wcheck.contract
        (init (fun _ => [⟨"a", 1⟩, ⟨"b", 2⟩]) 0 (fun _ => []) fun _ => false)
          conflictRun).dbs false).out = 2 := by
  decide

end Sys

end Grit
