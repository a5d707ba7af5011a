import Grit.DbService.Pending

/-!
# How a transaction is passed on

After its local check a transaction `x` is passed on: as a vote or a decision, as a log, as a
result. A token stands for what is on its way. `Move` says what one step of a DbService does
with the tokens of `x` and with the transaction that the DBTM holds for it.
-/

namespace Grit

open Cmd

/-- What is on its way for one transaction: a vote or a decision, a log to be written, a result,
or the request for an lsn or its reply. -/
inductive Token where
  | verdict (isConflict : Bool)
  | log (data : Option (List FlatData))
  | result
  | lsn
deriving DecidableEq, Repr

namespace Token

def isVerdict : Token → Bool
  | verdict _ => true
  | _ => false

def isReport : Token → Bool
  | log _ => true
  | result => true
  | _ => false

def isLog : Token → Bool
  | log _ => true
  | _ => false

/-- Whether a token is on the way to a result. -/
def isWork (tok : Token) : Bool := tok ≠ .lsn

/-- A property that a token can only have from the one it stems from. A vote without conflict
may lead to a decision with one, but not the other way round; a log leads to a result. -/
structure Inherited (f : Token → Bool) : Prop where
  verdict : f (.verdict true) = true → f (.verdict false) = true
  result : f .result = true → ∀ data, f (.log data) = true

theorem inherited_isVerdict : Inherited isVerdict := ⟨id, fun h => absurd h (by decide)⟩

theorem inherited_isReport : Inherited isReport := ⟨id, fun _ _ => rfl⟩

theorem inherited_isLog : Inherited isLog := ⟨id, fun h => absurd h (by decide)⟩

theorem inherited_isWork : Inherited isWork := ⟨fun _ => rfl, fun _ _ => rfl⟩

theorem inherited_mild : Inherited fun tok => tok = .verdict false :=
  ⟨fun h => absurd h (by decide), fun h => absurd h (by decide)⟩

theorem inherited_log (data : Option (List FlatData)) :
    Inherited fun tok => tok = .log data :=
  ⟨fun h => absurd h (by simp), fun h => absurd h (by simp)⟩

theorem inherited_lsn : Inherited fun tok => tok = .lsn :=
  ⟨fun h => absurd h (by decide), fun h => absurd h (by decide)⟩

theorem mem_iff_countP {tok : Token} {T : List Token} :
    tok ∈ T ↔ 0 < T.countP fun tok' => tok' = tok := by
  simp [List.countP_pos_iff]

/-- The tokens `S` are added to `T`. -/
theorem mem_of_countP_add {T T' S : List Token}
    (h : ∀ f, T'.countP f = T.countP f + S.countP f) {tok : Token} (htok : tok ∈ T') :
    tok ∈ T ∨ tok ∈ S := by
  have hpos := mem_iff_countP.1 htok
  rw [h] at hpos
  rcases Nat.eq_zero_or_pos (T.countP fun tok' => tok' = tok) with hzero | hin
  · exact Or.inr (mem_iff_countP.2 (by omega))
  · exact Or.inl (mem_iff_countP.2 hin)

theorem log_notMem {T : List Token} (h : T.countP isReport = 0)
    (data : Option (List FlatData)) : .log data ∉ T := by
  intro hdata
  exact List.countP_eq_zero.1 h _ hdata rfl

theorem verdict_notMem {T : List Token} (h : T.countP isVerdict = 0) (b : Bool) :
    .verdict b ∉ T := by
  intro hb
  exact List.countP_eq_zero.1 h _ hb rfl

end Token

open Token

namespace DbService

variable {C W : Type*}

/-- The token of `x` that a message of the GTM or the DBTL carries. -/
def tokenOf (x : Int) (m : DbtmMsg) : Option Token :=
  if m.txid = x then
    match m.cmd with
    | kJudgeConflit => some (.verdict m.isGlobalConflict)
    | kTranSuccess => some .result
    | kTranFail => some .result
    | kLsn => some .lsn
    | _ => none
  else none

def arriving (x : Int) : RootMsg → Option Token
  | .dbtmMsg m => tokenOf x m
  | _ => none

/-- The token of `x` that a message to the DBTL carries. -/
def tokenOfDbtl (x : Int) (m : DbtlMsg) : Option Token :=
  if m.txid = x then
    match m.cmd with
    | kLog => some (.log m.data)
    | kLsn => some .lsn
    | _ => none
  else none

def tokenOfGtm (x : Int) (m : GtmMsg) : Option Token :=
  if m.cmd = kJudgeConflit ∧ m.txid = x then some (.verdict m.isLocalConflict) else none

/-- The tokens of `x` that are sent by the events. -/
def sent (x : Int) (es : List (Event C)) : List Token :=
  es.filterMap fun e =>
    match e with
    | .sendGtm m => tokenOfGtm x m
    | .sendDbtl m => tokenOfDbtl x m
    | _ => none

/-- The decision on `x` that a task handles. -/
def queued (x : Int) : Task → Option Token
  | .solve data =>
      if data.cmd = kJudgeConflit ∧ data.txid = x then some (.verdict data.isGlobalConflict)
      else none
  | _ => none

def queue (x : Int) (d : DbService C W) : List Token := d.tasks.filterMap (queued x)

/-- The local checks of `x`: the transaction as it was then, and whether it was in conflict. -/
def checks (x : Int) (out : List (Event C)) : List (Transaction × Bool) :=
  out.filterMap fun e =>
    match e with
    | .judged t _ c => if t.txid = x then some (t, c) else none
    | _ => none

/-- The contents of the `kLog` messages for `x`. -/
def logs (x : Int) (out : List (Event C)) : List (Option (List FlatData)) :=
  out.filterMap fun e =>
    match e with
    | .sendDbtl m => if m.cmd = kLog ∧ m.txid = x then some m.data else none
    | _ => none

/-- The transaction that the DBTM holds for `x`. -/
def stored (x : Int) (d : DbService C W) : Option Transaction :=
  (d.dbtmTable.find x).bind d.heap

/-- What a step from `d` to `d'` with the events `es` does for `x`, when it takes the given
token. -/
inductive Move (x : Int) (d d' : DbService C W) (es : List (Event C)) : Option Token → Prop where
  | keep (inp : Option Token) (hsent : ∀ tok ∈ sent x es, tok = .lsn) (hchecks : checks x es = [])
      (hlive : d'.crashed = false →
        (queue x d').Sublist (queue x d) ∧ stored x d' = stored x d) : Move x d d' es inp
  | decision (b : Bool) (hsent : sent x es = []) (hchecks : checks x es = [])
      (hqueue : queue x d' = queue x d ++ [.verdict b]) (hstored : stored x d' = stored x d) :
      Move x d d' es (some (.verdict b))
  | report (hsent : sent x es = []) (hchecks : checks x es = [])
      (hqueue : (queue x d').Sublist (queue x d)) : Move x d d' es (some .result)
  | check (t : Transaction) (c : Bool) (hchecks : checks x es = [(t, c)])
      (hjudging : judging x d' + 1 ≤ judging x d) (hqueue : (queue x d').Sublist (queue x d))
      (hsent : sent x es = [] ∨ sent x es = [.verdict c] ∨
        c = false ∧ sent x es = [.log (some (encodeSet t.writeSet))])
      (hstored : c = false → d'.crashed = false → stored x d' = some t) : Move x d d' es none
  | solve (b : Bool) (hchecks : checks x es = [])
      (hqueue : ∀ f, (queue x d).countP f = (queue x d').countP f + [Token.verdict b].countP f)
      (hsent : sent x es = [] ∨ b = false ∧ ∃ t, stored x d = some t ∧
        sent x es = [.log (some (encodeSet t.writeSet))]) : Move x d d' es none

/-! ### Events and tasks -/

theorem checks_append (x : Int) (out es : List (Event C)) :
    checks x (out ++ es) = checks x out ++ checks x es := List.filterMap_append

theorem logs_append (x : Int) (out es : List (Event C)) :
    logs x (out ++ es) = logs x out ++ logs x es := List.filterMap_append

/-- The logs among the tokens that are sent. -/
theorem logs_eq (x : Int) (es : List (Event C)) :
    logs x es = (sent x es).filterMap fun tok =>
      match tok with
      | .log data => some data
      | _ => none := by
  rw [logs, sent, List.filterMap_filterMap]
  apply List.filterMap_congr
  intro e _
  cases e with
  | sendGtm m =>
      by_cases hm : m.cmd = kJudgeConflit ∧ m.txid = x
      · simp [tokenOfGtm, hm]
      · simp [tokenOfGtm, hm]
  | sendDbtl m =>
      by_cases hx : m.txid = x
      · cases hcmd : m.cmd with
        | kLog => simp [tokenOfDbtl, hx, hcmd]
        | kLsn => simp [tokenOfDbtl, hx, hcmd]
        | _ => simp [tokenOfDbtl, hx, hcmd]
      · simp [tokenOfDbtl, hx]
  | _ => rfl

theorem countP_isLog_sent (x : Int) (es : List (Event C)) :
    (sent x es).countP isLog = (logs x es).length := by
  rw [logs_eq, List.length_filterMap_eq_countP]
  apply List.countP_congr
  intro tok _
  cases tok with
  | log data => simp [isLog]
  | _ => simp [isLog]

/-- No message of the GTM or the DBTL carries a log. -/
theorem isLog_of_tokenOf {x : Int} {m : DbtmMsg} {tok : Token} (h : tokenOf x m = some tok) :
    tok.isLog = false := by
  unfold tokenOf at h
  grind [isLog]

theorem logs_of_sent_nil {x : Int} {es : List (Event C)} (h : sent x es = []) :
    logs x es = [] := by
  rw [logs_eq, h, List.filterMap_nil]

theorem logs_of_sent_lsn {x : Int} {es : List (Event C)} (h : ∀ tok ∈ sent x es, tok = .lsn) :
    logs x es = [] := by
  rw [logs_eq, List.filterMap_eq_nil_iff]
  intro tok htok
  rw [h tok htok]

theorem queue_isVerdict {x : Int} {d : DbService C W} {tok : Token} (h : tok ∈ queue x d) :
    tok.isVerdict = true := by
  obtain ⟨task, -, htask⟩ := List.mem_filterMap.1 h
  cases task with
  | solve data =>
      simp only [queued, Option.ite_none_right_eq_some, Option.some.injEq] at htask
      rw [← htask.2]
      rfl
  | getLsn txid => simp [queued] at htask
  | judgeLocalConflict p => simp [queued] at htask

theorem countP_queue (x : Int) (d : DbService C W) :
    (queue x d).countP isVerdict = (queue x d).length :=
  List.countP_eq_length.2 fun _ h => queue_isVerdict h

/-- A queued decision without conflict. -/
theorem mem_queue {x : Int} {d : DbService C W} {data : DbtmMsg} (h : Task.solve data ∈ d.tasks)
    (hcmd : data.cmd = kJudgeConflit) (hx : data.txid = x) :
    .verdict data.isGlobalConflict ∈ queue x d :=
  List.mem_filterMap.2 ⟨_, h, by simp [queued, hcmd, hx]⟩

theorem queue_sublist {x : Int} {d d' : DbService C W} (h : d'.tasks.Sublist d.tasks) :
    (queue x d').Sublist (queue x d) := h.filterMap _

/-- Other tasks are queued. -/
theorem queue_append_sublist {x : Int} {d : DbService C W} {tasks : List Task}
    (hnone : ∀ task ∈ tasks, queued x task = none) :
    ((d.tasks ++ tasks).filterMap (queued x)).Sublist (queue x d) := by
  rw [List.filterMap_append, List.filterMap_eq_nil_iff.2 hnone, List.append_nil]
  exact List.Sublist.refl _

/-! ### Counting tokens -/

theorem handedOn_eq (x : Int) (es : List (Event C)) :
    handedOn x es = (sent x es).countP isWork := by
  rw [sent, List.countP_filterMap]
  apply List.countP_congr
  intro e _
  cases e with
  | sendGtm m =>
      by_cases hm : m.cmd = kJudgeConflit ∧ m.txid = x
      · simp [tokenOfGtm, isWork, hm]
      · simp [tokenOfGtm, hm]
  | sendDbtl m =>
      by_cases hx : m.txid = x
      · cases hcmd : m.cmd with
        | _ => simp [tokenOfDbtl, isWork, hx, hcmd]
      · simp [tokenOfDbtl, hx]
  | _ => simp

theorem requests_eq (x : Int) (es : List (Event C)) :
    requests x es = (sent x es).countP fun tok => tok = .lsn := by
  rw [sent, List.countP_filterMap]
  apply List.countP_congr
  intro e _
  cases e with
  | sendGtm m =>
      by_cases hm : m.cmd = kJudgeConflit ∧ m.txid = x
      · simp [tokenOfGtm, hm]
      · simp [tokenOfGtm, hm]
  | sendDbtl m =>
      by_cases hx : m.txid = x
      · cases hcmd : m.cmd with
        | _ => simp [tokenOfDbtl, hx, hcmd]
      · simp [tokenOfDbtl, hx]
  | _ => simp

theorem works_eq (x : Int) (msg : RootMsg) :
    (inputOf x msg).works = (arriving x msg).toList.countP isWork := by
  cases msg with
  | dbServiceMsg m =>
      by_cases hc : m.cmd = kCommit ∧ m.txid = x
      · simp [inputOf, arriving, Input.works, hc]
      · simp [inputOf, arriving, Input.works, hc]
  | dbtmMsg m =>
      by_cases hx : m.txid = x
      · cases hcmd : m.cmd with
        | _ => simp [inputOf, arriving, tokenOf, isWork, Input.works, hx, hcmd]
      · simp [inputOf, arriving, tokenOf, Input.works, hx]
  | _ => rfl

theorem lsns_eq (x : Int) (msg : RootMsg) :
    (inputOf x msg).lsns = (arriving x msg).toList.countP fun tok => tok = .lsn := by
  cases msg with
  | dbServiceMsg m =>
      by_cases hc : m.cmd = kCommit ∧ m.txid = x
      · simp [inputOf, arriving, Input.lsns, hc]
      · simp [inputOf, arriving, Input.lsns, hc]
  | dbtmMsg m =>
      by_cases hx : m.txid = x
      · cases hcmd : m.cmd with
        | _ => simp [inputOf, arriving, tokenOf, Input.lsns, hx, hcmd]
      · simp [inputOf, arriving, tokenOf, Input.lsns, hx]
  | _ => rfl

/-! ### What the DBTM holds -/

theorem stored_eq {x : Int} {d : DbService C W} {p : Nat} {t : Transaction}
    (hp : d.dbtmTable.find x = some p) (ht : d.heap p = some t) : stored x d = some t := by
  rw [stored, hp, Option.bind_some, ht]

/-- Objects of `txidTrans` are not held by the DBTM. -/
theorem stored_update {d : DbService C W} (h : WellFormed d) {y : Int} {p : Nat}
    (hp : d.txidTrans.find y = some p) (t : Transaction) (x : Int) :
    (d.dbtmTable.find x).bind (Function.update d.heap p (some t)) = stored x d := by
  unfold stored
  cases hq : d.dbtmTable.find x with
  | none => rfl
  | some q =>
      have hne : q ≠ p := by
        intro heq
        subst heq
        exact h.apart x y q hq hp
      exact Function.update_of_ne hne _ _

theorem stored_fresh {d : DbService C W} (h : WellFormed d)
    {heap : Nat → Option Transaction} (hheap : ∀ q, q ≠ d.next → heap q = d.heap q) (x : Int) :
    (d.dbtmTable.find x).bind heap = stored x d := by
  unfold stored
  cases hq : d.dbtmTable.find x with
  | none => rfl
  | some q =>
      have hlt := h.dbtm x q hq
      exact hheap q (by omega)

/-- Dropping what the DBTM holds for another transaction. -/
theorem stored_drop {d : DbService C W} (h : WellFormed d) {x y : Int}
    {heap : Nat → Option Transaction}
    (hheap : ∀ q, heap q = d.heap q ∨ d.dbtmTable.find y = some q ∧ heap q = none)
    (hy : y ≠ x) : ((d.dbtmTable.erase y).find x).bind heap = stored x d := by
  rw [PtrMap.find_erase_of_ne _ (Ne.symm hy), stored]
  cases hq : d.dbtmTable.find x with
  | none => rfl
  | some q =>
      rcases hheap q with hsame | ⟨hfind, hnone⟩
      · exact hsame
      · -- an object that both entries hold would have two ids
        cases ht : d.heap q with
        | none => exact hnone.trans ht.symm
        | some t =>
            have hx := h.named x q t hq ht
            rw [h.named y q t hfind ht] at hx
            exact absurd hx hy

/-! ### Messages -/

theorem move_nil {x : Int} {d d' : DbService C W}
    (hlive : d'.crashed = false → (queue x d').Sublist (queue x d) ∧ stored x d' = stored x d)
    (inp : Option Token) : Move x d d' [] inp :=
  .keep inp (by simp [sent]) rfl hlive

theorem retStep_move {status : Cmd} {x y : Int} {d d₁ d' : DbService C W} (hwf : WellFormed d₁)
    (hstep : RetStep status y d₁ d') (htasks : d₁.tasks.Sublist d.tasks)
    (hstored : stored x d₁ = stored x d) :
    ∃ es, d'.out = d₁.out ++ es ∧ sent x es = [] ∧ checks x es = [] ∧
      (queue x d').Sublist (queue x d) ∧
      (y ≠ x → d'.crashed = false → stored x d' = stored x d) := by
  cases hstep with
  | lost => exact ⟨_, rfl, rfl, rfl, queue_sublist htasks, fun _ => by simp⟩
  | sent conn heap c hconn hheap =>
      exact ⟨_, rfl, rfl, rfl, queue_sublist htasks,
        fun hy _ => (stored_drop hwf hheap hy).trans hstored⟩

theorem move_of_messageStep {x : Int} {conn : C} {msg : RootMsg} {d d' : DbService C W}
    (hwf : WellFormed d) (hstep : MessageStep conn msg d d') :
    ∃ es, d'.out = d.out ++ es ∧ Move x d d' es (arriving x msg) := by
  cases hstep with
  | skip => exact ⟨[], by simp, move_nil (fun _ => ⟨List.Sublist.refl _, rfl⟩) _⟩
  | stuck _ hout hc =>
      refine ⟨[], by simp [hout], move_nil ?_ _⟩
      intro hlive
      rw [hlive] at hc
      exact absurd hc (by simp)
  | collect data hmsg hcmd p t s₁ hopen rset wset =>
      have hnew : ∀ task ∈ (if t.lsn = -1 then [Task.getLsn data.txid] else []),
          queued x task = none := by
        intro task htask
        split at htask
        · rw [List.mem_singleton.1 htask]
          rfl
        · simp at htask
      cases hopen with
      | old p t hp ht =>
          refine ⟨[], by simp, move_nil ?_ _⟩
          intro _
          exact ⟨queue_append_sublist hnew, stored_update hwf hp _ x⟩
      | new hnone =>
          refine ⟨[], by simp, move_nil ?_ _⟩
          intro _
          refine ⟨queue_append_sublist hnew, stored_fresh hwf ?_ x⟩
          intro q hq
          simp [hq]
  | commitEarly data hmsg hcmd p t hp ht =>
      refine ⟨[], by simp, move_nil ?_ _⟩
      intro _
      exact ⟨List.Sublist.refl _, stored_update hwf hp _ x⟩
  | commitReady data hmsg hcmd p t hp ht =>
      refine ⟨_, rfl, .keep _ (by simp [sent]) rfl ?_⟩
      intro _
      exact ⟨queue_append_sublist (by simp [queued]), stored_update hwf hp _ x⟩
  | lsnEarly data hmsg hcmd p t hp ht =>
      refine ⟨[], by simp, move_nil ?_ _⟩
      intro _
      exact ⟨List.Sublist.refl _, stored_update hwf hp _ x⟩
  | lsnReady data hmsg hcmd p t hp ht =>
      refine ⟨_, rfl, .keep _ (by simp [sent]) rfl ?_⟩
      intro _
      exact ⟨queue_append_sublist (by simp [queued]), stored_update hwf hp _ x⟩
  | decision data hmsg hcmd =>
      refine ⟨[], by simp, ?_⟩
      by_cases hx : data.txid = x
      · have harrive : arriving x msg = some (.verdict data.isGlobalConflict) := by
          simp [hmsg, arriving, tokenOf, hx, hcmd]
        rw [harrive]
        exact .decision _ rfl rfl (by simp [queue, queued, hcmd, hx]) rfl
      · refine move_nil ?_ _
        intro _
        exact ⟨queue_append_sublist (by simp [queued, hx]), rfl⟩
  | result data hmsg hcmd s' hret =>
      obtain ⟨es, hout, hsent, hchecks, hqueue, hstored⟩ :=
        retStep_move (x := x) hwf hret (List.Sublist.refl _) rfl
      refine ⟨es, hout, ?_⟩
      by_cases hx : data.txid = x
      · have harrive : arriving x msg = some .result := by
          rcases hcmd with hcmd | hcmd
          · simp [hmsg, arriving, tokenOf, hx, hcmd]
          · simp [hmsg, arriving, tokenOf, hx, hcmd]
        rw [harrive]
        exact .report hsent hchecks hqueue
      · exact .keep _ (by simp [hsent]) hchecks fun hlive => ⟨hqueue, hstored hx hlive⟩

/-! ### Tasks -/

theorem sent_judged (x : Int) (t : Transaction) (ks : List String) (c : Bool)
    (es : List (Event C)) : sent x (prologue t ++ .judged t ks c :: es) = sent x es := rfl

theorem checks_judged (x : Int) (t : Transaction) (ks : List String) (c : Bool)
    (es : List (Event C)) :
    checks x (prologue t ++ .judged t ks c :: es) =
      (if t.txid = x then [(t, c)] else []) ++ checks x es := by
  by_cases hx : t.txid = x
  · simp [checks, prologue, hx]
  · simp [checks, prologue, hx]

theorem sent_sendGtm (x y : Int) (c : Bool) :
    sent x [(.sendGtm (createGtmMsg kJudgeConflit y c) : Event C)] =
      if y = x then [.verdict c] else [] := by
  by_cases hy : y = x
  · simp [sent, tokenOfGtm, createGtmMsg, hy]
  · simp [sent, tokenOfGtm, createGtmMsg, hy]

theorem sent_sendDbtl (x y : Int) (data : Option (List FlatData)) :
    sent x [(.sendDbtl (createDbtlMsg kLog y data) : Event C)] =
      if y = x then [.log data] else [] := by
  by_cases hy : y = x
  · simp [sent, tokenOfDbtl, createDbtlMsg, hy]
  · simp [sent, tokenOfDbtl, createDbtlMsg, hy]

/-- The events `es` follow the check of `t`. -/
theorem move_of_judged {x : Int} {t : Transaction} {ks : List String} {c : Bool}
    {d d' : DbService C W} {es : List (Event C)} (hnone : checks x es = [])
    (hqueue : (queue x d').Sublist (queue x d))
    (hjudging : t.txid = x → judging x d' + 1 ≤ judging x d)
    (hsent : sent x es = [] ∨ sent x es = (if t.txid = x then [.verdict c] else []) ∨
      c = false ∧
        sent x es = if t.txid = x then [.log (some (encodeSet t.writeSet))] else [])
    (hself : t.txid = x → c = false → d'.crashed = false → stored x d' = some t)
    (hother : t.txid ≠ x → d'.crashed = false → stored x d' = stored x d) :
    Move x d d' (prologue t ++ .judged t ks c :: es) none := by
  have hchecks := checks_judged x t ks c es
  rw [hnone, List.append_nil] at hchecks
  by_cases hx : t.txid = x
  · rw [if_pos hx] at hchecks
    simp only [if_pos hx] at hsent
    exact .check t c hchecks (hjudging hx) hqueue hsent (hself hx)
  · rw [if_neg hx] at hchecks
    simp only [if_neg hx] at hsent
    refine .keep _ ?_ hchecks fun hlive => ⟨hqueue, hother hx hlive⟩
    rw [sent_judged]
    rcases hsent with hsent | hsent | ⟨-, hsent⟩
    · simp [hsent]
    · simp [hsent]
    · simp [hsent]

theorem move_of_judgeStep {ops : Wcheck W} {x : Int} {p : Nat} {t : Transaction}
    {d d₁ d' : DbService C W} (hwf : WellFormed d₁) (ht : d₁.heap p = some t)
    (htasks : d₁.tasks.Sublist d.tasks) (hstored : stored x d₁ = stored x d)
    (hjudging : t.txid = x → judging x d' + 1 ≤ judging x d) (hstep : JudgeStep ops p t d₁ d') :
    ∃ es, d'.out = d₁.out ++ es ∧ Move x d d' es none := by
  have hqueue := queue_sublist (x := x) htasks
  have hself : t.txid = x →
      ((d₁.dbtmTable.insert t.txid p).find x).bind d₁.heap = some t := by
    intro hx
    rw [hx, PtrMap.find_insert_self, Option.bind_some]
    exact ht
  have hother : t.txid ≠ x →
      ((d₁.dbtmTable.insert t.txid p).find x).bind d₁.heap = stored x d := by
    intro hx
    rw [PtrMap.find_insert_of_ne _ _ (Ne.symm hx)]
    exact hstored
  cases hstep with
  | stuck =>
      exact ⟨_, rfl, .keep _ (by simp [sent, prologue]) rfl fun hlive => absurd hlive (by simp)⟩
  | vote w ks hc hg =>
      exact ⟨_, rfl, move_of_judged rfl hqueue hjudging (Or.inr (Or.inl (sent_sendGtm x _ _)))
        (fun hx _ _ => hself hx) (fun hx _ => hother hx)⟩
  | cacheStuck w ks hc hg hw =>
      exact ⟨_, rfl, move_of_judged rfl hqueue hjudging (Or.inl rfl)
        (fun _ _ hlive => absurd hlive (by simp)) (fun _ hlive => absurd hlive (by simp))⟩
  | cache w w' ks hc hg hw =>
      exact ⟨_, rfl, move_of_judged rfl hqueue hjudging
        (Or.inr (Or.inr ⟨rfl, sent_sendDbtl x _ _⟩))
        (fun hx _ _ => hself hx) (fun hx _ => hother hx)⟩
  | failLost w ks hc hconn =>
      exact ⟨_, rfl, move_of_judged rfl hqueue hjudging (Or.inl rfl)
        (fun _ _ hlive => absurd hlive (by simp)) (fun _ hlive => absurd hlive (by simp))⟩
  | fail w ks conn heap c vote hc hconn hheap hvote =>
      have hnone : checks x vote = [] := by
        rcases hvote with rfl | ⟨-, rfl⟩
        · rfl
        · rfl
      have hsent : sent x vote = [] ∨
          sent x vote = if t.txid = x then [.verdict true] else [] := by
        rcases hvote with rfl | ⟨-, rfl⟩
        · exact Or.inl rfl
        · exact Or.inr (sent_sendGtm x _ _)
      exact ⟨_, rfl, move_of_judged hnone hqueue hjudging (hsent.imp_right Or.inl)
        (fun _ hc _ => absurd hc (by simp))
        (fun hx _ => (stored_drop hwf hheap hx).trans hstored)⟩

/-- The events of a decision. -/
theorem solveStep_sent {ops : Wcheck W} {x : Int} {data : DbtmMsg} {d d₁ d' : DbService C W}
    (hwf : WellFormed d₁) (htasks : d₁.tasks.Sublist d.tasks)
    (hstored : stored x d₁ = stored x d) (hstep : SolveStep ops data d₁ d') :
    d'.tasks = d₁.tasks ∧ ∃ es, d'.out = d₁.out ++ es ∧ checks x es = [] ∧
      (data.txid ≠ x → sent x es = [] ∧ (d'.crashed = false → stored x d' = stored x d)) ∧
      (data.txid = x → sent x es = [] ∨ data.isGlobalConflict = false ∧
        ∃ t, stored x d = some t ∧ sent x es = [.log (some (encodeSet t.writeSet))]) := by
  cases hstep with
  | missing h hd => exact ⟨rfl, [], by simp, rfl, fun _ => ⟨rfl, by simp⟩, fun _ => Or.inl rfl⟩
  | dangling p h hp hd =>
      exact ⟨rfl, [], by simp, rfl, fun _ => ⟨rfl, by simp⟩, fun _ => Or.inl rfl⟩
  | cacheStuck p t h hp hd hw =>
      exact ⟨rfl, _, rfl, rfl, fun _ => ⟨rfl, by simp⟩, fun _ => Or.inl rfl⟩
  | cache p t w tail hp ht hd hw htail =>
      have hname := hwf.named data.txid p t hp ht
      have hes : checks x (.cacheRWSet t :: .sendDbtl (createDbtlMsg kLog t.txid
          (some (encodeSet t.writeSet))) :: tail) = [] ∧
          sent x (.cacheRWSet t :: .sendDbtl (createDbtlMsg kLog t.txid
            (some (encodeSet t.writeSet))) :: tail) =
              if data.txid = x then [.log (some (encodeSet t.writeSet))] else [] := by
        rw [← hname]
        rcases htail with ⟨rfl, -⟩ | rfl
        · exact ⟨rfl, sent_sendDbtl x _ _⟩
        · exact ⟨rfl, sent_sendDbtl (C := C) x _ _⟩
      obtain ⟨hchecks, hsent⟩ := hes
      refine ⟨rfl, _, rfl, hchecks, ?_, ?_⟩
      · intro hx
        rw [if_neg hx] at hsent
        exact ⟨hsent, fun _ => hstored⟩
      · intro hx
        rw [if_pos hx] at hsent
        exact Or.inr ⟨hd, t, hstored ▸ stored_eq (hx ▸ hp) ht, hsent⟩
  | fail s' hd hret =>
      have hwf' : WellFormed { d₁ with
          out := d₁.out ++ [.sqlExec (.delete data.txid), .removeFile data.txid] } :=
        hwf.keep (fun _ hq => hq) _ _ _ _
      have hsame : d'.tasks = d₁.tasks := by
        cases hret with
        | lost => rfl
        | sent => rfl
      obtain ⟨es, hout, hsent, hchecks, -, hkeep⟩ := retStep_move (x := x) hwf' hret htasks hstored
      refine ⟨hsame, .sqlExec (.delete data.txid) :: .removeFile data.txid :: es, ?_, ?_, ?_, ?_⟩
      · rw [hout]
        simp
      · exact hchecks
      · exact fun hx => ⟨hsent, hkeep hx⟩
      · exact fun _ => Or.inl hsent

theorem move_of_taskStep {ops : Wcheck W} {x : Int} {i : Nat} {d d' : DbService C W}
    (hwf : WellFormed d) (hstep : TaskStep ops i d d') :
    ∃ es, d'.out = d.out ++ es ∧ Move x d d' es none := by
  have hwf' : WellFormed { d with tasks := d.tasks.eraseIdx i } :=
    hwf.keep (fun _ hq => List.mem_of_mem_eraseIdx hq) _ _ _ _
  have hsub : (d.tasks.eraseIdx i).Sublist d.tasks := List.eraseIdx_sublist _ _
  cases hstep with
  | none => exact ⟨[], by simp, move_nil (fun _ => ⟨List.Sublist.refl _, rfl⟩) _⟩
  | getLsn txid htask =>
      refine ⟨_, rfl, .keep _ ?_ rfl fun _ => ⟨queue_sublist hsub, rfl⟩⟩
      by_cases hx : txid = x
      · simp [sent, tokenOfDbtl, createDbtlMsg, hx]
      · simp [sent, tokenOfDbtl, createDbtlMsg, hx]
  | dangling p htask hp => exact ⟨[], by simp, move_nil (fun hlive => absurd hlive (by simp)) _⟩
  | judge p t htask ht s' hjudge =>
      have hstored : stored x { d with tasks := d.tasks.eraseIdx i } = stored x d := rfl
      obtain ⟨hheap, htasks, -⟩ := judgeStep_told (x := x) hwf' hjudge
      obtain ⟨hJ, -⟩ := shrinks_eraseIdx (x := x) d' htask rfl htasks hheap
      have hjudging : t.txid = x → judging x d' + 1 ≤ judging x d := by
        intro hx
        simpa [judges, ht, hx] using hJ
      obtain ⟨es, hout, hmove⟩ := move_of_judgeStep hwf' ht hsub hstored hjudging hjudge
      exact ⟨es, hout, hmove⟩
  | ignore data htask hcmd =>
      refine ⟨[], by simp, move_nil ?_ _⟩
      intro _
      exact ⟨queue_sublist hsub, rfl⟩
  | solve data htask hcmd s' hsolve =>
      obtain ⟨htasks, es, hout, hchecks, hother, hself⟩ :=
        solveStep_sent (x := x) hwf' hsub rfl hsolve
      refine ⟨es, hout, ?_⟩
      by_cases hx : data.txid = x
      · refine .solve data.isGlobalConflict hchecks ?_ (hself hx)
        intro f
        have hself : queued x (.solve data) = some (.verdict data.isGlobalConflict) := by
          simp [queued, hcmd, hx]
        have hcount := Bag.countP_filterMap_eraseIdx (queued x) htask f
        rw [hself, Option.toList_some] at hcount
        rw [queue, queue, htasks, hcount]
      · obtain ⟨hsent, hstored⟩ := hother hx
        have hqueue : d'.tasks.Sublist d.tasks := htasks ▸ hsub
        exact .keep _ (by simp [hsent]) hchecks
          fun hlive => ⟨queue_sublist hqueue, hstored hlive⟩

/-- What is checked is queued no more. -/
theorem Move.checks_le {x : Int} {d d' : DbService C W} {es : List (Event C)}
    {inp : Option Token} (h : Move x d d' es inp) :
    (checks x es).length ≤ judging x d - judging x d' := by
  cases h with
  | keep _ _ hchecks _ => simp [hchecks]
  | decision b _ hchecks _ _ => simp [hchecks]
  | report _ hchecks _ => simp [hchecks]
  | check t c hchecks hjudging _ _ _ =>
      rw [hchecks, List.length_singleton]
      omega
  | solve b hchecks _ _ => simp [hchecks]

end DbService

end Grit
