import Grit.DbService.Bound
import Grit.DbService.Token

/-!
# Who has a transaction in hand

The invariant of one DbService and the tokens of a transaction that are outside of it: each
token stems from a check of its own, and while it is a verdict, the DBTM holds the transaction
as it was checked.
-/

namespace Grit

open Cmd Token

namespace DbService

variable {C W : Type*}

/-- What a live process has in hand: while a verdict on `x` is on its way or queued, the DBTM
holds the transaction that has passed its check. -/
structure InHand (x : Int) (T : List Token) (d : DbService C W) : Prop where
  voted : T.countP isVerdict + (queue x d).length + (logs x d.out).length ≤
    (checks x d.out).length
  mild : .verdict false ∈ queue x d → ∀ c ∈ checks x d.out, c.2 = false
  stored : 0 < T.countP isVerdict + (queue x d).length →
    ∀ t, (t, false) ∈ checks x d.out → stored x d = some t

/-- The invariant, with the tokens `T` outside the process. Each token stems from a check of its
own; a log that was sent has the write set of a transaction that has passed; and a verdict without
conflict comes from checks without conflict only. -/
structure Custody (x : Int) (T : List Token) (d : DbService C W) : Prop where
  voted : T.countP isVerdict + (logs x d.out).length ≤ (checks x d.out).length
  reported : T.countP isReport ≤ (logs x d.out).length
  carried : ∀ data, .log data ∈ T → data ∈ logs x d.out
  content : ∀ data ∈ logs x d.out, ∃ t, (t, false) ∈ checks x d.out ∧
    data = some (encodeSet t.writeSet)
  mild : .verdict false ∈ T → ∀ c ∈ checks x d.out, c.2 = false
  live : d.crashed = false → InHand x T d

/-- Tokens are passed on or lost by others. -/
theorem Custody.fade {x : Int} {T T' : List Token} {d : DbService C W} (h : Custody x T d)
    (hT : ∀ f, Inherited f → T'.countP f ≤ T.countP f) : Custody x T' d := by
  have hverdict := hT _ inherited_isVerdict
  have hmem : ∀ tok, Inherited (fun tok' => tok' = tok) → tok ∈ T' → tok ∈ T := by
    intro tok htok hin
    exact mem_iff_countP.2 (Nat.lt_of_lt_of_le (mem_iff_countP.1 hin) (hT _ htok))
  refine ⟨?_, ?_, ?_, h.content, ?_, ?_⟩
  · exact Nat.le_trans (Nat.add_le_add_right hverdict _) h.voted
  · exact Nat.le_trans (hT _ inherited_isReport) h.reported
  · exact fun data hdata => h.carried data (hmem _ (inherited_log data) hdata)
  · exact fun hin => h.mild (hmem _ inherited_mild hin)
  · intro hlive
    obtain ⟨hvoted, hmild, hstored⟩ := h.live hlive
    exact ⟨by omega, hmild, fun hpos => hstored (by omega)⟩

section Step

variable {x : Int} {T T' : List Token} {d d' : DbService C W} {es : List (Event C)}

/-- A step that checks nothing and sends no log. -/
theorem Custody.quiet (h : Custody x T d) (hchecks : checks x d'.out = checks x d.out)
    (hlogs : logs x d'.out = logs x d.out)
    (hT : ∀ f, f .lsn = false → T'.countP f ≤ T.countP f)
    (hlive : d'.crashed = false → InHand x T' d') : Custody x T' d' := by
  have hmem : ∀ tok, tok ≠ .lsn → tok ∈ T' → tok ∈ T := by
    intro tok htok hin
    exact mem_iff_countP.2 (Nat.lt_of_lt_of_le (mem_iff_countP.1 hin)
      (hT _ (by simpa using Ne.symm htok)))
  refine ⟨?_, ?_, ?_, ?_, ?_, hlive⟩
  · rw [hchecks, hlogs]
    exact Nat.le_trans (Nat.add_le_add_right (hT isVerdict rfl) _) h.voted
  · rw [hlogs]
    exact Nat.le_trans (hT isReport rfl) h.reported
  · rw [hlogs]
    exact fun data hdata => h.carried data (hmem _ (by simp) hdata)
  · rw [hlogs, hchecks]
    exact h.content
  · rw [hchecks]
    exact fun hin => h.mild (hmem _ (by simp) hin)

theorem Custody.keep (h : Custody x T d) (hlive : d.crashed = false)
    (hchecks : checks x d'.out = checks x d.out) (hlogs : logs x d'.out = logs x d.out)
    (hT : ∀ f, f .lsn = false → T'.countP f ≤ T.countP f)
    (hkeep : d'.crashed = false →
      (queue x d').Sublist (queue x d) ∧ stored x d' = stored x d) : Custody x T' d' := by
  refine h.quiet hchecks hlogs hT ?_
  intro hlive'
  obtain ⟨hvoted, hmild, hin⟩ := h.live hlive
  obtain ⟨hqueue, hstored⟩ := hkeep hlive'
  have hle := hqueue.length_le
  have hverdict := hT isVerdict rfl
  refine ⟨?_, ?_, ?_⟩
  · rw [hlogs, hchecks]
    omega
  · rw [hchecks]
    exact fun hmem => hmild (hqueue.subset hmem)
  · rw [hchecks, hstored]
    exact fun hpos => hin (by omega)

/-- A verdict is queued. -/
theorem Custody.decision (h : Custody x T d) (hlive : d.crashed = false)
    (hchecks : checks x d'.out = checks x d.out) (hlogs : logs x d'.out = logs x d.out) {b : Bool}
    (hT : ∀ f, T'.countP f + [Token.verdict b].countP f = T.countP f)
    (hqueue : queue x d' = queue x d ++ [.verdict b]) (hstored : stored x d' = stored x d) :
    Custody x T' d' := by
  refine h.quiet hchecks hlogs (fun f _ => Nat.le_of_add_right_le (hT f).le) ?_
  intro _
  obtain ⟨hvoted, hmild, hin⟩ := h.live hlive
  have hverdict : T'.countP isVerdict + 1 = T.countP isVerdict := hT isVerdict
  have hlen : (queue x d').length = (queue x d).length + 1 := by simp [hqueue]
  refine ⟨?_, ?_, ?_⟩
  · rw [hlogs, hchecks]
    omega
  · rw [hchecks, hqueue]
    intro hmem
    rcases List.mem_append.1 hmem with hmem | hmem
    · exact hmild hmem
    · refine h.mild ?_
      rw [mem_iff_countP, ← hT]
      simp [List.mem_singleton.1 hmem]
  · rw [hchecks, hstored]
    exact fun hpos => hin (by omega)

/-- A result comes back. It stems from a log, so that no verdict is left. -/
theorem Custody.report (h : Custody x T d) (hlive : d.crashed = false)
    (hchecks : checks x d'.out = checks x d.out) (hlogs : logs x d'.out = logs x d.out)
    (hone : (checks x d.out).length ≤ 1)
    (hT : ∀ f, T'.countP f + [Token.result].countP f = T.countP f)
    (hqueue : (queue x d').Sublist (queue x d)) : Custody x T' d' := by
  refine h.quiet hchecks hlogs (fun f _ => Nat.le_of_add_right_le (hT f).le) ?_
  intro _
  have hvoted := (h.live hlive).voted
  have hreported := h.reported
  have hreport : T'.countP isReport + 1 = T.countP isReport := hT isReport
  have hverdict : T'.countP isVerdict + 0 = T.countP isVerdict := hT isVerdict
  have hle := hqueue.length_le
  have hnil : queue x d' = [] := List.eq_nil_of_length_eq_zero (by omega)
  refine ⟨?_, ?_, ?_⟩
  · rw [hlogs, hchecks]
    omega
  · rw [hnil]
    simp
  · intro hpos
    omega

/-- The check of `x`, which is the first one. -/
theorem Custody.check (h : Custody x T d) (hout : d'.out = d.out ++ es) {t : Transaction}
    {c : Bool} (hchecks : checks x es = [(t, c)]) (hfirst : checks x d.out = [])
    (hqueue : (queue x d').Sublist (queue x d)) (hlive : d'.crashed = false → d.crashed = false)
    (hsent : sent x es = [] ∨ sent x es = [.verdict c] ∨
      c = false ∧ sent x es = [.log (some (encodeSet t.writeSet))])
    (hstored : c = false → d'.crashed = false → stored x d' = some t)
    (hT : ∀ f, T'.countP f = T.countP f + (sent x es).countP f) : Custody x T' d' := by
  have hvoted := h.voted
  have hreported := h.reported
  rw [hfirst, List.length_nil] at hvoted
  have hlogs : logs x d.out = [] := List.eq_nil_of_length_eq_zero (by omega)
  rw [hlogs, List.length_nil] at hvoted hreported
  have hchecks' : checks x d'.out = [(t, c)] := by
    rw [hout, checks_append, hfirst, hchecks, List.nil_append]
  have hlogs' : logs x d'.out = logs x es := by
    rw [hout, logs_append, hlogs, List.nil_append]
  have hnoVerdict := verdict_notMem (T := T) (by omega)
  have hnoLog := log_notMem (T := T) (by omega)
  have hverdict := hT isVerdict
  have hreport := hT isReport
  -- nothing was on its way, so that what is sent now is all there is
  have hsum : (sent x es).countP isVerdict + (logs x es).length ≤ 1 ∧
      (sent x es).countP isReport = (logs x es).length := by
    rcases hsent with hs | hs | ⟨-, hs⟩
    · simp [logs_eq, hs]
    · simp [logs_eq, hs, isVerdict, isReport]
    · simp [logs_eq, hs, isVerdict, isReport]
  have hqueued : d'.crashed = false → queue x d' = [] := by
    intro hl
    have hvoted' := (h.live (hlive hl)).voted
    rw [hfirst, List.length_nil] at hvoted'
    have hnil : queue x d = [] := List.eq_nil_of_length_eq_zero (by omega)
    rw [hnil] at hqueue
    exact List.sublist_nil.1 hqueue
  refine ⟨?_, ?_, ?_, ?_, ?_, ?_⟩
  · rw [hlogs', hchecks', List.length_singleton]
    omega
  · rw [hlogs']
    omega
  · intro data hdata
    rw [hlogs', logs_eq]
    exact List.mem_filterMap.2 ⟨_, (mem_of_countP_add hT hdata).resolve_left (hnoLog data), rfl⟩
  · intro data hdata
    rw [hlogs', logs_eq] at hdata
    rw [hchecks']
    rcases hsent with hs | hs | ⟨rfl, hs⟩
    · simp [hs] at hdata
    · simp [hs] at hdata
    · refine ⟨t, by simp, ?_⟩
      simpa [hs] using hdata
  · intro hin
    rw [hchecks']
    have hin := (mem_of_countP_add hT hin).resolve_left (hnoVerdict false)
    rcases hsent with hs | hs | ⟨-, hs⟩
    · simp [hs] at hin
    · rw [hs, List.mem_singleton, Token.verdict.injEq] at hin
      simp [hin]
    · simp [hs] at hin
  · intro hl
    refine ⟨?_, ?_, ?_⟩
    · rw [hqueued hl, hlogs', hchecks', List.length_nil, List.length_singleton]
      omega
    · rw [hqueued hl]
      simp
    · intro _ u hu
      rw [hchecks'] at hu
      obtain ⟨rfl, rfl⟩ : u = t ∧ false = c := by simpa using hu
      exact hstored rfl hl

/-- A queued decision is handled. -/
theorem Custody.solve (h : Custody x T d) (hlive : d.crashed = false)
    (hout : d'.out = d.out ++ es) {b : Bool} (hchecks : checks x es = [])
    (hone : (checks x d.out).length ≤ 1)
    (hqueue : ∀ f, (queue x d).countP f = (queue x d').countP f + [Token.verdict b].countP f)
    (hsent : sent x es = [] ∨ b = false ∧ ∃ t, stored x d = some t ∧
      sent x es = [.log (some (encodeSet t.writeSet))])
    (hT : ∀ f, T'.countP f = T.countP f + (sent x es).countP f) : Custody x T' d' := by
  obtain ⟨hvoted, hmild, hstored⟩ := h.live hlive
  have hreported := h.reported
  have hlen : (queue x d).length = (queue x d').length + 1 := by
    rw [← countP_queue, ← countP_queue, hqueue]
    rfl
  have hlogs : logs x d.out = [] := List.eq_nil_of_length_eq_zero (by omega)
  rw [hlogs, List.length_nil] at hvoted hreported
  have hchecks' : checks x d'.out = checks x d.out := by
    rw [hout, checks_append, hchecks, List.append_nil]
  have hlogs' : logs x d'.out = logs x es := by
    rw [hout, logs_append, hlogs, List.nil_append]
  have hverdict := hT isVerdict
  have hreport := hT isReport
  have hnoLog := log_notMem (T := T) (by omega)
  have hsum : (sent x es).countP isVerdict = 0 ∧ (logs x es).length ≤ 1 ∧
      (sent x es).countP isReport = (logs x es).length := by
    rcases hsent with hs | ⟨-, t, -, hs⟩
    · simp [logs_eq, hs]
    · simp [logs_eq, hs, isVerdict, isReport]
  refine ⟨?_, ?_, ?_, ?_, ?_, ?_⟩
  · rw [hlogs', hchecks']
    omega
  · rw [hlogs']
    omega
  · intro data hdata
    rw [hlogs', logs_eq]
    exact List.mem_filterMap.2 ⟨_, (mem_of_countP_add hT hdata).resolve_left (hnoLog data), rfl⟩
  · intro data hdata
    rw [hlogs', logs_eq] at hdata
    rw [hchecks']
    rcases hsent with hs | ⟨rfl, t, ht, hs⟩
    · simp [hs] at hdata
    · -- the decision is without conflict, so the one check is, and the DBTM holds its transaction
      obtain ⟨⟨u, c⟩, hu⟩ : ∃ c, checks x d.out = [c] := List.length_eq_one_iff.1 (by omega)
      have hin : .verdict false ∈ queue x d := by
        rw [mem_iff_countP, hqueue]
        simp
      obtain rfl : c = false := hmild hin (u, c) (by simp [hu])
      have hsame := hstored (by omega) u (by simp [hu])
      rw [ht, Option.some.injEq] at hsame
      subst hsame
      refine ⟨t, by simp [hu], ?_⟩
      simpa [hs] using hdata
  · intro hin
    rw [hchecks']
    refine h.mild ((mem_of_countP_add hT hin).resolve_right ?_)
    rcases hsent with hs | ⟨-, t, -, hs⟩
    · simp [hs]
    · simp [hs]
  · intro _
    have hnil : queue x d' = [] := List.eq_nil_of_length_eq_zero (by omega)
    refine ⟨?_, ?_, ?_⟩
    · rw [hlogs', hchecks', hnil, List.length_nil]
      omega
    · rw [hnil]
      simp
    · intro hpos
      rw [hnil, List.length_nil] at hpos
      omega

/-- A step of the process keeps the invariant, provided that there is one check at most. -/
theorem Custody.move {inp : Option Token} (h : Custody x T d) (hlive : d.crashed = false)
    (hmove : Move x d d' es inp) (hout : d'.out = d.out ++ es)
    (hone : (checks x d'.out).length ≤ 1)
    (hT : ∀ f, T'.countP f + inp.toList.countP f = T.countP f + (sent x es).countP f) :
    Custody x T' d' := by
  have hunchecked : checks x es = [] → checks x d'.out = checks x d.out := by
    intro hchecks
    rw [hout, checks_append, hchecks, List.append_nil]
  have hunlogged : logs x es = [] → logs x d'.out = logs x d.out := by
    intro hlogs
    rw [hout, logs_append, hlogs, List.append_nil]
  have hunsent : sent x es = [] → ∀ f, T'.countP f + inp.toList.countP f = T.countP f := by
    intro hsent f
    have hf := hT f
    rwa [hsent, List.countP_nil] at hf
  cases hmove with
  | keep _ hsent hchecks hkeep =>
      refine h.keep hlive (hunchecked hchecks) (hunlogged (logs_of_sent_lsn hsent)) ?_ hkeep
      intro f hf
      have hcount := hT f
      have hnone : (sent x es).countP f = 0 := by
        rw [List.countP_eq_zero]
        intro tok htok
        simp [hsent tok htok, hf]
      omega
  | decision b hsent hchecks hqueue hstored =>
      exact h.decision hlive (hunchecked hchecks) (hunlogged (logs_of_sent_nil hsent))
        (hunsent hsent) hqueue hstored
  | report hsent hchecks hqueue =>
      rw [hunchecked hchecks] at hone
      exact h.report hlive (hunchecked hchecks) (hunlogged (logs_of_sent_nil hsent)) hone
        (hunsent hsent) hqueue
  | check t c hchecks _ hqueue hsent hstored =>
      have hfirst : checks x d.out = [] := by
        rw [hout, checks_append, hchecks, List.length_append, List.length_singleton] at hone
        exact List.eq_nil_of_length_eq_zero (by omega)
      exact h.check hout hchecks hfirst hqueue (fun _ => hlive) hsent hstored hT
  | solve b hchecks hqueue hsent =>
      rw [hunchecked hchecks] at hone
      exact h.solve hlive hout hchecks hone hqueue hsent hT

end Step

/-- A queued decision without conflict finds the transaction that has passed its check. -/
theorem Custody.finds {x : Int} {T : List Token} {d : DbService C W} (h : Custody x T d)
    (hlive : d.crashed = false) (hone : (checks x d.out).length ≤ 1)
    (hqueue : .verdict false ∈ queue x d) :
    ∃ t, stored x d = some t ∧ checks x d.out = [(t, false)] := by
  obtain ⟨hvoted, hmild, hstored⟩ := h.live hlive
  have hpos := List.length_pos_of_mem hqueue
  obtain ⟨⟨t, c⟩, ht⟩ : ∃ c, checks x d.out = [c] := List.length_eq_one_iff.1 (by omega)
  obtain rfl : c = false := hmild hqueue (t, c) (by simp [ht])
  exact ⟨t, hstored (by omega) t (by simp [ht]), ht⟩

end DbService

end Grit
