import Grit.LogPlayer.Replay
import Grit.TimeWheel.Count

/-!
# The budget of a transaction

A transaction is played once by its log and once by each of its timers. A timer is set by a
failure whose position has not used up its retries, so the plays that are made or still to come
are paid for by the retries that are counted.
-/

namespace Grit

open Cmd

/-- The retries that have set a timer, if `counts` are the failures of each position. -/
def spent (max : Nat) (counts : List Int) : Nat := (counts.map (min ·.toNat max)).sum

theorem spent_le (max : Nat) (counts : List Int) : spent max counts ≤ counts.length * max := by
  induction counts with
  | nil => simp [spent]
  | cons c counts ih =>
      have hmin := Nat.min_le_right c.toNat max
      simp only [spent, List.map_cons, List.sum_cons, List.length_cons, Nat.succ_mul] at ih ⊢
      omega

/-- One more failure of a position. -/
theorem spent_set (max : Nat) {counts : List Int} {i : Nat} (h : i < counts.length)
    (hcount : 0 ≤ counts[i]?.getD 0) :
    spent max (counts.set i (counts[i]?.getD 0 + 1)) =
      spent max counts + if counts[i]?.getD 0 < max then 1 else 0 := by
  induction counts generalizing i with
  | nil => simp at h
  | cons c counts ih =>
      cases i with
      | zero =>
          simp only [List.set_cons_zero, List.getElem?_cons_zero, Option.getD_some, spent,
            List.map_cons, List.sum_cons] at hcount ⊢
          by_cases hc : c < max
          · rw [if_pos hc, Nat.min_eq_left (by omega), Nat.min_eq_left (by omega)]
            omega
          · rw [if_neg hc, Nat.min_eq_right (by omega), Nat.min_eq_right (by omega)]
            omega
      | succ i =>
          have hrest := ih (Nat.lt_of_succ_lt_succ h) hcount
          simp only [List.set_cons_succ, List.getElem?_cons_succ, spent, List.map_cons,
            List.sum_cons] at hrest ⊢
          omega

namespace LogSite

variable {D : Type*}

/-- The calls of `playLog` for `x`. -/
def plays (x : Int) (out : List (LogPlayerEvent D)) : Nat := (played out).count x

def isSend (x : Int) (pos : Nat) : LogPlayerEvent D → Bool
  | .send p _ msg => msg.txid = x ∧ p = pos
  | _ => false

/-- The logs of `x` that were sent to the position. -/
def sends (x : Int) (pos : Nat) (out : List (LogPlayerEvent D)) : Nat := out.countP (isSend x pos)

/-- After `k` logs of `x` with `n` connections, while `due` callbacks of its timers are still to
run: the plays and the timers are paid for. -/
structure Budget (max : Nat) (x : Int) (n k due : Nat) (s : LogSite D) : Prop where
  inRange : s.player.InRange
  limit : s.player.config.maxRetryTime = max
  turning : s.player.timeWheel.curslot < s.player.timeWheel.nslots
  counters : (s.player.retryTable x).length ≤ n
  unenrolled : s.player.answerTable x = none → k = 0 ∧ s.player.retryTable x = []
  distinct : ∀ l, s.player.answerTable x = some l → l.Nodup
  started : k ≤ plays x s.player.out
  paid : plays x s.player.out + s.player.timeWheel.pending x + due ≤
    k + spent max (s.player.retryTable x)
  sent : ∀ pos, sends x pos s.player.out ≤ plays x s.player.out

variable {max : Nat} {x : Int} {n k due : Nat} {s : LogSite D}

theorem budget_init {config : LpConfig} (hmax : config.maxRetryTime = max) (x : Int)
    (reading : Nat) : Budget max x 0 0 0 (init config reading : LogSite D) where
  inRange := inRange_init config reading
  limit := hmax
  turning := by
    change 0 < 60 * 100
    decide
  counters := Nat.le_refl 0
  unenrolled := fun _ => ⟨rfl, rfl⟩
  distinct := by simp [init, LogPlayer.init]
  started := Nat.zero_le _
  paid := by
    have hpending := TimeWheel.pending_init x (60 * 100) reading
    change 0 + (TimeWheel.init (60 * 100) reading).pending x + 0 ≤ 0 + 0
    omega
  sent := fun _ => Nat.le_refl 0

theorem Budget.mono (h : Budget max x n k due s) {n' : Nat} (hn : n ≤ n') :
    Budget max x n' k 0 s := by
  have hpaid := h.paid
  exact ⟨h.inRange, h.limit, h.turning, h.counters.trans hn, h.unenrolled, h.distinct, h.started,
    by omega, h.sent⟩

/-- Before the log of `x` nothing is played, pending or counted. -/
theorem Budget.unlogged (h : Budget max x 0 0 due s) :
    s.player.retryTable x = [] ∧ plays x s.player.out = 0 ∧
      s.player.timeWheel.pending x = 0 := by
  have hnil := List.eq_nil_of_length_eq_zero (Nat.le_zero.1 h.counters)
  have hpaid := h.paid
  rw [hnil] at hpaid
  have hzero : spent max [] = 0 := rfl
  exact ⟨hnil, by omega, by omega⟩

/-! ### Plays -/

theorem plays_append (x : Int) (out es : List (LogPlayerEvent D)) :
    plays x (out ++ es) = plays x out + plays x es := by
  rw [plays, played_append, List.count_append]
  rfl

theorem sends_append (x : Int) (pos : Nat) (out es : List (LogPlayerEvent D)) :
    sends x pos (out ++ es) = sends x pos out + sends x pos es := List.countP_append

theorem plays_playEvents (x y : Int) (s : LogSite D) :
    plays x (s.playEvents y) = if y = x then 1 else 0 := by
  rw [plays, played_playEvents, List.count_singleton]
  simp

/-- A play sends a log to each position once at most. -/
theorem sends_playEvents_le {y : Int} (hdistinct : y = x → (s.player.unanswered y).Nodup)
    (pos : Nat) : sends x pos (s.playEvents y) ≤ if y = x then 1 else 0 := by
  have hskip : sends x pos (s.playEvents y) = sends x pos (s.player.sendsTo
      (createDbMsg y (some ((s.logTable y).map LogPlayer.encodeLog))) (s.player.unanswered y)) := by
    rw [playEvents, sends, List.countP_cons_of_neg (by simp [isSend])]
    rfl
  rw [hskip, sends, LogPlayer.sendsTo, List.countP_filterMap]
  by_cases hy : y = x
  · subst hy
    rw [if_pos rfl]
    refine Nat.le_trans (List.countP_mono_left fun p _ hp => ?_)
      (List.nodup_iff_count_le_one.1 (hdistinct rfl) pos)
    cases hconn : s.player.dbConnVec[p]? with
    | none => simp [hconn] at hp
    | some conn =>
        have hpos : p = pos := by simpa [hconn, isSend, createDbMsg] using hp
        simp [hpos]
  · rw [if_neg hy, Nat.le_zero, List.countP_eq_zero]
    intro p _
    cases hconn : s.player.dbConnVec[p]? with
    | none => simp
    | some conn => simp [isSend, createDbMsg, hy]

theorem Budget.nodup_unanswered (h : Budget max x n k due s) : (s.player.unanswered x).Nodup := by
  cases hl : s.player.answerTable x with
  | none => simpa [LogPlayer.unanswered, hl] using List.nodup_range
  | some l => simpa [LogPlayer.unanswered, hl] using h.distinct l hl

theorem enroll_config (y : Int) (p : LogPlayer D) : (p.enroll y).config = p.config := by
  unfold LogPlayer.enroll
  split
  · rfl
  · rfl

/-- Another transaction is played. -/
theorem Budget.play_of_ne (h : Budget max x n k due s) {y : Int} (hy : y ≠ x) :
    Budget max x n k due (s.play y) := by
  have hne : x ≠ y := Ne.symm hy
  have hplays : plays x (s.player.out ++ s.playEvents y) = plays x s.player.out := by
    rw [plays_append, plays_playEvents, if_neg hy, Nat.add_zero]
  have hretry := LogPlayer.enroll_retryTable_of_ne hne s.player
  have hanswer := LogPlayer.enroll_of_ne hne s.player
  have hwheel := LogPlayer.enroll_timeWheel y s.player
  rw [play_eq h.inRange]
  refine ⟨h.inRange.enroll y, (congrArg _ (enroll_config y s.player)).trans h.limit,
    ?_, ?_, ?_, ?_, ?_,
    ?_, ?_⟩
  · dsimp only
    rw [hwheel]
    exact h.turning
  · exact hretry.symm ▸ h.counters
  · dsimp only
    rw [hanswer, hretry]
    exact h.unenrolled
  · dsimp only
    rw [hanswer]
    exact h.distinct
  · dsimp only
    rw [hplays]
    exact h.started
  · dsimp only
    rw [hplays, hwheel, hretry]
    exact h.paid
  · intro pos
    have hsends := sends_playEvents_le (x := x) (s := s) (fun heq => absurd heq hy) pos
    rw [if_neg hy] at hsends
    have hold := h.sent pos
    dsimp only
    rw [hplays, sends_append]
    omega

/-- A play of `x` itself, as far as the output is concerned. -/
theorem Budget.sent_play (h : Budget max x n k due s) (pos : Nat) :
    sends x pos (s.player.out ++ s.playEvents x) ≤ plays x (s.player.out ++ s.playEvents x) := by
  have hsends := sends_playEvents_le (x := x) (s := s) (fun _ => h.nodup_unanswered) pos
  have hold := h.sent pos
  rw [if_pos rfl] at hsends
  rw [plays_append, plays_playEvents, if_pos rfl, sends_append]
  omega

/-- The callback of a timer of `x`. -/
theorem Budget.play_due (h : Budget max x n k (due + 1) s) : Budget max x n k due (s.play x) := by
  have henrolled : s.player.answerTable x ≠ none := by
    intro hnone
    obtain ⟨hk, hretry⟩ := h.unenrolled hnone
    have hpaid := h.paid
    have hzero : spent max [] = 0 := rfl
    rw [hretry] at hpaid
    omega
  obtain ⟨l, hl⟩ := Option.ne_none_iff_exists'.1 henrolled
  have hplays : plays x (s.player.out ++ s.playEvents x) = plays x s.player.out + 1 := by
    rw [plays_append, plays_playEvents, if_pos rfl]
  rw [play_eq h.inRange, LogPlayer.enroll_of_some hl]
  refine ⟨h.inRange, h.limit, h.turning, h.counters, h.unenrolled, h.distinct, ?_, ?_,
    h.sent_play⟩
  · dsimp only
    rw [hplays]
    exact h.started.trans (Nat.le_succ _)
  · have hpaid := h.paid
    dsimp only
    rw [hplays]
    omega

/-- The log of `x`, which is played before anything else. -/
theorem Budget.play_first (h : Budget max x 0 0 0 s) :
    Budget max x s.player.dbConnVec.length 1 0 (s.play x) := by
  obtain ⟨hretry, hzero, hpending⟩ := h.unlogged
  have hplays : plays x (s.player.out ++ s.playEvents x) = 1 := by
    rw [plays_append, plays_playEvents, if_pos rfl, hzero]
  have hcounters : (s.player.enroll x).retryTable x = [] ∨
      (s.player.enroll x).retryTable x = List.replicate s.player.dbConnVec.length 0 := by
    cases hl : s.player.answerTable x with
    | none => exact Or.inr (by simp [LogPlayer.enroll, hl])
    | some l => exact Or.inl (by rw [LogPlayer.enroll_of_some hl, hretry])
  rw [play_eq h.inRange]
  refine ⟨h.inRange.enroll x, (congrArg _ (enroll_config x s.player)).trans h.limit,
    ?_, ?_, ?_, ?_, ?_,
    ?_, h.sent_play⟩
  · dsimp only
    rw [LogPlayer.enroll_timeWheel]
    exact h.turning
  · dsimp only
    rcases hcounters with heq | heq
    · rw [heq]
      exact Nat.zero_le _
    · rw [heq, List.length_replicate]
  · intro hnone
    dsimp only at hnone
    rw [LogPlayer.enroll_self] at hnone
    simp at hnone
  · intro l hl
    dsimp only at hl
    rw [LogPlayer.enroll_self] at hl
    exact Option.some.inj hl ▸ h.nodup_unanswered
  · dsimp only
    rw [hplays]
  · dsimp only
    rw [hplays, LogPlayer.enroll_timeWheel, hpending]
    omega

/-! ### Operations -/

theorem Budget.retryAll {called : List (Timer Int)}
    (h : Budget max x n k (TimeWheel.calls x called) s) :
    Budget max x n k 0
      ({ s with player := s.player.retryAll s.logTable called } : LogSite D) := by
  induction called generalizing s with
  | nil => exact h
  | cons t called ih =>
      unfold LogPlayer.retryAll
      split
      · exact h.mono (Nat.le_refl n)
      · by_cases ht : t.fn = x
        · have hcalls : TimeWheel.calls x (t :: called) = TimeWheel.calls x called + 1 := by
            simp [TimeWheel.calls, ht]
          rw [hcalls] at h
          subst ht
          exact ih h.play_due
        · have hcalls : TimeWheel.calls x (t :: called) = TimeWheel.calls x called := by
            simp [TimeWheel.calls, ht]
          rw [hcalls] at h
          exact ih (h.play_of_ne ht)

theorem Budget.poll (h : Budget max x n k 0 s) (reading : Nat) :
    Budget max x n k 0 ({ s with player := s.player.poll s.logTable reading } : LogSite D) := by
  obtain ⟨hcur, hpending⟩ := TimeWheel.pending_takeAllTimeout h.turning x reading
  have hpaid := h.paid
  have hwheel : Budget max x n k
      (TimeWheel.calls x (s.player.timeWheel.takeAllTimeout reading).2)
      ({ s with player := { s.player with
        timeWheel := (s.player.timeWheel.takeAllTimeout reading).1 } } : LogSite D) :=
    ⟨h.inRange, h.limit, hcur, h.counters, h.unenrolled, h.distinct, h.started,
      by dsimp only; omega, h.sent⟩
  exact hwheel.retryAll

theorem Budget.answer (h : Budget max x n k 0 s) (y id : Int) :
    Budget max x n k 0 ({ s with player := s.player.answer y id } : LogSite D) := by
  have hplays : plays x (s.player.out ++ [.answered y (s.player.connAt id)]) =
      plays x s.player.out := by
    rw [plays_append]
    rfl
  have hsends : ∀ pos, sends x pos (s.player.out ++ [.answered y (s.player.connAt id)]) =
      sends x pos s.player.out := by
    intro pos
    rw [sends_append]
    rfl
  refine ⟨h.inRange.answer y id, h.limit, h.turning, h.counters, ?_, ?_, ?_, ?_, ?_⟩
  · intro hnone
    refine h.unenrolled ?_
    by_cases hx : x = y
    · subst hx
      simp [LogPlayer.answer, LogPlayer.emit] at hnone
    · exact (Function.update_of_ne hx _ _).symm.trans hnone
  · intro l hl
    by_cases hx : x = y
    · subst hx
      have hleft : ((s.player.answerTable x).getD []).Nodup := by
        cases hold : s.player.answerTable x with
        | none => exact List.nodup_nil
        | some l' => exact h.distinct l' hold
      simp only [LogPlayer.answer, LogPlayer.emit, Function.update_self,
        Option.some.injEq] at hl
      exact hl ▸ hleft.filter _
    · exact h.distinct l ((Function.update_of_ne hx _ _).symm.trans hl)
  · change k ≤ plays x (s.player.out ++ _)
    rw [hplays]
    exact h.started
  · change plays x (s.player.out ++ _) + _ + 0 ≤ _
    rw [hplays]
    exact h.paid
  · intro pos
    change sends x pos (s.player.out ++ _) ≤ plays x (s.player.out ++ _)
    rw [hplays, hsends]
    exact h.sent pos

/-- The counters, the timers and the end of the process may change, if the timers are paid for. -/
theorem Budget.recount (h : Budget max x n k 0 s) {retryTable : Int → List Int}
    {timeWheel : TimeWheel Int} {crashed : Bool}
    (hlength : (retryTable x).length = (s.player.retryTable x).length)
    (hturning : timeWheel.curslot < timeWheel.nslots)
    (hpaid : timeWheel.pending x + spent max (s.player.retryTable x) ≤
      s.player.timeWheel.pending x + spent max (retryTable x)) :
    Budget max x n k 0
      ({ s with player := { s.player with retryTable, timeWheel, crashed } } : LogSite D) := by
  refine ⟨h.inRange, h.limit, hturning, hlength ▸ h.counters, ?_, h.distinct, h.started, ?_,
    h.sent⟩
  · intro hnone
    obtain ⟨hk, hnil⟩ := h.unenrolled hnone
    refine ⟨hk, List.eq_nil_of_length_eq_zero ?_⟩
    dsimp only
    rw [hlength, hnil]
    rfl
  · have hold := h.paid
    dsimp only
    omega

/-- A failure, as long as the counter of the position does not overflow. -/
theorem Budget.retryLater (h : Budget max x n k 0 s) (y id : Int)
    (hcount : y = x → 0 ≤ id → ∃ failed < 2147483647,
      (s.player.retryTable x)[id.toNat]?.getD 0 = LogPlayer.counter failed) :
    Budget max x n k 0 ({ s with player := s.player.retryLater y id } : LogSite D) := by
  have hpending := fun timeout => TimeWheel.pending_addTimer h.turning timeout x y
  unfold LogPlayer.retryLater
  split
  · rename_i hid
    dsimp only
    by_cases hx : y = x
    · subst hx
      obtain ⟨failed, hsmall, hcounter⟩ := hcount rfl hid.1
      have hfailed : LogPlayer.counter failed = failed := LogPlayer.counter_eq (by omega)
      have hnext : LogPlayer.increment ((s.player.retryTable y)[id.toNat]?.getD 0) =
          (s.player.retryTable y)[id.toNat]?.getD 0 + 1 := by
        rw [hcounter, LogPlayer.increment_counter, LogPlayer.counter_eq (by omega), hfailed]
        rfl
      have hset := spent_set max hid.2 (by omega)
      rw [hnext]
      split
      · refine h.recount ?_ h.turning ?_
        · rw [Function.update_self, List.length_set]
        · rw [Function.update_self, hset]
          omega
      · -- the timer is paid for by the retry that is counted
        rename_i htime
        have hlimit := h.limit
        rw [if_pos (by omega)] at hset
        refine h.recount ?_ h.turning ?_
        · rw [Function.update_self, List.length_set]
        · rw [Function.update_self, hset, hpending, if_pos rfl]
          omega
    · have hsame : ∀ c, Function.update s.player.retryTable y c x = s.player.retryTable x := by
        intro c
        exact Function.update_of_ne (Ne.symm hx) _ _
      split
      · refine h.recount ?_ h.turning ?_
        · rw [hsame]
        · rw [hsame]
      · refine h.recount ?_ h.turning ?_
        · rw [hsame]
        · rw [hsame, hpending, if_neg hx, Nat.add_zero]
  · exact h.recount rfl h.turning (Nat.le_refl _)

/-- The plays of `x`, the logs sent to a position and the pending timers are bounded by the number
of connections and the limit. -/
structure Bounded (max : Nat) (x : Int) (n : Nat) (s : LogSite D) : Prop where
  plays : plays x s.player.out ≤ 1 + n * max
  sends : ∀ pos, sends x pos s.player.out ≤ 1 + n * max
  timers : s.player.timeWheel.pending x ≤ n * max

theorem Budget.bounded (h : Budget max x n k 0 s) (hk : k ≤ 1) : Bounded max x n s := by
  have hspent : spent max (s.player.retryTable x) ≤ n * max :=
    (spent_le max _).trans (Nat.mul_le_mul_right max h.counters)
  have hpaid := h.paid
  have hstarted := h.started
  refine ⟨by omega, ?_, by omega⟩
  intro pos
  have hsent := h.sent pos
  omega

end LogSite

end Grit
