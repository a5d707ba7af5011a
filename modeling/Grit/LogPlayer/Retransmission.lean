import Grit.LogPlayer.Quiescence
import Grit.TimeWheel.Clock

/-!
# Retransmission stops, or the counters overflow

Each failure is counted, so the budget of a transaction holds as long as no counter overflows.
A server that replies to each log once at most does not fail more often than the transaction is
played, and the bound on the plays is therefore a bound on the counters, if it fits an `int`. With
the largest limit it does not: the counter is never above the limit, and a server that keeps failing
is sent the log again and again.
-/

namespace Grit

open Cmd History

namespace LogSite

section Bound

variable {D : Type*} {config : LpConfig} {max reading : Nat} {x : Int} {n k : Nat}
  {l : List (Op D)}

theorem Budget.reply {s : LogSite D} (h : Budget max x n k 0 s) {data : LogPlayerMsg}
    (hcount : data.cmd = kExecTranFail → data.txid = x → 0 ≤ data.id → ∃ failed < 2147483647,
      (s.player.retryTable x)[data.id.toNat]?.getD 0 = LogPlayer.counter failed) :
    Budget max x n k 0 ({ s with player := s.player.onMessage data } : LogSite D) := by
  rcases LogPlayer.onMessage_cases data s.player with ⟨-, heq⟩ | ⟨hcmd, heq⟩ | heq
  · rw [heq]
    exact h.answer data.txid data.id
  · rw [heq]
    exact h.retryLater data.txid data.id (hcount hcmd)
  · rw [heq]
    exact h

/-- A server fails less often than it was sent the log, and that is bounded. -/
theorem Watched.counter_lt (h : Watched config x l 0 (run config reading l))
    (hbudget : Budget max x n k 0 (run config reading l)) (hk : k ≤ 1)
    (hsize : 1 + n * max < 2147483648) {data : LogPlayerMsg}
    (hturn : InTurn config reading l (.reply data)) (hcmd : data.cmd = kExecTranFail)
    (hx : data.txid = x) :
    ∃ failed < 2147483647, ((run config reading l).player.retryTable x)[data.id.toNat]?.getD 0 =
      LogPlayer.counter failed := by
  subst hx
  obtain ⟨-, hlt⟩ := hturn (Or.inr hcmd)
  have hfailures := failures_le_replies data.txid data.id.toNat l
  have hsends := (hbudget.bounded hk).sends data.id.toNat
  exact ⟨_, by omega, h.counted data.id.toNat⟩

/-- Any operation but a log of `x`. -/
theorem Budget.step (h : Budget max x n k 0 (run config reading l)) (hk : k ≤ 1)
    (hsize : 1 + n * max < 2147483648) (hwatched : Watched config x l 0 (run config reading l))
    {op : Op D} (hturn : InTurn config reading l op) (hop : isLogOf x op = false) :
    Budget max x n k 0 ((run config reading l).step op) := by
  unfold LogSite.step
  split
  · exact h
  · cases op with
    | connect conn =>
        exact ⟨h.inRange.onDbConnection conn, h.limit, h.turning, h.counters, h.unenrolled,
          h.distinct, h.started, h.paid, h.sent⟩
    | log y logs =>
        have hne : y ≠ x := by simpa [isLogOf] using hop
        have hadd : Budget max x n k 0 ((run config reading l).addLogs y logs) :=
          ⟨h.inRange, h.limit, h.turning, h.counters, h.unenrolled, h.distinct, h.started, h.paid,
            h.sent⟩
        exact hadd.play_of_ne hne
    | reply data =>
        exact h.reply fun hcmd hx _ => hwatched.counter_lt h hk hsize hturn hcmd hx
    | poll reading => exact h.poll reading

theorem Budget.steps (h : Budget max x n k 0 (run config reading l)) (hk : k ≤ 1)
    (hsize : 1 + n * max < 2147483648) (l' : List (Op D))
    (hturn : Each (InTurn config reading) (l ++ l')) (hl' : l'.countP (isLogOf x) = 0) :
    Budget max x n k 0 (run config reading (l ++ l')) := by
  induction l' using List.reverseRecOn with
  | nil =>
      rw [List.append_nil]
      exact h
  | append_singleton l' op ih =>
      rw [← List.append_assoc] at hturn ⊢
      obtain ⟨hbefore, hlast⟩ := (each_concat _ _ _).1 hturn
      rw [List.countP_append] at hl'
      have hop : isLogOf x op = false := by simpa using (Nat.add_eq_zero_iff.1 hl').2
      rw [run_concat]
      exact (ih hbefore (Nat.add_eq_zero_iff.1 hl').1).step hk hsize (watched_run hbefore x).2
        hlast hop

/-- The log of `x` with `n` connections; a process that has ended does not play it. -/
theorem Budget.log {s : LogSite D} (h : Budget max x 0 0 0 s) (logs : List LogInfo) :
    ∃ k ≤ 1, Budget max x s.player.dbConnVec.length k 0 (s.step (.log x logs)) := by
  unfold LogSite.step
  split
  · exact ⟨0, Nat.zero_le 1, h.mono (Nat.zero_le _)⟩
  · have hadd : Budget max x 0 0 0 (s.addLogs x logs) :=
      ⟨h.inRange, h.limit, h.turning, h.counters, h.unenrolled, h.distinct, h.started, h.paid,
        h.sent⟩
    exact ⟨1, Nat.le_refl 1, hadd.play_first⟩

/-- In every run in which the servers reply in turn and `x` is logged once, with `n` connections by
then: if `1 + n * max` fits an `int`, the plays of `x`, what is sent for it and its timers stay
bounded at any time. -/
theorem bounded_run (config : LpConfig) (max : Nat) (hmax : config.maxRetryTime = max)
    (reading : Nat) (x : Int) (pre : List (Op D)) (logs : List LogInfo) (post : List (Op D))
    (hturn : Each (InTurn config reading) (pre ++ .log x logs :: post))
    (hpre : pre.countP (isLogOf x) = 0) (hpost : post.countP (isLogOf x) = 0)
    (hsize : 1 + (run config reading pre).player.dbConnVec.length * max < 2147483648)
    {l : List (Op D)} (hl : l <+: pre ++ .log x logs :: post) :
    Bounded max x (run config reading pre).player.dbConnVec.length (run config reading l) := by
  have hzero : ∀ {l₁ l₂ : List (Op D)}, l₁ <+: l₂ → l₂.countP (isLogOf x) = 0 →
      l₁.countP (isLogOf x) = 0 := by
    intro l₁ l₂ hsub hcount
    exact Nat.le_zero.1 (hcount ▸ hsub.sublist.countP_le)
  have hturn' : Each (InTurn config reading) l := by
    obtain ⟨rest, hrest⟩ := hl
    rw [← hrest] at hturn
    exact ((each_append _ _ _).1 hturn).1
  have hbefore : ∀ {l₁ : List (Op D)}, l₁ <+: pre → Each (InTurn config reading) l₁ →
      Budget max x 0 0 0 (run config reading l₁) := by
    intro l₁ hsub hl₁
    exact Budget.steps (l := []) (budget_init hmax x reading) (Nat.zero_le 1) (by omega) l₁ hl₁
      (hzero hsub hpre)
  rcases List.prefix_or_prefix_of_prefix hl (List.prefix_append _ _) with hl | ⟨l', rfl⟩
  · exact ((hbefore hl hturn').mono (Nat.zero_le _)).bounded (Nat.zero_le 1)
  · have hpre' := hbefore (List.prefix_refl pre) ((each_append _ _ _).1 hturn').1
    cases l' with
    | nil =>
        rw [List.append_nil]
        exact (hpre'.mono (Nat.zero_le _)).bounded (Nat.zero_le 1)
    | cons op l' =>
        obtain ⟨rfl, hl'⟩ := List.cons_prefix_cons.1 ((List.prefix_append_right_inj pre).1 hl)
        obtain ⟨k, hk, hlog⟩ := hpre'.log logs
        rw [← run_concat] at hlog
        rw [List.append_cons] at hturn' ⊢
        exact (hlog.steps hk hsize l' hturn' (hzero hl' hpost)).bounded hk

end Bound

/-- Both servers fail a transaction, and the timers are not due yet. -/
theorem bounded_run_failing :
    Bounded 1 7 2 (run oneRetry 0 [.connect false, .connect true, .log 7 [⟨"k", "a", "1"⟩],
      .reply ⟨kExecTranFail, 7, 0⟩, .reply ⟨kExecTranFail, 7, 1⟩, .poll 3]) :=
  bounded_run oneRetry 1 rfl 0 7 [.connect false, .connect true] [⟨"k", "a", "1"⟩]
    [.reply ⟨kExecTranFail, 7, 0⟩, .reply ⟨kExecTranFail, 7, 1⟩, .poll 3] (by decide) (by decide)
    (by decide) (by decide) (List.prefix_refl _)

/-! ### A counter that overflows -/

section Overflow

variable {D : Type*}

/-- A poll that calls no timer. -/
theorem step_poll_silent {s : LogSite D} (hlive : s.player.crashed = false) (now : Nat)
    (h : (s.player.timeWheel.takeAllTimeout now).2 = []) :
    s.step (.poll now) = { s with player := { s.player with
      timeWheel := (s.player.timeWheel.takeAllTimeout now).1 } } := by
  rw [step_poll hlive, LogPlayer.poll]
  dsimp only
  rw [h]
  rfl

/-- A poll one millisecond after the last one is a tick. -/
theorem takeAllTimeout_next {w : TimeWheel Int} {last : Nat}
    (hclock : TimeWheel.SameInt w.starttime last) :
    w.takeAllTimeout (last + 1) =
      ({ w.tick.1 with starttime := TimeWheel.keptReading (last + 1) }, w.tick.2) := by
  have helapsed : (TimeWheel.elapsed (last + 1) w.starttime).toNat = 1 := by
    rw [TimeWheel.elapsed_eq (Nat.le_succ last) (by omega) hclock]
    omega
  rw [TimeWheel.takeAllTimeout, helapsed]
  simp [TimeWheel.tickTimes]

/-- The only timer is called by one of the next polls. -/
theorem exists_polls {x : Int} {left : Nat} {s : LogSite D} (hlive : s.player.crashed = false)
    {last : Nat} (hlone : TimeWheel.Lone x left s.player.timeWheel)
    (hclock : TimeWheel.SameInt s.player.timeWheel.starttime last) :
    ∃ (polls : List Nat) (w : TimeWheel Int), w.Vacant ∧ w.curslot < w.nslots ∧
      (∃ last', TimeWheel.SameInt w.starttime last') ∧
      (polls.map Op.poll).foldl LogSite.step s =
        ({ s with player := { s.player with timeWheel := w } } : LogSite D).play x := by
  induction left generalizing s last with
  | zero =>
      obtain ⟨⟨t, hfn, hcalled⟩, hvacant⟩ := hlone.tick_last
      have htake := takeAllTimeout_next hclock
      refine ⟨[last + 1], { s.player.timeWheel.tick.1 with
        starttime := TimeWheel.keptReading (last + 1) }, hvacant,
        Nat.mod_lt _ (Nat.zero_lt_of_lt hlone.turning),
        ⟨last + 1, TimeWheel.sameInt_keptReading (last + 1)⟩, ?_⟩
      subst hfn
      have hstep := step_poll_call hlive (last + 1) (t := t) (by rw [htake, hcalled])
      rw [htake] at hstep
      exact hstep
  | succ left ih =>
      obtain ⟨hcalled, hnext⟩ := hlone.tick
      have htake := takeAllTimeout_next hclock
      have hstep := step_poll_silent hlive (last + 1) (by rw [htake, hcalled])
      rw [htake] at hstep
      obtain ⟨polls, w, hvacant, hcur, hclock', hpolls⟩ := ih
        (s := { s with player := { s.player with timeWheel := { s.player.timeWheel.tick.1 with
          starttime := TimeWheel.keptReading (last + 1) } } }) hlive
        ⟨hnext.turning, hnext.only⟩ (TimeWheel.sameInt_keptReading (last + 1))
      refine ⟨(last + 1) :: polls, w, hvacant, hcur, hclock', ?_⟩
      rw [List.map_cons, List.foldl_cons, hstep, hpolls]

/-- A failure sets a timer if the counter of the position does not exceed the limit. -/
theorem retryLater_of_le {p : LogPlayer D} {y : Int} {pos : Nat}
    (hpos : pos < (p.retryTable y).length)
    (hle : LogPlayer.increment ((p.retryTable y)[pos]?.getD 0) ≤ p.config.maxRetryTime) :
    ∃ retryTable timeout, p.retryLater y pos =
      { p with retryTable, timeWheel := (p.timeWheel.addTimer timeout y).1 } := by
  refine ⟨Function.update p.retryTable y ((p.retryTable y).set pos
      (LogPlayer.increment ((p.retryTable y)[pos]?.getD 0))),
    LogPlayer.timeout p.config.farTimeout
      (LogPlayer.increment ((p.retryTable y)[pos]?.getD 0)), ?_⟩
  rw [LogPlayer.retryLater, Int.toNat_natCast, if_pos ⟨Int.natCast_nonneg pos, hpos⟩]
  dsimp only
  rw [if_neg (Int.not_lt.2 hle)]

end Overflow

/-- The limit is the largest `int`. -/
def intMaxRetries : LpConfig := ⟨2147483647, fun _ => 0⟩

/-- One server is connected, and transaction `7` is played. -/
def oneServer : List (Op Unit) := [.connect ()] ++ [.log 7 [⟨"k", "a", "1"⟩]]

/-- The server has failed transaction `7` `k` times and was sent it once more. -/
structure Owed (k : Nat) (l : List (Op Unit)) (s : LogSite Unit) : Prop where
  answers : s.player.answerTable 7 = some [0]
  made : plays 7 s.player.out = k + 1
  sent : sends 7 0 s.player.out = k + 1
  failed : replies 7 0 l = k
  vacant : s.player.timeWheel.Vacant
  clock : ∃ last, TimeWheel.SameInt s.player.timeWheel.starttime last

theorem owed_oneServer : Owed 0 oneServer (run intMaxRetries 0 oneServer) where
  answers := by decide
  made := by decide
  sent := by decide
  failed := by decide
  vacant := fun _ => rfl
  clock := ⟨0, rfl⟩

/-- The log is sent to the server again. -/
theorem owed_play {k : Nat} {l : List (Op Unit)} {s : LogSite Unit} (hrange : s.player.InRange)
    (hanswers : s.player.answerTable 7 = some [0]) (hplays : plays 7 s.player.out = k)
    (hsends : sends 7 0 s.player.out = k) (hreplies : replies 7 0 l = k)
    (hvacant : s.player.timeWheel.Vacant)
    (hclock : ∃ last, TimeWheel.SameInt s.player.timeWheel.starttime last) :
    Owed k l (s.play 7) := by
  have hlist : s.player.unanswered 7 = [0] := by simp [LogPlayer.unanswered, hanswers]
  have hsent := sends_playEvents_pos (s := s) hrange (hlist ▸ List.mem_singleton_self 0)
  have honce := sends_playEvents_le (x := 7) (s := s) (fun _ => hlist ▸ List.nodup_singleton 0) 0
  rw [if_pos rfl] at honce
  rw [play_eq hrange, LogPlayer.enroll_of_some hanswers]
  refine ⟨hanswers, ?_, ?_, hreplies, hvacant, hclock⟩
  · dsimp only
    rw [plays_append, plays_playEvents, if_pos rfl, hplays]
  · dsimp only
    rw [sends_append, hsends]
    omega

/-- The server fails once more, and the timer that is set sends the log again. No counter is above
the limit. -/
theorem Owed.next {k : Nat} {l : List (Op Unit)} (hl : Each (InTurn intMaxRetries 0) l)
    (h : Owed k l (run intMaxRetries 0 l)) :
    ∃ polls : List Nat, Owed (k + 1) (l ++ [.reply ⟨kExecTranFail, 7, 0⟩] ++ polls.map .poll)
      (run intMaxRetries 0 (l ++ [.reply ⟨kExecTranFail, 7, 0⟩] ++ polls.map .poll)) := by
  obtain ⟨hexact, hwatched⟩ := watched_run hl 7
  obtain ⟨last, hclock⟩ := h.clock
  have hrun : ∀ polls : List Nat, run intMaxRetries 0
      (l ++ [.reply ⟨kExecTranFail, 7, 0⟩] ++ polls.map .poll) =
        (polls.map Op.poll).foldl LogSite.step
          ((run intMaxRetries 0 l).step (.reply ⟨kExecTranFail, 7, 0⟩)) := by
    intro polls
    simp [run]
  generalize run intMaxRetries 0 l = s at *
  have hsmall := LogPlayer.counter_le_intMax (failures 7 0 l + 1)
  obtain ⟨retryTable, timeout, hfail⟩ := retryLater_of_le (p := s.player) (y := 7)
    (hwatched.sent 0 (by rw [h.sent]; omega))
    (by rw [hwatched.counted, LogPlayer.increment_counter, hwatched.limit]; exact hsmall)
  have hstep : s.step (.reply ⟨kExecTranFail, 7, 0⟩) = { s with player := { s.player with
      retryTable, timeWheel := (s.player.timeWheel.addTimer timeout 7).1 } } := by
    rw [← hfail, LogSite.step, if_neg (by simp [hexact.live])]
    rfl
  obtain ⟨polls, w, hvacant, -, hclock', hpolls⟩ := exists_polls
    (s := { s with player := { s.player with
      retryTable, timeWheel := (s.player.timeWheel.addTimer timeout 7).1 } }) hexact.live
    (h.vacant.addTimer hwatched.turning timeout 7) hclock
  refine ⟨polls, ?_⟩
  rw [hrun, hstep, hpolls]
  refine owed_play hwatched.inRange h.answers h.made h.sent ?_ hvacant hclock'
  have hnone : replies 7 0 (polls.map Op.poll : List (Op Unit)) = 0 := by
    simp [replies, isReply]
  have hone : replies 7 0 [(.reply ⟨kExecTranFail, 7, 0⟩ : Op Unit)] = 1 := rfl
  have hold := h.failed
  simp only [replies, List.countP_append] at hnone hone hold ⊢
  omega

/-- A poll is not a reply. -/
theorem each_polls {l : List (Op Unit)} (hl : Each (InTurn intMaxRetries 0) l)
    (polls : List Nat) : Each (InTurn intMaxRetries 0) (l ++ polls.map .poll) := by
  refine (each_append _ _ _).2 ⟨hl, eachFrom_of_forall fun pre op post heq => ?_⟩
  have hmem : op ∈ polls.map (Op.poll : Nat → Op Unit) := heq ▸ by simp
  obtain ⟨now, -, rfl⟩ := List.mem_map.1 hmem
  trivial

theorem exists_owed (k : Nat) :
    ∃ post : List (Op Unit), post.countP (isLogOf 7) = 0 ∧
      Each (InTurn intMaxRetries 0) (oneServer ++ post) ∧
        Owed k (oneServer ++ post) (run intMaxRetries 0 (oneServer ++ post)) := by
  induction k with
  | zero => exact ⟨[], rfl, by decide, owed_oneServer⟩
  | succ k ih =>
      obtain ⟨post, hnone, hturn, howed⟩ := ih
      obtain ⟨polls, hnext⟩ := howed.next hturn
      refine ⟨post ++ [.reply ⟨kExecTranFail, 7, 0⟩] ++ polls.map .poll, ?_, ?_, ?_⟩
      · have hpolls : (polls.map (Op.poll : Nat → Op Unit)).countP (isLogOf 7) = 0 := by
          simp [isLogOf]
        rw [List.countP_append, List.countP_append, hnone, hpolls]
        rfl
      · rw [← List.append_assoc, ← List.append_assoc]
        have hlast : InTurn intMaxRetries 0 (oneServer ++ post) (.reply ⟨kExecTranFail, 7, 0⟩) := by
          intro _
          refine ⟨Int.le_refl 0, ?_⟩
          change replies 7 0 (oneServer ++ post) <
            sends 7 0 (run intMaxRetries 0 (oneServer ++ post)).player.out
          rw [howed.failed, howed.sent]
          exact Nat.lt_succ_self k
        exact each_polls ((each_concat _ _ _).2 ⟨hturn, hlast⟩) polls
      · rw [← List.append_assoc, ← List.append_assoc]
        exact hnext

/-- With the largest limit, one server that fails every log is sent it more often than
`1 + lpMaxRetryTime` times. -/
theorem not_bounded_intMaxRetries :
    ∃ post : List (Op Unit), post.countP (isLogOf 7) = 0 ∧
      Each (InTurn intMaxRetries 0) ([.connect ()] ++ .log 7 [⟨"k", "a", "1"⟩] :: post) ∧
      (run intMaxRetries 0 [.connect ()]).player.dbConnVec.length = 1 ∧
      ¬Bounded 2147483647 7 1
        (run intMaxRetries 0 ([.connect ()] ++ .log 7 [⟨"k", "a", "1"⟩] :: post)) := by
  obtain ⟨post, hnone, hturn, howed⟩ := exists_owed 2147483648
  refine ⟨post, hnone, hturn, rfl, fun hbounded => ?_⟩
  have hplays := hbounded.plays
  have hmore := howed.made
  rw [show oneServer ++ post = [.connect ()] ++ .log 7 [⟨"k", "a", "1"⟩] :: post from rfl] at hmore
  omega

end LogSite

end Grit
