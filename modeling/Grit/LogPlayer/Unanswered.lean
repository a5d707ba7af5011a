import Grit.LogPlayer.Replay

/-!
# The positions that have yet to answer

The list that the log player keeps for a transaction has the positions that were connected when
it was first played, without those that have reported its success. Connections that come later
do not change it. The storage servers only reply for what they were sent.
-/

namespace Grit

open Cmd History

namespace LogSite

variable {D : Type*}

/-- The position reports the success of `x`. -/
def isAck (x : Int) (pos : Nat) : Op D → Bool
  | .reply data => data.cmd = kExecTranSucc ∧ data.txid = x ∧ data.id = pos
  | _ => false

def acked (x : Int) (pos : Nat) (l : List (Op D)) : Bool := l.any (isAck x pos)

/-- The log of `x` has been sent to the position `id`. -/
def sentTo (x id : Int) (s : LogSite D) : Bool :=
  s.player.out.any fun e =>
    match e with
    | .send pos _ msg => msg.txid = x ∧ (pos : Int) = id
    | _ => false

/-- A reply comes from a server that the transaction was sent to. -/
def FromServer (s : LogSite D) : Op D → Prop
  | .reply data => data.cmd = kExecTranSucc ∨ data.cmd = kExecTranFail →
      s.sentTo data.txid data.id = true
  | _ => True

instance (s : LogSite D) (op : Op D) : Decidable (s.FromServer op) :=
  match op with
  | .reply data => inferInstanceAs (Decidable (data.cmd = kExecTranSucc ∨
      data.cmd = kExecTranFail → s.sentTo data.txid data.id = true))
  | .connect _ => inferInstanceAs (Decidable True)
  | .log _ _ => inferInstanceAs (Decidable True)
  | .poll _ => inferInstanceAs (Decidable True)

/-- There were `n` connections when `x` was first played. -/
def FirstPlayed (config : LpConfig) (reading : Nat) (x : Int) (n : Nat) (l : List (Op D)) : Prop :=
  ∃ pre op post, l = pre ++ op :: post ∧
    x ∉ played (run config reading pre).player.out ∧
    x ∈ played (run config reading (pre ++ [op])).player.out ∧
    (run config reading pre).player.dbConnVec.length = n

/-- A play of `y` that sends its log to the positions of its list. -/
def block (s : LogSite D) (y : Int) : List (LogPlayerEvent D) :=
  .playLog y :: s.player.sendsTo
    (createDbMsg y (some ((s.logTable y).map LogPlayer.encodeLog)))
    ((s.player.answerTable y).getD [])

/-- From `s` to `s'` a success is taken, or transactions are played, each to the positions of its
list. -/
def PlaysOpen (s s' : LogSite D) : Prop :=
  (∃ x conn, s'.player.out = s.player.out ++ [.answered x conn]) ∨
    ∃ ys : List Int, s'.player.out = s.player.out ++ ys.flatMap s'.block

/-- After the operations `l`: a transaction that was not played has no entries, one that was has
its exact list, and only transactions that were played are sent, answered or retried. -/
structure Exact (config : LpConfig) (reading : Nat) (l : List (Op D)) (s : LogSite D) : Prop where
  live : s.player.crashed = false
  inRange : s.player.InRange
  unplayed : ∀ x, x ∉ played s.player.out →
    s.player.answerTable x = none ∧ s.player.retryTable x = []
  lists : ∀ x ∈ played s.player.out, ∃ n, FirstPlayed config reading x n l ∧
    (s.player.retryTable x).length = n ∧
    s.player.answerTable x = some ((List.range n).filter fun pos => !acked x pos l)
  sent : ∀ pos conn msg, .send pos conn msg ∈ s.player.out →
    pos < (s.player.retryTable msg.txid).length
  acks : ∀ x pos, acked x pos l = true → x ∈ played s.player.out
  timers : ∀ x, s.player.timeWheel.Pending x → x ∈ played s.player.out

variable {config : LpConfig} {reading : Nat} {l : List (Op D)} {s : LogSite D}

theorem acked_concat (x : Int) (pos : Nat) (l : List (Op D)) (op : Op D) :
    acked x pos (l ++ [op]) = (acked x pos l || isAck x pos op) := by
  simp [acked]

theorem FirstPlayed.concat {x : Int} {n : Nat} (h : FirstPlayed config reading x n l)
    (op : Op D) : FirstPlayed config reading x n (l ++ [op]) := by
  obtain ⟨pre, op', post, rfl, hnot, hplayed, hn⟩ := h
  exact ⟨pre, op', post ++ [op], by simp, hnot, hplayed, hn⟩

theorem exact_init (config : LpConfig) (reading : Nat) :
    Exact config reading [] (init config reading : LogSite D) where
  live := rfl
  inRange := inRange_init config reading
  unplayed := fun _ _ => ⟨rfl, rfl⟩
  lists := by simp [init, LogPlayer.init, played]
  sent := by simp [init, LogPlayer.init]
  acks := by simp [acked]
  timers := by
    rintro x ⟨i, t, ht, -⟩
    simp [init, LogPlayer.init, TimeWheel.init] at ht

/-- An operation that reports no success and changes nothing. -/
theorem Exact.concat (h : Exact config reading l s) {op : Op D}
    (hop : ∀ x pos, isAck x pos op = false) : Exact config reading (l ++ [op]) s := by
  have hacked : ∀ x pos, acked x pos (l ++ [op]) = acked x pos l := by
    intro x pos
    rw [acked_concat, hop, Bool.or_false]
  refine ⟨h.live, h.inRange, h.unplayed, ?_, h.sent, ?_, h.timers⟩
  · intro x hx
    obtain ⟨n, hfirst, hlength, hlist⟩ := h.lists x hx
    refine ⟨n, hfirst.concat op, hlength, ?_⟩
    simp only [hacked]
    exact hlist
  · intro x pos hack
    rw [hacked] at hack
    exact h.acks x pos hack

/-- A position that was sent the log has a retry counter, and the transaction was played. -/
theorem Exact.of_sentTo (h : Exact config reading l s) {x id : Int}
    (hsent : s.sentTo x id = true) :
    x ∈ played s.player.out ∧ 0 ≤ id ∧ id.toNat < (s.player.retryTable x).length := by
  obtain ⟨e, he, hmatch⟩ := List.any_eq_true.1 hsent
  cases e with
  | playLog y => simp at hmatch
  | answered y conn => simp at hmatch
  | send pos conn msg =>
      obtain ⟨rfl, rfl⟩ : msg.txid = x ∧ (pos : Int) = id := by simpa using hmatch
      have hlt := h.sent pos conn msg he
      refine ⟨?_, Int.natCast_nonneg pos, hlt⟩
      by_contra hnot
      rw [(h.unplayed _ hnot).2] at hlt
      exact absurd hlt (Nat.not_lt_zero pos)

/-! ### Plays -/

/-- The events are appended to the output. -/
def record (es : List (LogPlayerEvent D)) (s : LogSite D) : LogSite D :=
  { s with player := { s.player with out := s.player.out ++ es } }

theorem played_block (s : LogSite D) (y : Int) : played (s.block y) = [y] :=
  played_play y _ _ _

theorem send_of_mem_block {y : Int} {pos : Nat} {conn : D} {msg : DbMsg}
    (h : .send pos conn msg ∈ s.block y) :
    msg.txid = y ∧ pos ∈ (s.player.answerTable y).getD [] := by
  obtain ⟨hpos, -, rfl⟩ := LogPlayer.of_send_mem_play h
  exact ⟨rfl, hpos⟩

/-- A transaction that was played before is played again. -/
theorem Exact.play_eq_record (h : Exact config reading l s) {y : Int}
    (hy : y ∈ played s.player.out) : s.play y = s.record (s.block y) := by
  obtain ⟨n, -, -, hlist⟩ := h.lists y hy
  rw [play_eq h.inRange, LogPlayer.enroll_of_some hlist, record, playEvents, block,
    LogPlayer.unanswered, hlist]
  rfl

theorem Exact.record (h : Exact config reading l s) {y : Int}
    (hy : y ∈ played s.player.out) : Exact config reading l (s.record (s.block y)) := by
  have hplayed : ∀ x, x ∈ played (s.player.out ++ s.block y) ↔ x ∈ played s.player.out := by
    intro x
    rw [played_append, played_block, List.mem_append, List.mem_singleton]
    refine ⟨fun hx => ?_, Or.inl⟩
    rcases hx with hx | rfl
    · exact hx
    · exact hy
  refine ⟨h.live, h.inRange, ?_, ?_, ?_, ?_, ?_⟩
  · intro x hx
    exact h.unplayed x fun hold => hx ((hplayed x).2 hold)
  · intro x hx
    exact h.lists x ((hplayed x).1 hx)
  · intro pos conn msg hsend
    rcases List.mem_append.1 hsend with hsend | hsend
    · exact h.sent pos conn msg hsend
    · obtain ⟨rfl, hpos⟩ := send_of_mem_block hsend
      obtain ⟨n, -, hlength, hlist⟩ := h.lists _ hy
      rw [hlist, Option.getD_some] at hpos
      have hlt := List.mem_range.1 (List.mem_of_mem_filter hpos)
      change pos < (s.player.retryTable _).length
      omega
  · intro x pos hack
    exact (hplayed x).2 (h.acks x pos hack)
  · intro x hx
    exact (hplayed x).2 (h.timers x hx)

/-- A transaction is played for the first time. -/
theorem Exact.first (h : Exact config reading l s) {x : Int}
    (hx : x ∉ played s.player.out)
    (hfirst : FirstPlayed config reading x s.player.dbConnVec.length l) :
    Exact config reading l (s.play x) := by
  obtain ⟨hnone, hretry⟩ := h.unplayed x hx
  rw [play_eq h.inRange]
  have hopen : s.player.unanswered x = List.range s.player.dbConnVec.length := by
    rw [LogPlayer.unanswered, hnone, Option.getD_none]
  have hlength : ((s.player.enroll x).retryTable x).length = s.player.dbConnVec.length := by
    simp [LogPlayer.enroll, hnone]
  have hnoack : ∀ pos, acked x pos l = false := by
    intro pos
    rw [Bool.eq_false_iff]
    exact fun hack => hx (h.acks x pos hack)
  have hplayed : ∀ y, y ∈ played (s.player.out ++ s.playEvents x) ↔
      y ∈ played s.player.out ∨ y = x := by
    intro y
    rw [played_append, played_playEvents, List.mem_append, List.mem_singleton]
  refine ⟨(LogPlayer.enroll_crashed x s.player).trans h.live, h.inRange.enroll x, ?_, ?_, ?_, ?_,
    ?_⟩
  · intro y hy
    rw [hplayed] at hy
    have hne : y ≠ x := fun heq => hy (Or.inr heq)
    have hold := h.unplayed y fun hmem => hy (Or.inl hmem)
    exact ⟨(LogPlayer.enroll_of_ne hne _).trans hold.1,
      (LogPlayer.enroll_retryTable_of_ne hne _).trans hold.2⟩
  · intro y hy
    by_cases hne : y = x
    · subst hne
      refine ⟨_, hfirst, hlength, ?_⟩
      change (s.player.enroll y).answerTable y = _
      rw [LogPlayer.enroll_self, hopen]
      simp [hnoack]
    · obtain ⟨n, hn, hlen, hlist⟩ := h.lists y (((hplayed y).1 hy).resolve_right hne)
      exact ⟨n, hn, (congrArg List.length (LogPlayer.enroll_retryTable_of_ne hne _)).trans hlen,
        (LogPlayer.enroll_of_ne hne _).trans hlist⟩
  · intro pos conn msg hsend
    change pos < ((s.player.enroll x).retryTable msg.txid).length
    rcases List.mem_append.1 hsend with hsend | hsend
    · have hlt := h.sent pos conn msg hsend
      have hne : msg.txid ≠ x := by
        intro heq
        rw [heq, hretry] at hlt
        exact absurd hlt (Nat.not_lt_zero pos)
      rw [LogPlayer.enroll_retryTable_of_ne hne]
      exact hlt
    · obtain ⟨hpos, -, rfl⟩ := LogPlayer.of_send_mem_play hsend
      rw [hopen, List.mem_range] at hpos
      exact hlength.symm ▸ hpos
  · intro y pos hack
    exact (hplayed y).2 (Or.inl (h.acks y pos hack))
  · intro y hy
    refine (hplayed y).2 (Or.inl (h.timers y ?_))
    rwa [← LogPlayer.enroll_timeWheel x]

/-! ### Polls -/

theorem record_record (es es' : List (LogPlayerEvent D)) :
    (s.record es).record es' = s.record (es ++ es') := by
  simp [LogSite.record]

/-- The callbacks of timers of transactions that were played. -/
theorem Exact.retryAll (h : Exact config reading l s) {called : List (Timer Int)}
    (hcalled : ∀ t ∈ called, t.fn ∈ played s.player.out) :
    ({ s with player := s.player.retryAll s.logTable called } : LogSite D) =
        s.record ((called.map Timer.fn).flatMap s.block) ∧
      Exact config reading l (s.record ((called.map Timer.fn).flatMap s.block)) := by
  induction called generalizing s with
  | nil =>
      have hnil : s.record [] = s := by simp [LogSite.record]
      exact ⟨hnil.symm, hnil.symm ▸ h⟩
  | cons t called ih =>
      have ht := hcalled t List.mem_cons_self
      have hplay := h.play_eq_record ht
      have hrest : ∀ u ∈ called, u.fn ∈ played (s.record (s.block t.fn)).player.out := by
        intro u hu
        change u.fn ∈ played (s.player.out ++ _)
        rw [played_append]
        exact List.mem_append_left _ (hcalled u (List.mem_cons_of_mem _ hu))
      obtain ⟨heq, hexact⟩ := ih (h.record ht) hrest
      rw [record_record] at heq hexact
      refine ⟨?_, hexact⟩
      rw [LogPlayer.retryAll, if_neg (by simp [h.live])]
      have hplayer : s.player.playLog (s.logTable t.fn) t.fn =
          (s.record (s.block t.fn)).player := congrArg LogSite.player hplay
      rw [hplayer]
      exact heq

theorem Exact.poll (h : Exact config reading l s) (now : Nat) :
    Exact config reading l { s with player := s.player.poll s.logTable now } ∧
      PlaysOpen s { s with player := s.player.poll s.logTable now } := by
  obtain ⟨hkept, hcalled⟩ := TimeWheel.pending_of_tickTimes (w := s.player.timeWheel)
    (k := (TimeWheel.elapsed now s.player.timeWheel.starttime).toNat)
  have hwheel : Exact config reading l ({ s with player := { s.player with
      timeWheel := (s.player.timeWheel.takeAllTimeout now).1 } } : LogSite D) :=
    ⟨h.live, h.inRange, h.unplayed, h.lists, h.sent, h.acks, fun x hx => h.timers x (hkept x hx)⟩
  obtain ⟨heq, hexact⟩ := hwheel.retryAll fun t ht => h.timers t.fn (hcalled t ht)
  have heq' : ({ s with player := s.player.poll s.logTable now } : LogSite D) = _ := heq
  rw [heq']
  exact ⟨hexact, Or.inr ⟨_, rfl⟩⟩

/-! ### Replies -/

theorem Exact.answer (h : Exact config reading l s) {data : LogPlayerMsg}
    (hcmd : data.cmd = kExecTranSucc) (hsent : s.sentTo data.txid data.id = true) :
    Exact config reading (l ++ [.reply data])
      { s with player := s.player.answer data.txid data.id } := by
  obtain ⟨hx, -, -⟩ := h.of_sentTo hsent
  have hplayed : played (s.player.out ++ [.answered data.txid (s.player.connAt data.id)]) =
      played s.player.out := by
    rw [played_append]
    exact List.append_nil _
  have hack : ∀ x pos,
      isAck x pos (.reply data : Op D) = decide (data.txid = x ∧ data.id = pos) := by
    intro x pos
    simp [isAck, hcmd]
  refine ⟨h.live, h.inRange.answer data.txid data.id, ?_, ?_, ?_, ?_, ?_⟩
  · intro x hnot
    change x ∉ played (s.player.out ++ _) at hnot
    rw [hplayed] at hnot
    have hne : x ≠ data.txid := fun heq => hnot (heq ▸ hx)
    obtain ⟨hnone, hretry⟩ := h.unplayed x hnot
    exact ⟨(Function.update_of_ne hne _ _).trans hnone, hretry⟩
  · intro x hmem
    change x ∈ played (s.player.out ++ _) at hmem
    rw [hplayed] at hmem
    obtain ⟨n, hfirst, hlength, hlist⟩ := h.lists x hmem
    refine ⟨n, hfirst.concat _, hlength, ?_⟩
    change Function.update s.player.answerTable data.txid _ x = _
    simp only [acked_concat, hack]
    by_cases hne : x = data.txid
    · subst hne
      rw [Function.update_self, hlist, Option.getD_some, List.filter_filter]
      refine congrArg some (List.filter_congr fun pos _ => ?_)
      by_cases hid : data.id = pos
      · simp [hid]
      · simp [hid, Ne.symm hid]
    · rw [Function.update_of_ne hne, hlist]
      simp [Ne.symm hne]
  · intro pos conn msg hsend
    exact h.sent pos conn msg (by simpa [LogPlayer.answer, LogPlayer.emit] using hsend)
  · intro x pos hacked
    change x ∈ played (s.player.out ++ _)
    rw [hplayed]
    rw [acked_concat, hack, Bool.or_eq_true, decide_eq_true_eq] at hacked
    rcases hacked with hacked | ⟨rfl, -⟩
    · exact h.acks x pos hacked
    · exact hx
  · intro x htimer
    change x ∈ played (s.player.out ++ _)
    rw [hplayed]
    exact h.timers x htimer

/-- A failure of a position that has a retry counter does not end the process. -/
theorem crashed_retryLater {x id : Int} {p : LogPlayer D}
    (h : 0 ≤ id ∧ id.toNat < (p.retryTable x).length) :
    (p.retryLater x id).crashed = p.crashed := by
  rw [LogPlayer.retryLater, if_pos h]
  dsimp only
  split
  · rfl
  · rfl

theorem Exact.retryLater (h : Exact config reading l s) {x id : Int}
    (hsent : s.sentTo x id = true) :
    Exact config reading l { s with player := s.player.retryLater x id } := by
  obtain ⟨hx, hid⟩ := h.of_sentTo hsent
  have hlive := (crashed_retryLater hid).trans h.live
  obtain ⟨retryTable, timeWheel, crashed, heq, hlength, htimer⟩ :=
    LogPlayer.retryLater_eq x id s.player
  rw [heq] at hlive ⊢
  refine ⟨hlive, h.inRange, ?_, ?_, ?_, h.acks, ?_⟩
  · intro y hy
    obtain ⟨hnone, hretry⟩ := h.unplayed y hy
    refine ⟨hnone, List.eq_nil_of_length_eq_zero ?_⟩
    rw [hlength, hretry]
    rfl
  · intro y hy
    obtain ⟨n, hfirst, hlen, hlist⟩ := h.lists y hy
    exact ⟨n, hfirst, (hlength y).trans hlen, hlist⟩
  · intro pos conn msg hsend
    exact (hlength msg.txid).symm ▸ h.sent pos conn msg hsend
  · intro y hy
    rcases htimer with rfl | ⟨-, timeout, rfl⟩
    · exact h.timers y hy
    · rcases TimeWheel.pending_of_addTimer hy with hy | rfl
      · exact h.timers y hy
      · exact hx

theorem onMessage_of_success {data : LogPlayerMsg} (h : data.cmd = kExecTranSucc)
    (p : LogPlayer D) : p.onMessage data = p.answer data.txid data.id := by
  simp only [LogPlayer.onMessage, LogPlayer.solve, h]

theorem Exact.reply (h : Exact config reading l s) {data : LogPlayerMsg}
    (hdata : s.FromServer (.reply data)) :
    Exact config reading (l ++ [.reply data])
        { s with player := s.player.onMessage data } ∧
      PlaysOpen s { s with player := s.player.onMessage data } := by
  by_cases hsucc : data.cmd = kExecTranSucc
  · rw [onMessage_of_success hsucc]
    exact ⟨h.answer hsucc (hdata (Or.inl hsucc)), Or.inl ⟨_, _, rfl⟩⟩
  have hconcat : Exact config reading (l ++ [.reply data]) s :=
    h.concat fun x pos => by simp [isAck, hsucc]
  rcases LogPlayer.onMessage_cases data s.player with ⟨hcmd, -⟩ | ⟨hcmd, heq⟩ | heq
  · exact absurd hcmd hsucc
  · obtain ⟨_, _, _, hretry, -⟩ := LogPlayer.retryLater_eq data.txid data.id s.player
    rw [heq]
    exact ⟨hconcat.retryLater (hdata (Or.inr hcmd)), Or.inr ⟨[], by simp [hretry]⟩⟩
  · rw [heq]
    exact ⟨hconcat, Or.inr ⟨[], by simp⟩⟩

/-! ### Runs -/

theorem Exact.connect (h : Exact config reading l s) (conn : D) :
    Exact config reading (l ++ [.connect conn])
      { s with player := s.player.onDbConnection conn } := by
  have hconcat : Exact config reading (l ++ [.connect conn]) s := h.concat fun _ _ => rfl
  exact ⟨h.live, h.inRange.onDbConnection conn, h.unplayed, hconcat.lists, h.sent, hconcat.acks,
    h.timers⟩

/-- The first play of a transaction, or another one. -/
theorem Exact.log (h : Exact config reading l (run config reading l)) (x : Int)
    (logs : List LogInfo) :
    Exact config reading (l ++ [.log x logs])
        (run config reading (l ++ [.log x logs])) ∧
      PlaysOpen (run config reading l) (run config reading (l ++ [.log x logs])) := by
  have hrun : run config reading (l ++ [.log x logs]) =
      ((run config reading l).addLogs x logs).play x := by
    rw [run_concat, step, if_neg (by simp [h.live])]
  have hconcat : Exact config reading (l ++ [.log x logs]) (run config reading l) :=
    h.concat fun _ _ => rfl
  have hadd : Exact config reading (l ++ [.log x logs])
      ((run config reading l).addLogs x logs) :=
    ⟨h.live, h.inRange, h.unplayed, hconcat.lists, h.sent, hconcat.acks, h.timers⟩
  by_cases hx : x ∈ played (run config reading l).player.out
  · rw [hrun, hadd.play_eq_record hx]
    exact ⟨hadd.record hx, Or.inr ⟨[x], by simp; rfl⟩⟩
  · have hplay := play_eq hadd.inRange x
    have hfirst : FirstPlayed config reading x
        ((run config reading l).addLogs x logs).player.dbConnVec.length
        (l ++ [.log x logs]) := by
      refine ⟨l, _, [], rfl, hx, ?_, rfl⟩
      rw [hrun, hplay]
      change x ∈ played (_ ++ _)
      rw [played_append, played_playEvents]
      exact List.mem_append_right _ (List.mem_singleton_self x)
    refine ⟨hrun ▸ hadd.first hx hfirst, Or.inr ⟨[x], ?_⟩⟩
    rw [hrun, hplay]
    simp [block, playEvents, LogPlayer.enroll_self, LogPlayer.sendsTo]
    rfl

theorem Exact.step (h : Exact config reading l (run config reading l)) {op : Op D}
    (hop : (run config reading l).FromServer op) :
    Exact config reading (l ++ [op]) (run config reading (l ++ [op])) ∧
      PlaysOpen (run config reading l) (run config reading (l ++ [op])) := by
  cases op with
  | log x logs => exact h.log x logs
  | connect conn =>
      rw [run_concat, LogSite.step, if_neg (by simp [h.live])]
      exact ⟨h.connect conn, Or.inr ⟨[], by simp; rfl⟩⟩
  | reply data =>
      rw [run_concat, LogSite.step, if_neg (by simp [h.live])]
      exact h.reply hop
  | poll now =>
      rw [run_concat, LogSite.step, if_neg (by simp [h.live])]
      obtain ⟨hexact, hplays⟩ := h.poll now
      exact ⟨hexact.concat fun _ _ => rfl, hplays⟩

end LogSite

end Grit
