import Grit.LogPlayer.Retries
import Grit.LogPlayer.Unanswered

/-!
# No server is forgotten

The retries are counted for each position, but a timer plays its transaction for all positions
that have yet to answer. As long as a position has retries left, it owes a reply to a log that was
sent to it, or a timer of the transaction is pending. So when nothing is under way any more,
every position has reported the success or has used up its retries.
-/

namespace Grit

open Cmd History

namespace LogSite

variable {D : Type*}

/-- The position replies for `x`. -/
def isReply (x : Int) (pos : Nat) : Op D → Bool
  | .reply data =>
      (data.cmd = kExecTranSucc ∨ data.cmd = kExecTranFail) ∧ data.txid = x ∧ data.id = pos
  | _ => false

/-- The position reports a failure of `x`. -/
def isFailure (x : Int) (pos : Nat) : Op D → Bool
  | .reply data => data.cmd = kExecTranFail ∧ data.txid = x ∧ data.id = pos
  | _ => false

def replies (x : Int) (pos : Nat) (l : List (Op D)) : Nat := l.countP (isReply x pos)

def failures (x : Int) (pos : Nat) (l : List (Op D)) : Nat := l.countP (isFailure x pos)

/-- A server replies to what it was sent, once to each log at most. -/
def InTurn (config : LpConfig) (reading : Nat) (pre : List (Op D)) : Op D → Prop
  | .reply data => data.cmd = kExecTranSucc ∨ data.cmd = kExecTranFail →
      0 ≤ data.id ∧ replies data.txid data.id.toNat pre <
        sends data.txid data.id.toNat (run config reading pre).player.out
  | _ => True

instance (config : LpConfig) (reading : Nat) (pre : List (Op D)) (op : Op D) :
    Decidable (InTurn config reading pre op) :=
  match op with
  | .reply data => inferInstanceAs (Decidable (data.cmd = kExecTranSucc ∨
      data.cmd = kExecTranFail → 0 ≤ data.id ∧ replies data.txid data.id.toNat pre <
        sends data.txid data.id.toNat (run config reading pre).player.out))
  | .connect _ => inferInstanceAs (Decidable True)
  | .log _ _ => inferInstanceAs (Decidable True)
  | .poll _ => inferInstanceAs (Decidable True)

/-- After the operations `l`, while `due` callbacks of timers of `x` are still to run. -/
structure Watched (config : LpConfig) (x : Int) (l : List (Op D)) (due : Nat)
    (s : LogSite D) : Prop where
  inRange : s.player.InRange
  turning : s.player.timeWheel.curslot < s.player.timeWheel.nslots
  limit : s.player.config = config
  unenrolled : s.player.answerTable x = none → ∀ pos, sends x pos s.player.out = 0
  listed : ∀ lst, s.player.answerTable x = some lst →
    ∀ pos ∈ lst, pos < (s.player.retryTable x).length
  sent : ∀ pos, 0 < sends x pos s.player.out → pos < (s.player.retryTable x).length
  answered : ∀ pos, replies x pos l ≤ sends x pos s.player.out
  counted : ∀ pos, (s.player.retryTable x)[pos]?.getD 0 = LogPlayer.counter (failures x pos l)
  watched : ∀ lst, s.player.answerTable x = some lst → ∀ pos ∈ lst,
    (failures x pos l : Int) ≤ config.maxRetryTime →
      0 < s.player.timeWheel.pending x + due ∨ failures x pos l < sends x pos s.player.out

variable {config : LpConfig} {reading : Nat} {l : List (Op D)} {s : LogSite D} {x : Int}
  {due : Nat}

theorem failures_le_replies (x : Int) (pos : Nat) (l : List (Op D)) :
    failures x pos l ≤ replies x pos l := by
  refine List.countP_mono_left fun op _ hop => ?_
  cases op with
  | reply data =>
      obtain ⟨hcmd, hrest⟩ := of_decide_eq_true hop
      exact decide_eq_true ⟨Or.inr hcmd, hrest⟩
  | _ => exact absurd hop (by simp [isFailure])

theorem replies_concat (x : Int) (pos : Nat) (l : List (Op D)) (op : Op D) :
    replies x pos (l ++ [op]) = replies x pos l + if isReply x pos op then 1 else 0 := by
  simp [replies, List.countP_singleton]

theorem failures_concat (x : Int) (pos : Nat) (l : List (Op D)) (op : Op D) :
    failures x pos (l ++ [op]) = failures x pos l + if isFailure x pos op then 1 else 0 := by
  simp [failures, List.countP_singleton]

theorem watched_init (x : Int) (config : LpConfig) (reading : Nat) :
    Watched config x [] 0 (init config reading : LogSite D) where
  inRange := inRange_init config reading
  turning := by
    change 0 < 60 * 100
    decide
  limit := rfl
  unenrolled := fun _ _ => rfl
  listed := by simp [init, LogPlayer.init]
  sent := fun _ h => absurd h (Nat.lt_irrefl 0)
  answered := fun _ => Nat.le_refl 0
  counted := fun _ => LogPlayer.counter_zero.symm
  watched := by simp [init, LogPlayer.init]

/-! ### Plays -/

theorem sends_playEvents_of_ne {y : Int} (hy : y ≠ x) (pos : Nat) :
    sends x pos (s.playEvents y) = 0 := by
  have hle := sends_playEvents_le (x := x) (s := s) (fun heq => absurd heq hy) pos
  rw [if_neg hy] at hle
  omega

/-- A play reaches every position that has yet to answer. -/
theorem sends_playEvents_pos (h : s.player.InRange) {pos : Nat}
    (hpos : pos ∈ s.player.unanswered x) : 0 < sends x pos (s.playEvents x) := by
  have hconn := List.getElem?_eq_getElem (LogPlayer.unanswered_lt h x pos hpos)
  refine List.countP_pos_iff.2 ⟨.send pos _ _, List.mem_cons_of_mem _
    (LogPlayer.mem_sendsTo.2 ⟨pos, hpos, _, hconn, rfl⟩), ?_⟩
  simp [isSend, createDbMsg]

theorem mem_unanswered_of_sends {pos : Nat} (h : 0 < sends x pos (s.playEvents x)) :
    pos ∈ s.player.unanswered x := by
  obtain ⟨e, he, hsend⟩ := List.countP_pos_iff.1 h
  cases e with
  | send pos' conn msg =>
      obtain ⟨-, rfl⟩ := of_decide_eq_true hsend
      exact (LogPlayer.of_send_mem_play he).1
  | _ => exact absurd hsend (by simp [isSend])

/-- The positions that have yet to answer have counters, once the transaction is played. -/
theorem Watched.lt_enroll (h : Watched config x l due s) {pos : Nat}
    (hpos : pos ∈ s.player.unanswered x) :
    pos < ((s.player.enroll x).retryTable x).length := by
  cases hl : s.player.answerTable x with
  | none =>
      simp only [LogPlayer.unanswered, hl, Option.getD_none, List.mem_range] at hpos
      simpa [LogPlayer.enroll, hl] using hpos
  | some lst =>
      rw [LogPlayer.enroll_of_some hl]
      exact h.listed lst hl pos (by simpa [LogPlayer.unanswered, hl] using hpos)

theorem Watched.counted_enroll (h : Watched config x l due s) (pos : Nat) :
    ((s.player.enroll x).retryTable x)[pos]?.getD 0 = LogPlayer.counter (failures x pos l) := by
  cases hl : s.player.answerTable x with
  | none =>
      have hsent := h.unenrolled hl pos
      have hreplies := h.answered pos
      have hfailures := failures_le_replies x pos l
      rw [show failures x pos l = 0 by omega, LogPlayer.counter_zero]
      simp only [LogPlayer.enroll, hl, Function.update_self, List.getElem?_replicate]
      split
      · rfl
      · rfl
  | some lst =>
      rw [LogPlayer.enroll_of_some hl]
      exact h.counted pos

/-- A play of `x`: every position that has yet to answer owes a reply. -/
theorem Watched.play_self (h : Watched config x l due s) (due' : Nat) :
    Watched config x l due' (s.play x) := by
  rw [play_eq h.inRange]
  have hgrow : ∀ pos, sends x pos (s.player.out ++ s.playEvents x) =
      sends x pos s.player.out + sends x pos (s.playEvents x) :=
    fun pos => sends_append x pos _ _
  have hlist : ∀ lst, (s.player.enroll x).answerTable x = some lst →
      lst = s.player.unanswered x := by
    intro lst hlst
    rw [LogPlayer.enroll_self] at hlst
    exact (Option.some.inj hlst).symm
  refine ⟨h.inRange.enroll x, ?_, (enroll_config x s.player).trans h.limit, ?_, ?_, ?_, ?_,
    h.counted_enroll, ?_⟩
  · dsimp only
    rw [LogPlayer.enroll_timeWheel]
    exact h.turning
  · intro hnone
    dsimp only at hnone
    simp [LogPlayer.enroll_self] at hnone
  · intro lst hlst pos hpos
    exact h.lt_enroll (hlist lst hlst ▸ hpos)
  · intro pos hpos
    dsimp only at hpos ⊢
    rw [hgrow] at hpos
    by_cases hnew : 0 < sends x pos (s.playEvents x)
    · exact h.lt_enroll (mem_unanswered_of_sends hnew)
    · cases hl : s.player.answerTable x with
      | none =>
          have hzero := h.unenrolled hl pos
          omega
      | some lst =>
          rw [LogPlayer.enroll_of_some hl]
          exact h.sent pos (by omega)
  · intro pos
    have hold := h.answered pos
    dsimp only
    rw [hgrow]
    omega
  · intro lst hlst pos hpos _
    have hnew := sends_playEvents_pos h.inRange (hlist lst hlst ▸ hpos)
    have hold := h.answered pos
    have hfailures := failures_le_replies x pos l
    refine Or.inr ?_
    dsimp only
    rw [hgrow]
    omega

/-- Another transaction is played. -/
theorem Watched.play_of_ne (h : Watched config x l due s) {y : Int} (hy : y ≠ x) :
    Watched config x l due (s.play y) := by
  have hne : x ≠ y := Ne.symm hy
  have hretry := LogPlayer.enroll_retryTable_of_ne hne s.player
  have hanswer := LogPlayer.enroll_of_ne hne s.player
  have hwheel := LogPlayer.enroll_timeWheel y s.player
  have hsends : ∀ pos, sends x pos (s.player.out ++ s.playEvents y) =
      sends x pos s.player.out := by
    intro pos
    rw [sends_append, sends_playEvents_of_ne hy, Nat.add_zero]
  rw [play_eq h.inRange]
  refine ⟨h.inRange.enroll y, ?_, (enroll_config y s.player).trans h.limit, ?_, ?_, ?_, ?_,
    ?_, ?_⟩
  · dsimp only
    rw [hwheel]
    exact h.turning
  · dsimp only
    simp only [hanswer, hsends]
    exact h.unenrolled
  · dsimp only
    rw [hanswer, hretry]
    exact h.listed
  · dsimp only
    simp only [hsends, hretry]
    exact h.sent
  · dsimp only
    simp only [hsends]
    exact h.answered
  · dsimp only
    rw [hretry]
    exact h.counted
  · dsimp only
    simp only [hanswer, hsends, hwheel]
    exact h.watched

/-! ### Operations -/

theorem Watched.retryAll {called : List (Timer Int)} (hlive : s.player.crashed = false)
    (h : Watched config x l (TimeWheel.calls x called) s) :
    Watched config x l 0
      ({ s with player := s.player.retryAll s.logTable called } : LogSite D) := by
  induction called generalizing s with
  | nil => exact h
  | cons t called ih =>
      have hlive' : (s.play t.fn).player.crashed = false := by
        rw [play_eq h.inRange]
        exact (LogPlayer.enroll_crashed t.fn s.player).trans hlive
      unfold LogPlayer.retryAll
      rw [if_neg (by simp [hlive])]
      by_cases ht : t.fn = x
      · subst ht
        exact ih hlive' (h.play_self _)
      · have hcalls : TimeWheel.calls x (t :: called) = TimeWheel.calls x called := by
          simp [TimeWheel.calls, ht]
        rw [hcalls] at h
        exact ih hlive' (h.play_of_ne ht)

theorem Watched.poll (h : Watched config x l 0 s) (hlive : s.player.crashed = false)
    (now : Nat) :
    Watched config x l 0 ({ s with player := s.player.poll s.logTable now } : LogSite D) := by
  obtain ⟨hcur, hpending⟩ := TimeWheel.pending_takeAllTimeout h.turning x now
  have hwheel : Watched config x l
      (TimeWheel.calls x (s.player.timeWheel.takeAllTimeout now).2)
      ({ s with player := { s.player with
        timeWheel := (s.player.timeWheel.takeAllTimeout now).1 } } : LogSite D) := by
    refine ⟨h.inRange, hcur, h.limit, h.unenrolled, h.listed, h.sent, h.answered, h.counted, ?_⟩
    intro lst hlst pos hpos hle
    rcases h.watched lst hlst pos hpos hle with hdue | howes
    · exact Or.inl (by dsimp only; omega)
    · exact Or.inr howes
  refine Watched.retryAll ?_ hwheel
  exact hlive

/-- An operation that is no reply for `x` and changes nothing that concerns it. -/
theorem Watched.concat (h : Watched config x l due s) (op : Op D)
    (hop : ∀ pos, isReply x pos op = false) : Watched config x (l ++ [op]) due s := by
  have hreplies : ∀ pos, replies x pos (l ++ [op]) = replies x pos l := by
    intro pos
    rw [replies_concat, hop]
    rfl
  have hfailures : ∀ pos, failures x pos (l ++ [op]) = failures x pos l := by
    intro pos
    have hle := failures_le_replies x pos [op]
    have hzero : replies x pos [op] = 0 := by simp [replies, hop]
    rw [failures, List.countP_append]
    exact Nat.add_eq_left.2 (by rw [hzero] at hle; exact Nat.le_zero.1 hle)
  exact ⟨h.inRange, h.turning, h.limit, h.unenrolled, h.listed, h.sent,
    fun pos => (hreplies pos).symm ▸ h.answered pos,
    fun pos => (hfailures pos).symm ▸ h.counted pos,
    fun lst hlst pos hpos => (hfailures pos).symm ▸ h.watched lst hlst pos hpos⟩

theorem isReply_of_ne {data : LogPlayerMsg} (h : data.txid ≠ x) (pos : Nat) :
    isReply x pos (.reply data : Op D) = false := by
  simp [isReply, h]

/-- The position of a reply that is in turn. -/
theorem Watched.enrolled (h : Watched config x l due s) {pos : Nat}
    (hturn : replies x pos l < sends x pos s.player.out) :
    ∃ lst, s.player.answerTable x = some lst := by
  cases hl : s.player.answerTable x with
  | none =>
      have hzero := h.unenrolled hl pos
      omega
  | some lst => exact ⟨lst, rfl⟩

theorem sends_answered (pos : Nat) (out : List (LogPlayerEvent D)) (y : Int) (conn : Option D) :
    sends x pos (out ++ [.answered y conn]) = sends x pos out := sends_append x pos out _

/-- A success: the position leaves the list. -/
theorem Watched.answer (h : Watched config x l 0 s) {data : LogPlayerMsg}
    (hcmd : data.cmd = kExecTranSucc)
    (hturn : data.txid = x → 0 ≤ data.id ∧
      replies x data.id.toNat l < sends x data.id.toNat s.player.out) :
    Watched config x (l ++ [.reply data]) 0
      ({ s with player := s.player.answer data.txid data.id } : LogSite D) := by
  by_cases hx : data.txid = x
  · obtain ⟨hid, hlt⟩ := hturn hx
    obtain ⟨lst, hlst⟩ := h.enrolled hlt
    have hfailures : ∀ pos, failures x pos (l ++ [.reply data]) = failures x pos l := by
      intro pos
      simp [failures_concat, isFailure, hcmd]
    have hleft : ∀ lst', (s.player.answer data.txid data.id).answerTable x = some lst' →
        ∀ pos ∈ lst', pos ∈ lst := by
      intro lst' hlst' pos hpos
      simp only [LogPlayer.answer, LogPlayer.emit, hx, hlst, Function.update_self,
        Option.getD_some, Option.some.injEq] at hlst'
      subst hlst'
      exact List.mem_of_mem_filter hpos
    have hsends : ∀ pos, sends x pos (s.player.answer data.txid data.id).out =
        sends x pos s.player.out := fun pos => sends_answered pos _ _ _
    refine ⟨h.inRange.answer _ _, h.turning, h.limit, ?_, ?_, ?_, ?_, ?_, ?_⟩
    · intro hnone
      simp [LogPlayer.answer, LogPlayer.emit, hx] at hnone
    · intro lst' hlst' pos hpos
      exact h.listed lst hlst pos (hleft lst' hlst' pos hpos)
    · intro pos hpos
      rw [hsends] at hpos
      exact h.sent pos hpos
    · intro pos
      rw [hsends, replies_concat]
      by_cases hreply : isReply x pos (.reply data : Op D) = true
      · obtain ⟨-, -, hpos⟩ := of_decide_eq_true hreply
        rw [hpos, Int.toNat_natCast] at hlt
        rw [if_pos hreply]
        omega
      · rw [if_neg hreply]
        exact h.answered pos
    · intro pos
      rw [hfailures]
      exact h.counted pos
    · intro lst' hlst' pos hpos
      rw [hfailures, hsends]
      exact h.watched lst hlst pos (hleft lst' hlst' pos hpos)
  · have hsame : (s.player.answer data.txid data.id).answerTable x = s.player.answerTable x :=
      Function.update_of_ne (Ne.symm hx) _ _
    have hconcat := h.concat _ (isReply_of_ne (D := D) hx)
    have hsends : ∀ pos, sends x pos (s.player.answer data.txid data.id).out =
        sends x pos s.player.out := fun pos => sends_answered pos _ _ _
    refine ⟨h.inRange.answer _ _, h.turning, h.limit, ?_, ?_, ?_, ?_, hconcat.counted, ?_⟩
    · simp only [hsame, hsends]
      exact h.unenrolled
    · simp only [hsame]
      exact h.listed
    · simp only [hsends]
      exact h.sent
    · simp only [hsends]
      exact hconcat.answered
    · simp only [hsame, hsends]
      exact hconcat.watched

/-- A failure of another transaction. -/
theorem Watched.retryLater_of_ne (h : Watched config x l 0 s) {y : Int} (hy : y ≠ x)
    (id : Int) :
    Watched config x l 0 ({ s with player := s.player.retryLater y id } : LogSite D) := by
  have hsame : ∀ c, Function.update s.player.retryTable y c x = s.player.retryTable x := by
    intro c
    exact Function.update_of_ne (Ne.symm hy) _ _
  unfold LogPlayer.retryLater
  split
  · dsimp only
    split
    · exact ⟨h.inRange, h.turning, h.limit, h.unenrolled, by simpa only [hsame] using h.listed,
        by simpa only [hsame] using h.sent, h.answered, by simpa only [hsame] using h.counted,
        h.watched⟩
    · refine ⟨h.inRange, h.turning, h.limit, h.unenrolled, by simpa only [hsame] using h.listed,
        by simpa only [hsame] using h.sent, h.answered, by simpa only [hsame] using h.counted, ?_⟩
      have hpending := fun timeout => TimeWheel.pending_addTimer h.turning timeout x y
      simp only [hpending, if_neg hy]
      exact h.watched
  · exact ⟨h.inRange, h.turning, h.limit, h.unenrolled, h.listed, h.sent, h.answered, h.counted,
      h.watched⟩

/-- A failure of `x`: a timer is set, or the position has used up its retries. -/
theorem Watched.retryLater_self (h : Watched config x l 0 s) {data : LogPlayerMsg}
    (hcmd : data.cmd = kExecTranFail) (hx : data.txid = x) (hid : 0 ≤ data.id)
    (hlt : replies x data.id.toNat l < sends x data.id.toNat s.player.out) :
    Watched config x (l ++ [.reply data]) 0
      ({ s with player := s.player.retryLater x data.id } : LogSite D) := by
  obtain ⟨pos₀, hpos₀⟩ := Int.eq_ofNat_of_zero_le hid
  rw [hpos₀, Int.toNat_natCast] at hlt
  have hfail : ∀ pos, isFailure x pos (.reply data : Op D) = decide (pos₀ = pos) := by
    intro pos
    simp [isFailure, hcmd, hx, hpos₀]
  have hreply : ∀ pos, isReply x pos (.reply data : Op D) = decide (pos₀ = pos) := by
    intro pos
    simp [isReply, hcmd, hx, hpos₀]
  have hlength : pos₀ < (s.player.retryTable x).length := h.sent pos₀ (by omega)
  have hcounted := h.counted
  have hanswered : ∀ pos, replies x pos (l ++ [.reply data]) ≤ sends x pos s.player.out := by
    intro pos
    rw [replies_concat, hreply]
    by_cases hpos : pos₀ = pos
    · subst hpos
      rw [if_pos (decide_eq_true rfl)]
      exact hlt
    · simpa [hpos] using h.answered pos
  have hset : ∀ pos, ((s.player.retryTable x).set pos₀
      (LogPlayer.increment ((s.player.retryTable x)[pos₀]?.getD 0)))[pos]?.getD 0 =
        LogPlayer.counter (failures x pos (l ++ [.reply data])) := by
    intro pos
    rw [failures_concat, hfail]
    by_cases hpos : pos₀ = pos
    · subst hpos
      rw [List.getElem?_set_self hlength, Option.getD_some, hcounted,
        LogPlayer.increment_counter, if_pos (decide_eq_true rfl)]
    · rw [List.getElem?_set_ne hpos, hcounted, if_neg (by simp [hpos]), Nat.add_zero]
  rw [LogPlayer.retryLater, hpos₀, Int.toNat_natCast,
    if_pos ⟨Int.natCast_nonneg pos₀, hlength⟩]
  dsimp only
  split
  · rename_i htime
    refine ⟨h.inRange, h.turning, h.limit, h.unenrolled, ?_, ?_, hanswered, ?_, ?_⟩
    · simpa using h.listed
    · simpa using h.sent
    · simpa using hset
    · intro lst hlst pos hpos hle
      by_cases heq : pos₀ = pos
      · -- this position has used up its retries
        subst heq
        have hcounter := LogPlayer.counter_le (failures x pos₀ l + 1)
        rw [failures_concat, hfail, if_pos (decide_eq_true rfl)] at hle
        rw [hcounted, LogPlayer.increment_counter, h.limit] at htime
        omega
      · have hsame : failures x pos (l ++ [.reply data]) = failures x pos l := by
          simp [failures_concat, hfail, heq]
        rw [hsame] at hle ⊢
        exact h.watched lst hlst pos hpos hle
  · refine ⟨h.inRange, h.turning, h.limit, h.unenrolled, ?_, ?_, hanswered, ?_, ?_⟩
    · simpa using h.listed
    · simpa using h.sent
    · simpa using hset
    · intro lst hlst pos hpos hle
      have hpending := fun timeout => TimeWheel.pending_addTimer h.turning timeout x x
      refine Or.inl ?_
      dsimp only
      rw [hpending, if_pos rfl]
      omega

theorem onMessage_of_failure {data : LogPlayerMsg} (h : data.cmd = kExecTranFail)
    (p : LogPlayer D) : p.onMessage data = p.retryLater data.txid data.id := by
  simp only [LogPlayer.onMessage, LogPlayer.solve, h]

theorem Watched.reply (h : Watched config x l 0 s) {data : LogPlayerMsg}
    (hturn : data.cmd = kExecTranSucc ∨ data.cmd = kExecTranFail → data.txid = x →
      0 ≤ data.id ∧ replies x data.id.toNat l < sends x data.id.toNat s.player.out) :
    Watched config x (l ++ [.reply data]) 0
      ({ s with player := s.player.onMessage data } : LogSite D) := by
  by_cases hsucc : data.cmd = kExecTranSucc
  · rw [onMessage_of_success hsucc]
    exact h.answer hsucc (hturn (Or.inl hsucc))
  by_cases hfail : data.cmd = kExecTranFail
  · rw [onMessage_of_failure hfail]
    by_cases hx : data.txid = x
    · obtain ⟨hid, hlt⟩ := hturn (Or.inr hfail) hx
      rw [hx]
      exact h.retryLater_self hfail hx hid hlt
    · exact (h.concat _ (isReply_of_ne hx)).retryLater_of_ne hx data.id
  · have hignored : s.player.onMessage data = s.player := by
      rcases LogPlayer.onMessage_cases data s.player with ⟨hcmd, -⟩ | ⟨hcmd, -⟩ | heq
      · exact absurd hcmd hsucc
      · exact absurd hcmd hfail
      · exact heq
    rw [hignored]
    exact h.concat _ fun pos => by simp [isReply, hsucc, hfail]

theorem Watched.step (h : Watched config x l 0 (run config reading l))
    (hlive : (run config reading l).player.crashed = false) {op : Op D}
    (hop : InTurn config reading l op) :
    Watched config x (l ++ [op]) 0 ((run config reading l).step op) := by
  unfold LogSite.step
  rw [if_neg (by simp [hlive])]
  cases op with
  | connect conn =>
      have hconcat := h.concat (.connect conn) fun _ => rfl
      exact ⟨h.inRange.onDbConnection conn, h.turning, h.limit, h.unenrolled, h.listed, h.sent,
        hconcat.answered, hconcat.counted, hconcat.watched⟩
  | log y logs =>
      have hconcat := h.concat (.log y logs) fun _ => rfl
      have hadd : Watched config x (l ++ [.log y logs]) 0
          ((run config reading l).addLogs y logs) :=
        ⟨h.inRange, h.turning, h.limit, h.unenrolled, h.listed, h.sent, hconcat.answered,
          hconcat.counted, hconcat.watched⟩
      by_cases hy : y = x
      · subst hy
        exact hadd.play_self 0
      · exact hadd.play_of_ne hy
  | reply data =>
      refine h.reply fun hcmd hx => ?_
      subst hx
      exact hop hcmd
  | poll now => exact (h.concat (.poll now) fun _ => rfl).poll hlive now

/-! ### Runs -/

/-- A server that replies in turn was sent the transaction. -/
theorem InTurn.fromServer {op : Op D} (h : InTurn config reading l op) :
    (run config reading l).FromServer op := by
  cases op with
  | reply data =>
      intro hcmd
      obtain ⟨hid, hlt⟩ := h hcmd
      obtain ⟨e, he, hsend⟩ := List.countP_pos_iff.1 (Nat.zero_lt_of_lt hlt)
      refine List.any_eq_true.2 ⟨e, he, ?_⟩
      cases e with
      | send pos conn msg =>
          obtain ⟨htxid, hpos⟩ := of_decide_eq_true hsend
          exact decide_eq_true ⟨htxid, by omega⟩
      | _ => exact absurd hsend (by simp [isSend])
  | _ => trivial

theorem watched_run (hl : Each (InTurn config reading) l) (x : Int) :
    Exact config reading l (run config reading l) ∧
      Watched config x l 0 (run config reading l) :=
  foldl_invariant (I := fun l s => Exact config reading l s ∧ Watched config x l 0 s)
    _ l ⟨exact_init config reading, watched_init x config reading⟩
    (fun pre op hpre hop => by
      have hstep := (Exact.step (l := pre) hpre.1 hop.fromServer).1
      rw [run_concat] at hstep
      exact ⟨hstep, hpre.2.step hpre.1.live hop⟩) hl

/-- Without a success, the replies are the failures. -/
theorem replies_of_not_acked {pos : Nat} (h : acked x pos l = false) :
    replies x pos l = failures x pos l := by
  refine List.countP_congr fun op hop => ?_
  have hack := List.any_eq_false.1 h op hop
  cases op with
  | reply data =>
      simp only [isAck, isReply, isFailure, decide_eq_true_eq] at hack ⊢
      tauto
  | _ => exact Iff.rfl

/-- In every run in which the servers reply in turn: when no timer of a transaction is pending and
every log that was sent for it has been replied to, each server that was connected at its first
play has reported its success, or more failures than there are retries. -/
theorem acked_or_exhausted (config : LpConfig) (reading : Nat) (l : List (Op D))
    (hl : Each (InTurn config reading) l) (x : Int)
    (hplayed : x ∈ played (run config reading l).player.out)
    (hpending : (run config reading l).player.timeWheel.pending x = 0)
    (hreplied : ∀ pos, replies x pos l = sends x pos (run config reading l).player.out) :
    ∃ n, FirstPlayed config reading x n l ∧
      ∀ pos < n, acked x pos l = true ∨ config.maxRetryTime < failures x pos l := by
  obtain ⟨hexact, hwatched⟩ := watched_run hl x
  obtain ⟨n, hfirst, -, hlist⟩ := hexact.lists x hplayed
  refine ⟨n, hfirst, fun pos hpos => ?_⟩
  cases hack : acked x pos l with
  | true => exact Or.inl rfl
  | false =>
      refine Or.inr (Int.not_le.1 fun hle => ?_)
      have hmem : pos ∈ (List.range n).filter fun pos => !acked x pos l :=
        List.mem_filter.2 ⟨List.mem_range.2 hpos, by simp [hack]⟩
      have howed := hwatched.watched _ hlist pos hmem
      have hall := hreplied pos
      rw [replies_of_not_acked hack] at hall
      rcases howed hle with htimer | hlt
      · omega
      · omega

/-! ### A timer that is called -/

/-- A poll that calls one timer. -/
theorem step_poll_call (hlive : s.player.crashed = false) (now : Nat) {t : Timer Int}
    (h : (s.player.timeWheel.takeAllTimeout now).2 = [t]) :
    s.step (.poll now) = ({ s with player := { s.player with
      timeWheel := (s.player.timeWheel.takeAllTimeout now).1 } } : LogSite D).play t.fn := by
  rw [step_poll hlive, LogPlayer.poll]
  dsimp only
  rw [h]
  simp [LogPlayer.retryAll, hlive, play]

def oneRetry : LpConfig := ⟨1, fun _ => 0⟩

/-- The first server reports the success, the second one a failure. -/
def failsOnce : List (Op Bool) :=
  [.connect false, .connect true, .log 7 [⟨"k", "a", "1"⟩], .reply ⟨kExecTranSucc, 7, 0⟩,
    .reply ⟨kExecTranFail, 7, 1⟩]

/-- The log is sent to the second server once more, which fails it again. -/
def failsTwice : List (Op Bool) := failsOnce ++ [.poll 2001] ++ [.reply ⟨kExecTranFail, 7, 1⟩]

/-- The poll calls the only timer. -/
theorem run_failsOnce_poll :
    ∃ w : TimeWheel Int, w.Vacant ∧ run oneRetry 0 (failsOnce ++ [.poll 2001]) =
      ({ run oneRetry 0 failsOnce with player := { (run oneRetry 0 failsOnce).player with
        timeWheel := w } } : LogSite Bool).play 7 := by
  have hwheel : (run oneRetry 0 failsOnce).player.timeWheel =
      ((TimeWheel.init 6000 0).addTimer 2000 7).1 := rfl
  have hlone : TimeWheel.Lone (7 : Int) 2000 ((TimeWheel.init 6000 0).addTimer 2000 7).1 :=
    (show (TimeWheel.init 6000 0 : TimeWheel Int).Vacant from fun _ => rfl).addTimer
      (by decide) 2000 7
  rw [← hwheel] at hlone
  obtain ⟨⟨t, hfn, hcalled⟩, hvacant⟩ := hlone.takeAllTimeout 2001 (by decide)
  refine ⟨_, hvacant, ?_⟩
  rw [run_concat, ← hfn]
  exact step_poll_call (by decide) 2001 hcalled

theorem acked_or_exhausted_failsTwice :
    ∃ n, FirstPlayed oneRetry 0 7 n failsTwice ∧
      ∀ pos < n, acked 7 pos failsTwice = true ∨ 1 < (failures 7 pos failsTwice : Int) := by
  obtain ⟨w, hvacant, hpoll⟩ := run_failsOnce_poll
  have hout : (run oneRetry 0 failsTwice).player.out =
      [.playLog 7, .send 0 false (createDbMsg 7 (some [⟨some "k", some "a", some "1"⟩])),
        .send 1 true (createDbMsg 7 (some [⟨some "k", some "a", some "1"⟩])),
        .answered 7 (some false), .playLog 7,
        .send 1 true (createDbMsg 7 (some [⟨some "k", some "a", some "1"⟩]))] := by
    rw [failsTwice, run_concat, hpoll]
    rfl
  have hend : (run oneRetry 0 failsTwice).player.timeWheel.Vacant := by
    rw [failsTwice, run_concat, hpoll]
    exact hvacant
  refine acked_or_exhausted oneRetry 0 failsTwice ?_ 7 ?_ (hend.pending 7) ?_
  · refine (each_concat _ _ _).2 ⟨(each_concat _ _ _).2 ⟨by decide, trivial⟩, fun _ => ?_⟩
    rw [hpoll]
    exact ⟨by decide, Nat.lt_of_lt_of_eq (show 1 < 2 by decide) rfl⟩
  · rw [hout]
    decide
  · intro pos
    rw [hout]
    rcases pos with - | - | pos
    · rfl
    · rfl
    · simp [failsTwice, failsOnce, replies, isReply, sends, isSend]
      omega

end LogSite

end Grit
