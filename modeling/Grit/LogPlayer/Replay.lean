import Grit.LogPlayer.Order

/-!
# What is sent for a transaction

A log is read from the table whenever it is played, at first and for every retry. A transaction
that is logged once is sent with the items it was logged with, since it is retried only after it
has been played, and its entry in the table does not change any more.
-/

namespace Grit

open Cmd

namespace LogSite

variable {D : Type*}

def isLogOf (x : Int) : Op D → Bool
  | .log txid _ => txid = x
  | _ => false

/-- Everything that is or will be sent for `x` has its entry of the table; `known` says that `x`
has been logged. -/
structure Replays (x : Int) (known : Prop) (s : LogSite D) : Prop where
  inRange : s.player.InRange
  sends : ∀ pos conn msg, .send pos conn msg ∈ s.player.out → msg.txid = x →
    known ∧ msg = createDbMsg x (some ((s.logTable x).map LogPlayer.encodeLog))
  retries : s.player.retryTable x ≠ [] → known
  timers : s.player.timeWheel.Pending x → known

theorem replays_init (x : Int) (known : Prop) (config : LpConfig) (reading : Nat) :
    (init config reading : LogSite D).Replays x known where
  inRange := inRange_init config reading
  sends := by simp [init, LogPlayer.init]
  retries := by simp [init, LogPlayer.init]
  timers := by
    rintro ⟨i, t, ht, -⟩
    simp [init, LogPlayer.init, TimeWheel.init] at ht

/-- A play of `x` comes after its log; a play of another transaction does not matter. -/
theorem Replays.play {x : Int} {known : Prop} {s : LogSite D} (h : s.Replays x known) {y : Int}
    (hy : y = x → known) : (s.play y).Replays x known := by
  rw [play_eq h.inRange]
  refine ⟨h.inRange.enroll y, ?_, ?_, ?_⟩
  · intro pos conn msg hmem hx
    rcases List.mem_append.1 hmem with hmem | hmem
    · exact h.sends pos conn msg hmem hx
    · have hsend := (List.mem_cons.1 hmem).resolve_left (by simp)
      obtain ⟨_, -, _, -, heq⟩ := LogPlayer.mem_sendsTo.1 hsend
      obtain ⟨-, -, rfl⟩ := LogPlayerEvent.send.inj heq
      change y = x at hx
      subst hx
      exact ⟨hy rfl, rfl⟩
  · intro hretry
    by_cases hyx : y = x
    · exact hy hyx
    · refine h.retries ?_
      rwa [← LogPlayer.enroll_retryTable_of_ne (Ne.symm hyx)]
  · intro htimer
    refine h.timers ?_
    rwa [← LogPlayer.enroll_timeWheel y]

theorem Replays.retryAll {x : Int} {known : Prop} {s : LogSite D} (h : s.Replays x known)
    {called : List (Timer Int)} (hcalled : ∀ t ∈ called, t.fn = x → known) :
    ({ s with player := s.player.retryAll s.logTable called } : LogSite D).Replays x known := by
  induction called generalizing s with
  | nil => exact h
  | cons t called ih =>
      unfold LogPlayer.retryAll
      split
      · exact h
      · exact ih (h.play (hcalled t (by simp))) fun u hu => hcalled u (List.mem_cons_of_mem _ hu)

theorem Replays.poll {x : Int} {known : Prop} {s : LogSite D} (h : s.Replays x known)
    (reading : Nat) :
    ({ s with player := s.player.poll s.logTable reading } : LogSite D).Replays x known := by
  obtain ⟨hkept, hcalled⟩ := TimeWheel.pending_of_tickTimes (w := s.player.timeWheel)
    (k := (TimeWheel.elapsed reading s.player.timeWheel.starttime).toNat)
  have hwheel : ({ s with player := { s.player with
      timeWheel := (s.player.timeWheel.takeAllTimeout reading).1 } } : LogSite D).Replays x known :=
    ⟨h.inRange, h.sends, h.retries, fun htimer => h.timers (hkept x htimer)⟩
  refine hwheel.retryAll ?_
  intro t ht hx
  exact h.timers (hx ▸ hcalled t ht)

theorem Replays.reply {x : Int} {known : Prop} {s : LogSite D} (h : s.Replays x known)
    (data : LogPlayerMsg) :
    ({ s with player := s.player.onMessage data } : LogSite D).Replays x known := by
  have hrange := h.inRange.onMessage data
  rcases LogPlayer.onMessage_cases data s.player with ⟨-, heq⟩ | ⟨-, heq⟩ | heq
  · rw [heq] at hrange ⊢
    refine ⟨hrange, ?_, h.retries, h.timers⟩
    intro pos conn msg hmem
    exact h.sends pos conn msg (by simpa [LogPlayer.answer, LogPlayer.emit] using hmem)
  · obtain ⟨retryTable, timeWheel, crashed, hretry, hlength, htimer⟩ :=
      LogPlayer.retryLater_eq data.txid data.id s.player
    rw [heq, hretry] at hrange ⊢
    have hretries : retryTable x ≠ [] → known := by
      intro hne
      refine h.retries ?_
      rw [← List.length_pos_iff] at hne ⊢
      exact hlength x ▸ hne
    refine ⟨hrange, h.sends, hretries, ?_⟩
    intro hpending
    rcases htimer with rfl | ⟨hpos, timeout, rfl⟩
    · exact h.timers hpending
    · -- a timer is set only for a transaction that has been played
      rcases TimeWheel.pending_of_addTimer hpending with hpending | hx
      · exact h.timers hpending
      · exact h.retries (List.length_pos_iff.1 (hx ▸ hpos))
  · rw [heq]
    exact h

/-- A transaction is logged: nothing has been sent for it if it is the first time. -/
theorem Replays.addLogs {x : Int} {known known' : Prop} {s : LogSite D} (h : s.Replays x known)
    {txid : Int} {logs : List LogInfo} (hknown : known → known') (hfirst : txid = x → ¬known) :
    (s.addLogs txid logs).Replays x known' := by
  refine ⟨h.inRange, ?_, fun hne => hknown (h.retries hne), fun hp => hknown (h.timers hp)⟩
  intro pos conn msg hmem hx
  obtain ⟨hin, hmsg⟩ := h.sends pos conn msg hmem hx
  have hne : x ≠ txid := by
    intro heq
    exact hfirst heq.symm hin
  refine ⟨hknown hin, hmsg.trans ?_⟩
  simp [LogSite.addLogs, hne]

/-- The entry of `x` in the table, and what is sent with it, after the operations `l`. -/
structure Replayed (x : Int) (l : List (Op D)) (s : LogSite D) : Prop where
  replays : s.Replays x (0 < l.countP (isLogOf x))
  unlogged : l.countP (isLogOf x) = 0 → s.logTable x = []
  logged : ∀ logs, .log x logs ∈ l → s.logTable x = logs

theorem countP_isLogOf_concat (x : Int) (l : List (Op D)) (op : Op D) :
    (l ++ [op]).countP (isLogOf x) = l.countP (isLogOf x) + if isLogOf x op then 1 else 0 := by
  simp [List.countP_singleton]

/-- An operation that does not log `x`. -/
theorem Replayed.other {x : Int} {l : List (Op D)} {s s' : LogSite D} (h : s.Replayed x l)
    {op : Op D} (hop : isLogOf x op = false) (hs' : s'.Replays x (0 < l.countP (isLogOf x)))
    (htable : s'.logTable x = s.logTable x) : s'.Replayed x (l ++ [op]) := by
  have hcount := countP_isLogOf_concat x l op
  rw [hop] at hcount
  refine ⟨?_, ?_, ?_⟩
  · rw [hcount]
    exact hs'
  · rw [hcount, htable]
    exact h.unlogged
  · intro logs hmem
    rw [htable]
    rcases List.mem_append.1 hmem with hmem | hmem
    · exact h.logged logs hmem
    · rw [← List.mem_singleton.1 hmem] at hop
      simp [isLogOf] at hop

/-- The log of `x`, which is the first one. -/
theorem Replayed.log {x : Int} {l : List (Op D)} {s : LogSite D} (h : s.Replayed x l)
    (hzero : l.countP (isLogOf x) = 0) (logs : List LogInfo) :
    ((s.addLogs x logs).play x).Replayed x (l ++ [.log x logs]) := by
  have hpos : 0 < (l ++ [Op.log x logs]).countP (isLogOf x) := by
    rw [countP_isLogOf_concat]
    simp [isLogOf]
  have htable : ((s.addLogs x logs).play x).logTable x = logs := by
    simp [LogSite.play, LogSite.addLogs, h.unlogged hzero]
  refine ⟨?_, fun hno => absurd hno (Nat.ne_of_gt hpos), ?_⟩
  · refine Replays.play ?_ fun _ => hpos
    exact h.replays.addLogs (fun _ => hpos) fun _ hin => absurd hin (by omega)
  · intro logs' hmem
    rw [htable]
    rcases List.mem_append.1 hmem with hmem | hmem
    · have := List.countP_eq_zero.1 hzero _ hmem
      simp [isLogOf] at this
    · exact (LogSite.Op.log.inj (List.mem_singleton.1 hmem)).2.symm

theorem Replayed.step {x : Int} {l : List (Op D)} {s : LogSite D} (h : s.Replayed x l) {op : Op D}
    (honce : (l ++ [op]).countP (isLogOf x) ≤ 1) (hlive : s.player.crashed = false) :
    (s.step op).Replayed x (l ++ [op]) := by
  unfold LogSite.step
  rw [if_neg (by simp [hlive])]
  cases op with
  | connect conn =>
      exact h.other rfl ⟨h.replays.inRange.onDbConnection conn, h.replays.sends,
        h.replays.retries, h.replays.timers⟩ rfl
  | reply data => exact h.other rfl (h.replays.reply data) rfl
  | poll reading => exact h.other rfl (h.replays.poll reading) rfl
  | log txid logs =>
      by_cases hx : txid = x
      · subst hx
        refine h.log ?_ logs
        rw [countP_isLogOf_concat] at honce
        simp only [isLogOf, decide_true, if_true] at honce
        omega
      · have hsame : ((s.addLogs txid logs).play txid).logTable x = s.logTable x := by
          have hne : x ≠ txid := Ne.symm hx
          simp [LogSite.play, LogSite.addLogs, hne]
        refine h.other (by simp [isLogOf, hx]) (Replays.play ?_ fun heq => absurd heq hx) hsame
        exact h.replays.addLogs id fun heq => absurd heq hx

theorem replayed_init (x : Int) (config : LpConfig) (reading : Nat) :
    (init config reading : LogSite D).Replayed x [] where
  replays := replays_init x _ config reading
  unlogged := fun _ => rfl
  logged := by simp

/-- What is sent for a transaction that is logged once has the items it was logged with. -/
theorem Replayed.sent {x : Int} {l : List (Op D)} {s : LogSite D} (h : s.Replayed x l) {pos : Nat}
    {conn : D} {msg : DbMsg} (hsend : .send pos conn msg ∈ s.player.out) (hx : msg.txid = x) :
    ∃ logs, .log x logs ∈ l ∧ msg = createDbMsg x (some (logs.map LogPlayer.encodeLog)) := by
  obtain ⟨hpos, hmsg⟩ := h.replays.sends pos conn msg hsend hx
  obtain ⟨op, hop, hlog⟩ := List.countP_pos_iff.1 hpos
  cases op with
  | log txid logs =>
      obtain rfl : txid = x := by simpa [isLogOf] using hlog
      rw [h.logged logs hop] at hmsg
      exact ⟨logs, hop, hmsg⟩
  | connect conn => simp [isLogOf] at hlog
  | reply data => simp [isLogOf] at hlog
  | poll reading => simp [isLogOf] at hlog

end LogSite

end Grit
