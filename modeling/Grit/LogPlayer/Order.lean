import Grit.LogPlayer.Basic
import Grit.TimeWheel.Clock

/-!
# The order in which logs are applied

Runs of the log player with the log table of its DBTL: logs that are written and played,
replies of the storage servers, polls of the timers, and connections. A transaction is
retried by its own timers, whatever became of the transactions that were played after it.
-/

namespace Grit

open Cmd History

/-- The log table of a DBTL with its log player. -/
structure LogSite (D : Type*) where
  logTable : Int → List LogInfo
  player : LogPlayer D

namespace LogSite

variable {D : Type*}

/-- `log` is the end of `writeToDisk`: the items of the transaction are in the table, and it
is played. -/
inductive Op (D : Type*) where
  | connect (conn : D)
  | log (txid : Int) (logs : List LogInfo)
  | reply (data : LogPlayerMsg)
  | poll (reading : Nat)

def init (config : LpConfig) (reading : Nat) : LogSite D :=
  { logTable := fun _ => [], player := LogPlayer.init config reading }

/-- `logTable_[txid].emplace_back`, for each item. -/
def addLogs (txid : Int) (logs : List LogInfo) (s : LogSite D) : LogSite D :=
  { s with logTable := Function.update s.logTable txid (s.logTable txid ++ logs) }

def play (txid : Int) (s : LogSite D) : LogSite D :=
  { s with player := s.player.playLog (s.logTable txid) txid }

/-- A process that has ended does nothing. -/
def step (s : LogSite D) (op : Op D) : LogSite D :=
  if s.player.crashed then s
  else
    match op with
    | .connect conn => { s with player := s.player.onDbConnection conn }
    | .log txid logs => (s.addLogs txid logs).play txid
    | .reply data => { s with player := s.player.onMessage data }
    | .poll reading => { s with player := s.player.poll s.logTable reading }

def run (config : LpConfig) (reading : Nat) (l : List (Op D)) : LogSite D :=
  l.foldl step (init config reading)

theorem run_concat (config : LpConfig) (reading : Nat) (l : List (Op D)) (op : Op D) :
    run config reading (l ++ [op]) = (run config reading l).step op :=
  List.foldl_concat ..

theorem step_poll {s : LogSite D} (h : s.player.crashed = false) (reading : Nat) :
    s.step (.poll reading) = { s with player := s.player.poll s.logTable reading } := by
  simp [step, h]

/-! ### The property -/

/-- The transactions that were played, with each call. -/
def played (h : List (LogPlayerEvent D)) : List Int :=
  h.filterMap fun e =>
    match e with
    | .playLog x => some x
    | _ => none

/-- `x` was played, and `y` was not played before. -/
def PlayedFirst (x y : Int) (h : List (LogPlayerEvent D)) : Prop :=
  x ∈ (played h).takeWhile (· ≠ y)

instance (x y : Int) (h : List (LogPlayerEvent D)) : Decidable (PlayedFirst x y h) :=
  inferInstanceAs (Decidable (x ∈ (played h).takeWhile (· ≠ y)))

/-- Two transactions write the same attribute of a key. -/
def Overlap (l l' : List LogInfo) : Prop :=
  ∃ a ∈ l, ∃ b ∈ l', a.key = b.key ∧ a.attr = b.attr

instance (l l' : List LogInfo) : Decidable (Overlap l l') :=
  inferInstanceAs (Decidable (∃ a ∈ l, ∃ b ∈ l', a.key = b.key ∧ a.attr = b.attr))

/-- A log that is sent on a connection is not older than an overlapping one that was answered
there. -/
def InOrder (table : Int → List LogInfo) (pre : List (LogPlayerEvent D))
    (e : LogPlayerEvent D) : Prop :=
  ∀ pos conn msg, e = .send pos conn msg → ∀ y, .answered y (some conn) ∈ pre →
    PlayedFirst msg.txid y pre → ¬Overlap (table msg.txid) (table y)

/-- The logs of every server are applied in order. -/
def AppliedInOrder (s : LogSite D) : Prop := Each (InOrder s.logTable) s.player.out

/-- The connection has nothing left to answer for the transactions that overlap with `y` and were
played before it. -/
def Closed (s : LogSite D) (y : Int) (conn : D) : Prop :=
  ∀ x, PlayedFirst x y s.player.out → Overlap (s.logTable x) (s.logTable y) →
    ∀ pos ∈ (s.player.answerTable x).getD [], s.player.dbConnVec[pos]? ≠ some conn

/-- A transaction is logged once, and a server reports the success of a transaction that was
played only if it has nothing left to answer for the overlapping ones played before it. -/
def Settled (s : LogSite D) : Op D → Prop
  | .log txid _ => txid ∉ played s.player.out
  | .reply data => data.cmd = kExecTranSucc →
      data.txid ∈ played s.player.out ∧ ∀ conn ∈ s.player.connAt data.id, s.Closed data.txid conn
  | _ => True

instance [DecidableEq D] (s : LogSite D) (y : Int) (conn : D) : Decidable (s.Closed y conn) :=
  inferInstanceAs (Decidable (∀ x ∈ (played s.player.out).takeWhile (· ≠ y),
    Overlap (s.logTable x) (s.logTable y) →
      ∀ pos ∈ (s.player.answerTable x).getD [], s.player.dbConnVec[pos]? ≠ some conn))

instance [DecidableEq D] (s : LogSite D) (op : Op D) : Decidable (s.Settled op) :=
  match op with
  | .log txid _ => inferInstanceAs (Decidable (txid ∉ played s.player.out))
  | .reply data => inferInstanceAs (Decidable (data.cmd = kExecTranSucc →
      data.txid ∈ played s.player.out ∧
        ∀ conn ∈ s.player.connAt data.id, s.Closed data.txid conn))
  | .connect _ => inferInstanceAs (Decidable True)
  | .poll _ => inferInstanceAs (Decidable True)

theorem inRange_init (config : LpConfig) (reading : Nat) :
    (init config reading : LogSite D).player.InRange := by
  intro x l hl
  simp [init, LogPlayer.init] at hl

theorem inRange_step {s : LogSite D} (h : s.player.InRange) (op : Op D) :
    (s.step op).player.InRange := by
  unfold step
  split
  · exact h
  · cases op with
    | connect conn => exact h.onDbConnection conn
    | log txid logs => exact h.playLog _ txid
    | reply data => exact h.onMessage data
    | poll reading => exact h.poll _ reading

theorem inRange_run (config : LpConfig) (reading : Nat) (l : List (Op D)) :
    (run config reading l).player.InRange := by
  induction l using List.reverseRecOn with
  | nil => exact inRange_init config reading
  | append_singleton l op ih =>
      rw [run_concat]
      exact inRange_step ih op

/-! ### Histories of plays -/

theorem played_append (h es : List (LogPlayerEvent D)) :
    played (h ++ es) = played h ++ played es := List.filterMap_append

theorem PlayedFirst.mem {x y : Int} {h : List (LogPlayerEvent D)} (hxy : PlayedFirst x y h) :
    x ∈ played h := (List.takeWhile_sublist _).subset hxy

theorem takeWhile_append_of_mem {y : Int} {l : List Int} (h : y ∈ l) (l' : List Int) :
    (l ++ l').takeWhile (· ≠ y) = l.takeWhile (· ≠ y) := by
  induction l with
  | nil => simp at h
  | cons z l ih =>
      by_cases hz : z = y
      · simp [hz]
      · have hmem : y ∈ l := by simpa [Ne.symm hz] using h
        simpa [hz] using ih hmem

/-- Once `y` has been played, it is settled what was played before it. -/
theorem playedFirst_append {y : Int} {h : List (LogPlayerEvent D)} (hy : y ∈ played h) (x : Int)
    (es : List (LogPlayerEvent D)) : PlayedFirst x y (h ++ es) ↔ PlayedFirst x y h := by
  rw [PlayedFirst, PlayedFirst, played_append, takeWhile_append_of_mem hy]

/-! ### The invariant -/

/-- What keeps the order: no open position of a transaction leads to a server that answered for
a later overlapping one. -/
structure Kept (s : LogSite D) : Prop where
  inRange : s.player.InRange
  enrolled : ∀ x ∈ played s.player.out, s.player.answerTable x ≠ none
  answered : ∀ y conn, .answered y (some conn) ∈ s.player.out → y ∈ played s.player.out
  closed : ∀ y conn, .answered y (some conn) ∈ s.player.out → s.Closed y conn
  ordered : s.AppliedInOrder

theorem kept_init (config : LpConfig) (reading : Nat) :
    (init config reading : LogSite D).Kept where
  inRange := inRange_init config reading
  enrolled := by simp [init, LogPlayer.init, played]
  answered := by simp [init, LogPlayer.init]
  closed := by simp [init, LogPlayer.init]
  ordered := each_nil _

/-- Retries and timers do not matter. -/
theorem Kept.congr {s s' : LogSite D} (h : s.Kept) (htable : s'.logTable = s.logTable)
    (hconn : s'.player.dbConnVec = s.player.dbConnVec)
    (hanswer : s'.player.answerTable = s.player.answerTable)
    (hout : s'.player.out = s.player.out) : s'.Kept where
  inRange := by
    unfold LogPlayer.InRange
    rw [hconn, hanswer]
    exact h.inRange
  enrolled := by
    rw [hout, hanswer]
    exact h.enrolled
  answered := by
    rw [hout]
    exact h.answered
  closed := by
    unfold Closed
    rw [hout, hanswer, hconn, htable]
    exact h.closed
  ordered := by
    rw [AppliedInOrder, htable, hout]
    exact h.ordered

/-- The events of a play. -/
def playEvents (txid : Int) (s : LogSite D) : List (LogPlayerEvent D) :=
  .playLog txid :: s.player.sendsTo
    (createDbMsg txid (some ((s.logTable txid).map LogPlayer.encodeLog))) (s.player.unanswered txid)

theorem play_eq {s : LogSite D} (h : s.player.InRange) (txid : Int) :
    s.play txid = { s with
      player := { s.player.enroll txid with out := s.player.out ++ s.playEvents txid } } := by
  rw [play, LogPlayer.playLog_eq h]
  rfl

theorem answered_notMem_playEvents (txid : Int) (s : LogSite D) (y : Int) (conn : Option D) :
    .answered y conn ∉ s.playEvents txid := by
  intro hmem
  rcases List.mem_cons.1 hmem with heq | hmem
  · simp at heq
  · obtain ⟨pos, -, conn', -, heq⟩ := LogPlayer.mem_sendsTo.1 hmem
    simp at heq

theorem played_play (y : Int) (msg : DbMsg) (l : List Nat) (p : LogPlayer D) :
    played (.playLog y :: p.sendsTo msg l) = [y] := by
  have hsends : played (p.sendsTo msg l) = [] := by
    refine List.filterMap_eq_nil_iff.2 fun e he => ?_
    obtain ⟨pos, -, conn, -, rfl⟩ := LogPlayer.mem_sendsTo.1 he
    rfl
  exact congrArg (List.cons y) hsends

theorem played_playEvents (txid : Int) (s : LogSite D) : played (s.playEvents txid) = [txid] :=
  played_play txid _ _ _

/-- A transaction is not sent to a server that answered for a later overlapping one. -/
theorem Kept.inOrder_play {s : LogSite D} (h : s.Kept) (txid : Int)
    {pre post : List (LogPlayerEvent D)} {e : LogPlayerEvent D}
    (heq : s.playEvents txid = pre ++ e :: post) :
    InOrder s.logTable (s.player.out ++ pre) e := by
  rintro pos conn msg rfl y hy hfirst hover
  have hmem : LogPlayerEvent.send pos conn msg ∈ s.playEvents txid := by
    rw [heq]
    simp
  obtain ⟨hpos, hconn, rfl⟩ := LogPlayer.of_send_mem_play hmem
  have hy : .answered y (some conn) ∈ s.player.out := by
    rcases List.mem_append.1 hy with hy | hy
    · exact hy
    · exact absurd (heq ▸ List.mem_append_left _ hy) (answered_notMem_playEvents txid s y _)
  -- `y` was played before, so `txid` was too, and its positions are known to be closed
  have hfirst := (playedFirst_append (h.answered y conn hy) txid pre).1 hfirst
  obtain ⟨l, hl⟩ := Option.ne_none_iff_exists'.1 (h.enrolled txid hfirst.mem)
  refine h.closed y conn hy txid hfirst hover pos ?_ hconn
  simpa [LogPlayer.unanswered, hl] using hpos

theorem Kept.play {s : LogSite D} (h : s.Kept) (txid : Int) : (s.play txid).Kept := by
  rw [play_eq h.inRange]
  have hanswered : ∀ y conn, .answered y (some conn) ∈ s.player.out ++ s.playEvents txid →
      .answered y (some conn) ∈ s.player.out := fun y conn hy =>
    (List.mem_append.1 hy).resolve_right (answered_notMem_playEvents txid s y _)
  exact {
    inRange := h.inRange.enroll txid
    enrolled := fun x hx => by
      dsimp only at hx ⊢
      by_cases hne : x = txid
      · rw [hne, LogPlayer.enroll_self]
        simp
      · rw [played_append, played_playEvents, List.mem_append, List.mem_singleton] at hx
        rw [LogPlayer.enroll_of_ne hne]
        exact h.enrolled x (hx.resolve_right hne)
    answered := fun y conn hy => by
      dsimp only
      rw [played_append]
      exact List.mem_append_left _ (h.answered y conn (hanswered y conn hy))
    closed := fun y conn hy x hfirst hover => by
      have hy := hanswered y conn hy
      have hfirst := (playedFirst_append (h.answered y conn hy) x _).1 hfirst
      have hsame : (s.player.enroll txid).answerTable x = s.player.answerTable x := by
        obtain ⟨l, hl⟩ := Option.ne_none_iff_exists'.1 (h.enrolled x hfirst.mem)
        by_cases hne : x = txid
        · rw [← hne, LogPlayer.enroll_of_some hl]
        · exact LogPlayer.enroll_of_ne hne s.player
      dsimp only
      rw [hsame, LogPlayer.enroll_dbConnVec]
      exact h.closed y conn hy x hfirst hover
    ordered := (each_append _ _ _).2
      ⟨h.ordered, eachFrom_of_forall fun pre e post heq => h.inOrder_play txid heq⟩ }

theorem Kept.addLogs {s : LogSite D} (h : s.Kept) {txid : Int}
    (hnew : txid ∉ played s.player.out) (logs : List LogInfo) : (s.addLogs txid logs).Kept := by
  have hsame : ∀ x ∈ played s.player.out, (s.addLogs txid logs).logTable x = s.logTable x := by
    intro x hx
    have hne : x ≠ txid := ne_of_mem_of_not_mem hx hnew
    exact Function.update_of_ne hne _ _
  exact {
    inRange := h.inRange
    enrolled := h.enrolled
    answered := h.answered
    closed := fun y conn hy x hfirst hover => by
      rw [hsame x hfirst.mem, hsame y (h.answered y conn hy)] at hover
      exact h.closed y conn hy x hfirst hover
    ordered := fun pre e post heq pos conn msg hsend y hy hfirst hover => by
      have hmem : ∀ x ∈ played pre, x ∈ played s.player.out := fun x hx => by
        change s.player.out = _ at heq
        rw [heq, played_append]
        exact List.mem_append_left _ hx
      have hanswer : .answered y (some conn) ∈ s.player.out := by
        change s.player.out = _ at heq
        rw [heq]
        exact List.mem_append_left _ hy
      rw [hsame _ (hmem _ hfirst.mem), hsame y (h.answered y conn hanswer)] at hover
      exact h.ordered pre e post heq pos conn msg hsend y hy hfirst hover }

theorem Kept.connect {s : LogSite D} (h : s.Kept) (conn : D) :
    ({ s with player := s.player.onDbConnection conn } : LogSite D).Kept where
  inRange := h.inRange.onDbConnection conn
  enrolled := h.enrolled
  answered := h.answered
  closed := fun y conn' hy x hfirst hover pos hpos => by
    have hlt : pos < s.player.dbConnVec.length := by
      obtain ⟨l, hl⟩ := Option.ne_none_iff_exists'.1 (h.enrolled x hfirst.mem)
      exact h.inRange x l hl pos (by simpa [LogPlayer.onDbConnection, hl] using hpos)
    change (s.player.dbConnVec ++ [conn])[pos]? ≠ _
    rw [List.getElem?_append_left hlt]
    exact h.closed y conn' hy x hfirst hover pos hpos
  ordered := h.ordered

theorem Kept.answer {s : LogSite D} (h : s.Kept) {data : LogPlayerMsg}
    (hplayed : data.txid ∈ played s.player.out)
    (hclosed : ∀ conn ∈ s.player.connAt data.id, s.Closed data.txid conn) :
    ({ s with player := s.player.answer data.txid data.id } : LogSite D).Kept := by
  have hplay : played (s.player.out ++ [.answered data.txid (s.player.connAt data.id)]) =
      played s.player.out := by
    rw [played_append]
    exact List.append_nil _
  have hmem : ∀ y conn,
      .answered y (some conn) ∈ s.player.out ++ [.answered data.txid (s.player.connAt data.id)] →
        .answered y (some conn) ∈ s.player.out ∨
          y = data.txid ∧ s.player.connAt data.id = some conn := by
    intro y conn hy
    simpa [eq_comm] using hy
  exact {
    inRange := h.inRange.answer data.txid data.id
    enrolled := fun x hx => by
      by_cases hne : x = data.txid
      · simp [LogPlayer.answer, LogPlayer.emit, hne]
      · have := h.enrolled x (hplay ▸ hx)
        simpa [LogPlayer.answer, LogPlayer.emit, hne] using this
    answered := fun y conn hy => by
      change y ∈ played (s.player.out ++ _)
      rw [hplay]
      rcases hmem y conn hy with hy | ⟨rfl, -⟩
      · exact h.answered y conn hy
      · exact hplayed
    closed := fun y conn hy x hfirst hover pos hpos => by
      change x ∈ (played (s.player.out ++ _)).takeWhile _ at hfirst
      rw [hplay] at hfirst
      rcases hmem y conn hy with hy | ⟨rfl, hconn⟩
      · exact h.closed y conn hy x hfirst hover pos (LogPlayer.mem_of_mem_answer hpos)
      · exact hclosed conn hconn x hfirst hover pos (LogPlayer.mem_of_mem_answer hpos)
    ordered := (each_concat _ _ _).2 ⟨h.ordered, by
      intro pos conn msg heq
      simp at heq⟩ }

theorem Kept.reply {s : LogSite D} (h : s.Kept) {data : LogPlayerMsg}
    (hdata : s.Settled (.reply data)) :
    ({ s with player := s.player.onMessage data } : LogSite D).Kept := by
  rcases LogPlayer.onMessage_cases data s.player with ⟨hcmd, heq⟩ | ⟨-, heq⟩ | heq
  · rw [heq]
    obtain ⟨hplayed, hclosed⟩ := hdata hcmd
    exact h.answer hplayed hclosed
  · rw [heq]
    obtain ⟨retryTable, timeWheel, crashed, heq, -⟩ :=
      LogPlayer.retryLater_eq data.txid data.id s.player
    rw [heq]
    exact h.congr rfl rfl rfl rfl
  · rw [heq]
    exact h

theorem Kept.retryAll {s : LogSite D} (h : s.Kept) (called : List (Timer Int)) :
    ({ s with player := s.player.retryAll s.logTable called } : LogSite D).Kept := by
  induction called generalizing s with
  | nil => exact h
  | cons t called ih =>
      unfold LogPlayer.retryAll
      split
      · exact h
      · exact ih (h.play t.fn)

theorem Kept.poll {s : LogSite D} (h : s.Kept) (reading : Nat) :
    ({ s with player := s.player.poll s.logTable reading } : LogSite D).Kept := by
  have hwheel : ({ s with player := { s.player with
      timeWheel := (s.player.timeWheel.takeAllTimeout reading).1 } } : LogSite D).Kept :=
    h.congr rfl rfl rfl rfl
  exact hwheel.retryAll _

theorem Kept.step {s : LogSite D} (h : s.Kept) {op : Op D} (hop : s.Settled op) :
    (s.step op).Kept := by
  unfold LogSite.step
  split
  · exact h
  · cases op with
    | connect conn => exact h.connect conn
    | log txid logs => exact (h.addLogs hop logs).play txid
    | reply data => exact h.reply hop
    | poll reading => exact h.poll reading

/-- In a run in which every operation is settled, the logs of every server are applied in
order. -/
theorem appliedInOrder_of_settled (config : LpConfig) (reading : Nat) (l : List (Op D))
    (hl : Each (fun pre op => (run config reading pre).Settled op) l) :
    (run config reading l).AppliedInOrder := by
  have hkept := foldl_invariant (I := fun _ (s : LogSite D) => s.Kept)
    (fun pre op => (run config reading pre).Settled op) l (kept_init config reading)
    (fun pre op hpre hop => hpre.step hop) hl
  exact hkept.ordered

/-- Three retries. -/
def threeRetries : LpConfig := ⟨3, fun _ => 0⟩

theorem appliedInOrder_of_settled_sample :
    (run threeRetries 0 [.connect (), .log 1 [⟨"k", "a", "1"⟩], .reply ⟨kExecTranSucc, 1, 0⟩,
      .log 2 [⟨"k", "a", "2"⟩], .reply ⟨kExecTranSucc, 2, 0⟩]).AppliedInOrder :=
  appliedInOrder_of_settled threeRetries 0 _ (by decide)

/-! ### A timer of an overtaken transaction -/

/-- A poll sends every transaction whose timer is called to the positions that have yet to
answer. -/
theorem retryAll_out (table : Int → List LogInfo) (called : List (Timer Int)) {s : LogPlayer D}
    (hs : s.InRange) (hlive : s.crashed = false) :
    ∃ es, (s.retryAll table called).out = s.out ++ es ∧
      ∀ t ∈ called, ∀ l, s.answerTable t.fn = some l → ∀ pos ∈ l, ∀ conn,
        s.dbConnVec[pos]? = some conn →
          .send pos conn (createDbMsg t.fn (some ((table t.fn).map LogPlayer.encodeLog))) ∈ es := by
  induction called generalizing s with
  | nil => exact ⟨[], by simp [LogPlayer.retryAll], by simp⟩
  | cons t called ih =>
      have hplay := LogPlayer.playLog_eq hs (table t.fn) t.fn
      have hrange : (s.playLog (table t.fn) t.fn).InRange := by
        rw [hplay]
        exact hs.enroll t.fn
      have hcrashed : (s.playLog (table t.fn) t.fn).crashed = false := by
        rw [hplay]
        exact (LogPlayer.enroll_crashed t.fn s).trans hlive
      obtain ⟨es, hout, hes⟩ := ih hrange hcrashed
      unfold LogPlayer.retryAll
      rw [if_neg (by simp [hlive]), hout, hplay]
      refine ⟨_, List.append_assoc _ _ _, ?_⟩
      intro t' ht' l hl pos hpos conn hconn
      rcases List.mem_cons.1 ht' with rfl | ht'
      · refine List.mem_append_left _ (List.mem_cons_of_mem _ ?_)
        exact LogPlayer.mem_sendsTo.2
          ⟨pos, by simpa [LogPlayer.unanswered, hl] using hpos, conn, hconn, rfl⟩
      · refine List.mem_append_right _ (hes t' ht' l ?_ pos hpos conn ?_)
        · rw [hplay]
          by_cases hne : t'.fn = t.fn
          · rw [LogPlayer.enroll_of_some (hne ▸ hl)]
            exact hl
          · exact (LogPlayer.enroll_of_ne hne s).trans hl
        · rw [hplay]
          exact (congrArg (·[pos]?) (LogPlayer.enroll_dbConnVec t.fn s)).trans hconn

/-- The order breaks when a timer is called for a transaction that a server has yet to answer,
after it answered for a later overlapping one. -/
theorem not_appliedInOrder_poll {s : LogSite D} (hs : s.player.InRange)
    (hlive : s.player.crashed = false) {reading : Nat} {t : Timer Int}
    (ht : t ∈ (s.player.timeWheel.takeAllTimeout reading).2) {l : List Nat}
    (hl : s.player.answerTable t.fn = some l) {pos : Nat} (hpos : pos ∈ l) {conn : D}
    (hconn : s.player.dbConnVec[pos]? = some conn) {y : Int}
    (hanswered : .answered y (some conn) ∈ s.player.out) (hy : y ∈ played s.player.out)
    (hfirst : PlayedFirst t.fn y s.player.out)
    (hover : Overlap (s.logTable t.fn) (s.logTable y)) :
    ¬(s.step (.poll reading)).AppliedInOrder := by
  rw [step_poll hlive]
  intro hordered
  obtain ⟨es, hout, hes⟩ := retryAll_out s.logTable
    (s.player.timeWheel.takeAllTimeout reading).2
    (s := { s.player with timeWheel := (s.player.timeWheel.takeAllTimeout reading).1 }) hs hlive
  have hsend := hes t ht l hl pos hpos conn hconn
  obtain ⟨pre, post, rfl⟩ := List.append_of_mem hsend
  refine hordered (s.player.out ++ pre) _ post (hout.trans (List.append_assoc _ _ _).symm) pos conn
    _ rfl y (List.mem_append_left _ hanswered) ?_ hover
  exact (playedFirst_append hy t.fn pre).2 hfirst

/-- A server fails transaction `1`, and then has transaction `2`, which writes the same
attribute. -/
def overtaken : List (Op Unit) :=
  [.connect (), .log 1 [⟨"k", "a", "1"⟩], .reply ⟨kExecTranFail, 1, 0⟩,
    .log 2 [⟨"k", "a", "2"⟩], .reply ⟨kExecTranSucc, 2, 0⟩]

/-- The timer of transaction `1` is called by the poll. -/
theorem called_overtaken :
    ∃ t ∈ ((run threeRetries 0 overtaken).player.timeWheel.takeAllTimeout 2001).2, t.fn = 1 := by
  have hrefines : TimeWheel.Refines ((DeadlineQueue.empty : DeadlineQueue Int).add 2000 1)
      ((TimeWheel.init 6000 0).addTimer 2000 1).1 :=
    (TimeWheel.refines_init (by decide) 0).addTimer (by decide) 1
  exact hrefines.exists_taken (Nat.zero_le 2001) (by decide) rfl (List.mem_singleton_self _)
    (by decide)

/-- The timer sends it to the server again. -/
theorem not_appliedInOrder_overtaken :
    ¬(run threeRetries 0 (overtaken ++ [.poll 2001])).AppliedInOrder := by
  obtain ⟨t, ht, hfn⟩ := called_overtaken
  have hl : (run threeRetries 0 overtaken).player.answerTable t.fn = some [0] := by
    rw [hfn]
    decide
  have hfirst : PlayedFirst t.fn 2 (run threeRetries 0 overtaken).player.out := by
    rw [hfn]
    decide
  have hover : Overlap ((run threeRetries 0 overtaken).logTable t.fn)
      ((run threeRetries 0 overtaken).logTable 2) := by
    rw [hfn]
    decide
  rw [run_concat]
  exact not_appliedInOrder_poll (inRange_run threeRetries 0 overtaken) (by decide) ht hl
    (List.mem_singleton_self 0) rfl (by decide) (by decide) hfirst hover

end LogSite

end Grit
