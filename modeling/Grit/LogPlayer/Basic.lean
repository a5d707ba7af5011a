import Mathlib.Algebra.Group.Nat.Defs
import Grit.Dbtl.Basic
import Grit.TimeWheel.Basic

/-!
# The log player

The class of `logplayer.cc`, and what `dbtlmain.cc` does with a message to it. A connection
to a storage server has type `D`; `dbConnVec_` grows with each change of a connection and
never shrinks. `playLog` reads `dbtl_->logTable_[txid]`, which is an argument here. An index
that is out of range ends the process. The retries are counted in an `int`, which wraps around.
-/

namespace Grit

open Cmd

/-- A call of `playLog`, a log that was sent on a connection, with its position, and a success
that was reported by a position, with the connection there. -/
inductive LogPlayerEvent (D : Type*) where
  | playLog (txid : Int)
  | send (pos : Nat) (conn : D) (msg : DbMsg)
  | answered (txid : Int) (conn : Option D)
deriving DecidableEq

/-- `maxRetryTime` is `lpMaxRetryTime` of the configuration. `farTimeout` is what the conversion
of a `double` to `unsigned long long` gives for a time that does not fit, which is not defined. -/
structure LpConfig where
  maxRetryTime : Int
  farTimeout : Int → Nat

structure LogPlayer (D : Type*) where
  config : LpConfig
  dbConnVec : List D
  answerTable : Int → Option (List Nat)
  retryTable : Int → List Int
  timeWheel : TimeWheel Int
  out : List (LogPlayerEvent D)
  crashed : Bool

namespace LogPlayer

variable {D : Type*}

/-- `init`, when the clock reads `reading`. -/
def init (config : LpConfig) (reading : Nat) : LogPlayer D :=
  { config, dbConnVec := [], answerTable := fun _ => none, retryTable := fun _ => [],
    timeWheel := TimeWheel.init (60 * 100) reading, out := [], crashed := false }

def emit (e : LogPlayerEvent D) (s : LogPlayer D) : LogPlayer D := { s with out := s.out ++ [e] }

/-- The callback runs when a connection comes up and when it goes down. -/
def onDbConnection (conn : D) (s : LogPlayer D) : LogPlayer D :=
  { s with dbConnVec := s.dbConnVec ++ [conn] }

/-- The start of `playLog`: a transaction that has no list of answers is still to be answered
by every connection. -/
def enroll (txid : Int) (s : LogPlayer D) : LogPlayer D :=
  match s.answerTable txid with
  | some _ => s
  | none =>
      { s with
        retryTable := Function.update s.retryTable txid (List.replicate s.dbConnVec.length 0)
        answerTable :=
          Function.update s.answerTable txid (some (List.range s.dbConnVec.length)) }

/-- The last loop of `playLog`. -/
def sendAll (msg : DbMsg) : List Nat → LogPlayer D → LogPlayer D
  | [], s => s
  | pos :: rest, s =>
      match s.dbConnVec[pos]? with
      | none => { s with crashed := true }
      | some conn => sendAll msg rest (s.emit (.send pos conn msg))

def encodeLog (log : LogInfo) : FlatData :=
  createData (some log.key) (some log.attr) (some log.value)

def playLog (logs : List LogInfo) (txid : Int) (s : LogPlayer D) : LogPlayer D :=
  let s := (s.enroll txid).emit (.playLog txid)
  s.sendAll (createDbMsg txid (some (logs.map encodeLog))) ((s.answerTable txid).getD [])

/-- The connection at a position that came with a message. -/
def connAt (id : Int) (s : LogPlayer D) : Option D :=
  if 0 ≤ id then s.dbConnVec[id.toNat]? else none

/-- `answerTable_[txid].remove(id)`. -/
def answer (txid id : Int) (s : LogPlayer D) : LogPlayer D :=
  let left := ((s.answerTable txid).getD []).filter fun pos : Nat => (pos : Int) ≠ id
  { s with answerTable := Function.update s.answerTable txid (some left) }.emit
    (.answered txid (s.connAt id))

/-- `++` of an `int`. -/
def increment (time : Int) : Int := (time + 1).bmod (2 ^ 32)

/-- `pow(2, time) * 1000` as an `unsigned long long`. It fits, and is exact, up to `time = 54`; a
power with a negative exponent is cut off. -/
def timeout (far : Int → Nat) (time : Int) : Nat :=
  if time < 0 then 1000 / 2 ^ min (-time).toNat 10
  else if time < 55 then 2 ^ time.toNat * 1000
  else far time

/-- `time = ++retryTable_[txid][id]`, and a timer if the limit is not reached. -/
def retryLater (txid id : Int) (s : LogPlayer D) : LogPlayer D :=
  if 0 ≤ id ∧ id.toNat < (s.retryTable txid).length then
    let time := increment ((s.retryTable txid)[id.toNat]?.getD 0)
    let s := { s with
      retryTable :=
        Function.update s.retryTable txid ((s.retryTable txid).set id.toNat time) }
    if time > s.config.maxRetryTime then s
    else { s with timeWheel := (s.timeWheel.addTimer (timeout s.config.farTimeout time) txid).1 }
  else { s with crashed := true }

def solve (data : LogPlayerMsg) (s : LogPlayer D) : LogPlayer D :=
  match data.cmd with
  | kExecTranSucc => s.answer data.txid data.id
  | kExecTranFail => s.retryLater data.txid data.id
  | _ => s

/-- A `LogPlayerMsg` in `onMessage` of `dbtlmain.cc`. -/
def onMessage (data : LogPlayerMsg) (s : LogPlayer D) : LogPlayer D :=
  match data.cmd with
  | kExecTranSucc => s.solve data
  | kExecTranFail => s.solve data
  | _ => s

/-- The callbacks of timers that were called. `table` is `dbtl_->logTable_`. -/
def retryAll (table : Int → List LogInfo) : List (Timer Int) → LogPlayer D → LogPlayer D
  | [], s => s
  | t :: rest, s =>
      if s.crashed then s else retryAll table rest (s.playLog (table t.fn) t.fn)

/-- A poll of the time wheel when the clock reads `reading`. -/
def poll (table : Int → List LogInfo) (reading : Nat) (s : LogPlayer D) : LogPlayer D :=
  let taken := s.timeWheel.takeAllTimeout reading
  retryAll table taken.2 { s with timeWheel := taken.1 }

/-! ### Counters -/

/-- An `int` that was `0`, after `k` increments. -/
def counter (k : Nat) : Int := (k : Int).bmod (2 ^ 32)

@[simp]
theorem counter_zero : counter 0 = 0 := Int.zero_bmod

@[simp]
theorem increment_counter (k : Nat) : increment (counter k) = counter (k + 1) :=
  Int.bmod_add_bmod

theorem bmod_natCast_le (k m : Nat) : (k : Int).bmod m ≤ k := by
  have hle : (k : Int) % m ≤ k := Int.ofNat_le.2 (Nat.mod_le k m)
  rw [Int.bmod_def]
  split_ifs
  · exact hle
  · omega

theorem counter_le (k : Nat) : counter k ≤ k := bmod_natCast_le k (2 ^ 32)

theorem counter_le_intMax (k : Nat) : counter k ≤ 2147483647 := by
  have hlt : counter k < ((2 ^ 32 : Nat) + 1) / 2 := Int.bmod_lt (by decide)
  omega

theorem counter_eq {k : Nat} (h : k < 2147483648) : counter k = k :=
  Int.bmod_eq_of_le (by omega) (by omega)

/-! ### What a play does -/

/-- The positions that have yet to answer, once the transaction is played. -/
def unanswered (txid : Int) (s : LogPlayer D) : List Nat :=
  (s.answerTable txid).getD (List.range s.dbConnVec.length)

/-- Every position of a list of answers has a connection. -/
def InRange (s : LogPlayer D) : Prop :=
  ∀ x l, s.answerTable x = some l → ∀ pos ∈ l, pos < s.dbConnVec.length

/-- The sends of a message to a list of positions. -/
def sendsTo (msg : DbMsg) (l : List Nat) (s : LogPlayer D) : List (LogPlayerEvent D) :=
  l.filterMap fun pos => s.dbConnVec[pos]?.map fun conn => .send pos conn msg

theorem enroll_of_some {txid : Int} {s : LogPlayer D} {l : List Nat}
    (h : s.answerTable txid = some l) : s.enroll txid = s := by
  simp only [enroll, h]

theorem enroll_self (txid : Int) (s : LogPlayer D) :
    (s.enroll txid).answerTable txid = some (s.unanswered txid) := by
  cases h : s.answerTable txid with
  | none => simp [enroll, unanswered, h]
  | some l => simp [enroll_of_some h, unanswered, h]

theorem enroll_of_ne {x txid : Int} (h : x ≠ txid) (s : LogPlayer D) :
    (s.enroll txid).answerTable x = s.answerTable x := by
  unfold enroll
  split <;> simp [h]

@[simp]
theorem enroll_dbConnVec (txid : Int) (s : LogPlayer D) :
    (s.enroll txid).dbConnVec = s.dbConnVec := by
  unfold enroll
  split <;> rfl

@[simp]
theorem enroll_out (txid : Int) (s : LogPlayer D) : (s.enroll txid).out = s.out := by
  unfold enroll
  split <;> rfl

theorem enroll_retryTable_of_ne {x txid : Int} (h : x ≠ txid) (s : LogPlayer D) :
    (s.enroll txid).retryTable x = s.retryTable x := by
  unfold enroll
  split <;> simp [h]

theorem enroll_timeWheel (txid : Int) (s : LogPlayer D) :
    (s.enroll txid).timeWheel = s.timeWheel := by
  unfold enroll
  split <;> rfl

theorem enroll_crashed (txid : Int) (s : LogPlayer D) :
    (s.enroll txid).crashed = s.crashed := by
  unfold enroll
  split <;> rfl

theorem unanswered_lt {s : LogPlayer D} (h : s.InRange) (txid : Int) :
    ∀ pos ∈ s.unanswered txid, pos < s.dbConnVec.length := by
  intro pos hpos
  cases hl : s.answerTable txid with
  | none => simpa [unanswered, hl] using hpos
  | some l => exact h txid l hl pos (by simpa [unanswered, hl] using hpos)

theorem InRange.enroll {s : LogPlayer D} (h : s.InRange) (txid : Int) :
    (s.enroll txid).InRange := by
  intro x l hl pos hpos
  rw [enroll_dbConnVec]
  by_cases hx : x = txid
  · subst hx
    rw [enroll_self] at hl
    exact unanswered_lt h x pos (Option.some.inj hl ▸ hpos)
  · rw [enroll_of_ne hx] at hl
    exact h x l hl pos hpos

/-- Each position in range gets the message, in the order of the list. -/
theorem sendAll_eq (msg : DbMsg) {l : List Nat} {s : LogPlayer D}
    (h : ∀ pos ∈ l, pos < s.dbConnVec.length) :
    s.sendAll msg l = { s with out := s.out ++ s.sendsTo msg l } := by
  induction l generalizing s with
  | nil => simp [sendAll, sendsTo]
  | cons pos l ih =>
      obtain ⟨conn, hconn⟩ : ∃ conn, s.dbConnVec[pos]? = some conn :=
        ⟨_, List.getElem?_eq_getElem (h pos (by simp))⟩
      have hrest := ih (s := s.emit (.send pos conn msg))
        fun pos' hpos' => h pos' (List.mem_cons_of_mem _ hpos')
      simp only [sendAll, hconn]
      rw [hrest]
      simp [emit, sendsTo, hconn]

/-- A play sends the log to the positions that have yet to answer. -/
theorem playLog_eq {s : LogPlayer D} (h : s.InRange) (logs : List LogInfo) (txid : Int) :
    s.playLog logs txid = { s.enroll txid with
      out := s.out ++ .playLog txid ::
        s.sendsTo (createDbMsg txid (some (logs.map encodeLog))) (s.unanswered txid) } := by
  have hopen : (((s.enroll txid).emit (.playLog txid)).answerTable txid).getD [] =
      s.unanswered txid := by
    simp [emit, enroll_self]
  unfold playLog
  dsimp only
  rw [hopen, sendAll_eq]
  · simp [emit, sendsTo]
  · simpa [emit] using unanswered_lt h txid

/-- A reply is a success, a failure, or ignored. -/
theorem onMessage_cases (data : LogPlayerMsg) (s : LogPlayer D) :
    (data.cmd = kExecTranSucc ∧ s.onMessage data = s.answer data.txid data.id) ∨
      (data.cmd = kExecTranFail ∧ s.onMessage data = s.retryLater data.txid data.id) ∨
        s.onMessage data = s := by
  unfold onMessage solve
  split
  · rename_i h
    exact Or.inl ⟨h, rfl⟩
  · rename_i h
    exact Or.inr (Or.inl ⟨h, rfl⟩)
  · exact Or.inr (Or.inr rfl)

/-- A failure counts the retry and sets a timer for a transaction that has retries, or ends the
process. -/
theorem retryLater_eq (txid id : Int) (s : LogPlayer D) :
    ∃ retryTable timeWheel crashed,
      s.retryLater txid id = { s with retryTable, timeWheel, crashed } ∧
      (∀ x, (retryTable x).length = (s.retryTable x).length) ∧
      (timeWheel = s.timeWheel ∨ 0 < (s.retryTable txid).length ∧
        ∃ timeout, timeWheel = (s.timeWheel.addTimer timeout txid).1) := by
  unfold retryLater
  split
  · rename_i hid
    have hlength : ∀ time x, (Function.update s.retryTable txid
        ((s.retryTable txid).set id.toNat time) x).length = (s.retryTable x).length := by
      intro time x
      by_cases hx : x = txid
      · subst hx
        simp
      · simp [hx]
    dsimp only
    split
    · exact ⟨_, _, _, rfl, hlength _, Or.inl rfl⟩
    · exact ⟨_, _, _, rfl, hlength _, Or.inr ⟨Nat.zero_lt_of_lt hid.2, _, rfl⟩⟩
  · exact ⟨_, _, _, rfl, fun _ => rfl, Or.inl rfl⟩

theorem mem_sendsTo {msg : DbMsg} {l : List Nat} {s : LogPlayer D} {e : LogPlayerEvent D} :
    e ∈ s.sendsTo msg l ↔
      ∃ pos ∈ l, ∃ conn, s.dbConnVec[pos]? = some conn ∧ e = .send pos conn msg := by
  simp only [sendsTo, List.mem_filterMap, Option.map_eq_some_iff]
  constructor
  · rintro ⟨pos, hpos, conn, hconn, rfl⟩
    exact ⟨pos, hpos, conn, hconn, rfl⟩
  · rintro ⟨pos, hpos, conn, hconn, rfl⟩
    exact ⟨pos, hpos, conn, hconn, rfl⟩

/-- What a play sends. -/
theorem of_send_mem_play {y : Int} {msg msg' : DbMsg} {l : List Nat} {s : LogPlayer D} {pos : Nat}
    {conn : D} (h : .send pos conn msg' ∈ .playLog y :: s.sendsTo msg l) :
    pos ∈ l ∧ s.dbConnVec[pos]? = some conn ∧ msg' = msg := by
  have hsend := (List.mem_cons.1 h).resolve_left (by simp)
  obtain ⟨pos', hpos, conn', hconn, heq⟩ := mem_sendsTo.1 hsend
  obtain ⟨rfl, rfl, rfl⟩ := LogPlayerEvent.send.inj heq
  exact ⟨hpos, hconn, rfl⟩

/-! ### Positions stay in range -/

theorem InRange.playLog {s : LogPlayer D} (h : s.InRange) (logs : List LogInfo) (txid : Int) :
    (s.playLog logs txid).InRange := by
  rw [playLog_eq h]
  exact h.enroll txid

theorem InRange.onDbConnection {s : LogPlayer D} (h : s.InRange) (conn : D) :
    (s.onDbConnection conn).InRange := by
  intro x l hl pos hpos
  have hlt := h x l hl pos hpos
  simp only [LogPlayer.onDbConnection, List.length_append, List.length_singleton]
  omega

/-- A success takes positions from a list. -/
theorem mem_of_mem_answer {txid id x : Int} {s : LogPlayer D} {pos : Nat}
    (h : pos ∈ ((s.answer txid id).answerTable x).getD []) :
    pos ∈ (s.answerTable x).getD [] := by
  by_cases hx : x = txid
  · subst hx
    simp only [answer, emit, Function.update_self, Option.getD_some] at h
    exact List.mem_of_mem_filter h
  · simpa [answer, emit, hx] using h

theorem InRange.answer {s : LogPlayer D} (h : s.InRange) (txid id : Int) :
    (s.answer txid id).InRange := by
  intro x l hl pos hpos
  have hmem : pos ∈ (s.answerTable x).getD [] := mem_of_mem_answer (by
    rw [hl]
    exact hpos)
  cases hx : s.answerTable x with
  | none => simp [hx] at hmem
  | some l' => exact h x l' hx pos (by simpa [hx] using hmem)

theorem InRange.onMessage {s : LogPlayer D} (h : s.InRange) (data : LogPlayerMsg) :
    (s.onMessage data).InRange := by
  rcases onMessage_cases data s with ⟨-, heq⟩ | ⟨-, heq⟩ | heq
  · exact heq ▸ h.answer data.txid data.id
  · obtain ⟨retryTable, timeWheel, crashed, hretry, -⟩ := retryLater_eq data.txid data.id s
    rw [heq, hretry]
    exact h
  · rw [heq]
    exact h

theorem InRange.retryAll {s : LogPlayer D} (h : s.InRange) (table : Int → List LogInfo)
    (called : List (Timer Int)) : (s.retryAll table called).InRange := by
  induction called generalizing s with
  | nil => exact h
  | cons t called ih =>
      unfold LogPlayer.retryAll
      split
      · exact h
      · exact ih (h.playLog _ _)

theorem InRange.poll {s : LogPlayer D} (h : s.InRange) (table : Int → List LogInfo)
    (reading : Nat) : (s.poll table reading).InRange :=
  InRange.retryAll (s := { s with timeWheel := (s.timeWheel.takeAllTimeout reading).1 }) h table _

end LogPlayer

end Grit
