import Grit.Dbtl.Log
import Grit.Library.Stores

/-!
# What a log leaves in storage

The storage calls of `dbtl.cc` act on the files and on the database of the process. The
file of a log is opened with `O_CREAT | O_RDONLY`, so that every `write` to it is refused,
and neither path looks at the outcome of a call before it reports success. A call to the
database stores the whole batch or nothing.
-/

namespace Grit

open Cmd

/-- The files, the descriptor of the running task, and the batches that were accepted. -/
structure Storage where
  files : Files
  fd : Option Files.Descriptor
  batches : List (List (String × String))

namespace Storage

variable {C : Type*}

def empty : Storage := { files := fun _ => none, fd := none, batches := [] }

/-- One call of the process, with its outcome. -/
def perform (ok : Bool) (e : DbtlEvent C) (st : Storage) : Storage :=
  match e with
  | .openFile name =>
      let (files, fd) := Files.openFile ok .readOnly name st.files
      { st with files, fd }
  | .write _ text => { st with files := Files.write ok st.fd text.toList st.files }
  | .closeFile _ => { st with fd := none }
  | .rocksWrite batch => if ok then { st with batches := st.batches ++ [batch] } else st
  | .send _ _ => st
  | .playLog _ => st

/-- The calls of `es`; the `i`-th has the outcome `ok i`. -/
def replay (ok : Nat → Bool) : List (DbtlEvent C) → Storage → Storage
  | [], st => st
  | e :: es, st => replay (fun i => ok (i + 1)) es (perform (ok 0) e st)

theorem replay_writes (ok : Nat → Bool) (txid : Int) (logs : List LogInfo)
    (es : List (DbtlEvent C)) {st : Storage} (h : Files.Refuses st.fd) :
    replay ok (Dbtl.writes txid logs ++ es) st = replay (fun i => ok (i + logs.length)) es st := by
  induction logs generalizing ok with
  | nil => rfl
  | cons log logs ih =>
      have hstep : perform (ok 0) (.write (toString txid) log.record : DbtlEvent C) st = st := by
        simp only [perform, Files.write_of_refuses h]
      change replay _ (Dbtl.writes txid logs ++ es) (perform (ok 0) _ st) = _
      rw [hstep, ih]
      simp only [List.length_cons, Nat.add_assoc]

/-- The descriptor of a log file refuses every write. -/
theorem refuses_open (ok : Bool) (name : String) (st : Storage) :
    Files.Refuses (perform ok (.openFile name : DbtlEvent C) st).fd :=
  Files.refuses_openFile ok name st.files

/-- The file path leaves what `open` left. -/
theorem replay_logEvents_file (ok : Nat → Bool) (txid : Int) (logs : List LogInfo) (conn : C)
    (st : Storage) :
    (replay ok (Dbtl.logEvents false txid logs conn) st).files =
      (Files.openFile (ok 0) .readOnly (toString txid) st.files).1 := by
  change (replay _ (Dbtl.writes txid logs ++ _) (perform (ok 0) _ st)).files = _
  rw [replay_writes _ _ _ _ (refuses_open _ _ _)]
  rfl

theorem replay_logEvents_rocks (ok : Nat → Bool) (txid : Int) (logs : List LogInfo) (conn : C)
    (st : Storage) :
    (replay ok (Dbtl.logEvents true txid logs conn) st).batches =
      if ok 0 then st.batches ++ [logs.map LogInfo.put] else st.batches := by
  simp only [Dbtl.logEvents, if_true, replay, perform]
  split <;> rfl

end Storage

namespace Dbtl

variable {C : Type*}

/-- The events of a log task. -/
def logged (d : Dbtl C) (txid : Int) (data : Option (List FlatData)) (conn : C) :
    List (DbtlEvent C) :=
  (d.exec (logTask d.useRocksDb txid data conn)).out.drop d.out.length

theorem logged_of_some {d : Dbtl C} (hd : d.crashed = false) (txid : Int)
    {data : Option (List FlatData)} {logs : List LogInfo} (h : decodeLogs data = some logs)
    (conn : C) : d.logged txid data conn = logEvents d.useRocksDb txid logs conn := by
  rw [logged, exec_logTask_of_some d.useRocksDb txid h conn hd]
  exact List.drop_left

theorem logged_of_none (d : Dbtl C) (txid : Int) {data : Option (List FlatData)}
    (h : decodeLogs data = none) (conn : C) :
    d.logged txid data conn = [] ∨ d.useRocksDb = false ∧
      ∃ logs, d.logged txid data conn = .openFile (toString txid) :: writes txid logs := by
  obtain ⟨-, es, hout, hes⟩ := exec_logTask_of_none d.useRocksDb txid h conn d
  have hlogged : d.logged txid data conn = es := by
    rw [logged, hout]
    exact List.drop_left
  rwa [hlogged]

@[simp]
theorem sends_writes (txid : Int) (logs : List LogInfo) :
    sends (writes txid logs : List (DbtlEvent C)) = [] := by
  simp [sends, writes]

theorem sends_append (es es' : List (DbtlEvent C)) :
    sends (es ++ es') = sends es ++ sends es' := List.filterMap_append

theorem sends_logEvents (useRocksDb : Bool) (txid : Int) (logs : List LogInfo) (conn : C) :
    sends (logEvents useRocksDb txid logs conn) = [(conn, createDbtmMsg kTranSuccess txid)] := by
  cases useRocksDb with
  | true => rfl
  | false =>
      change sends (writes txid logs ++ _) = _
      rw [sends_append, sends_writes]
      rfl

/-- A process that ends on a null pointer sends nothing. -/
theorem sends_logged_of_none (d : Dbtl C) (txid : Int) {data : Option (List FlatData)}
    (h : decodeLogs data = none) (conn : C) : sends (d.logged txid data conn) = [] := by
  rcases d.logged_of_none txid h conn with hes | ⟨-, logs, hes⟩
  · rw [hes]
    rfl
  · rw [hes]
    exact sends_writes txid logs

/-! ### Success and durability -/

/-- The texts of the items, in order. -/
def recordText (logs : List LogInfo) : List Char := logs.flatMap fun log => log.record.toList

/-- The items were stored between `st` and `st'`: the file of `txid` ends with them, or
their batch was accepted. -/
def Persisted (useRocksDb : Bool) (txid : Int) (logs : List LogInfo) (st st' : Storage) : Prop :=
  if useRocksDb then st'.batches = st.batches ++ [logs.map LogInfo.put]
  else ∃ content, st'.files (toString txid) = some content ∧ recordText logs <:+ content

/-- Success is reported only if the items are in storage. -/
def Durable (d : Dbtl C) (txid : Int) (data : Option (List FlatData)) (conn : C)
    (ok : Nat → Bool) (st : Storage) : Prop :=
  (conn, createDbtmMsg kTranSuccess txid) ∈ sends (d.logged txid data conn) →
    ∃ logs, decodeLogs data = some logs ∧
      Persisted d.useRocksDb txid logs st (st.replay ok (d.logged txid data conn))

/-- The items are in storage already, or the only call that can store them will succeed. -/
def Storable (useRocksDb : Bool) (txid : Int) (logs : List LogInfo) (ok : Nat → Bool)
    (st : Storage) : Prop :=
  if useRocksDb then ok 0 = true
  else (∃ content, st.files (toString txid) = some content ∧ recordText logs <:+ content) ∨
    st.files (toString txid) = none ∧ ok 0 = true ∧ logs = []

theorem recordText_eq_nil {logs : List LogInfo} : recordText logs = [] ↔ logs = [] := by
  cases logs with
  | nil => simp [recordText]
  | cons log logs => simp [recordText, LogInfo.record]

theorem persisted_iff_storable (useRocksDb : Bool) (txid : Int) (logs : List LogInfo) (conn : C)
    (ok : Nat → Bool) (st : Storage) :
    Persisted useRocksDb txid logs st (st.replay ok (logEvents useRocksDb txid logs conn)) ↔
      Storable useRocksDb txid logs ok st := by
  cases useRocksDb with
  | true =>
      simp only [Persisted, Storable, if_true, Storage.replay_logEvents_rocks]
      cases ok 0 <;> simp
  | false =>
      simp only [Persisted, Storable, Bool.false_eq_true, if_false,
        Storage.replay_logEvents_file, Files.openFile_self]
      -- whether the file existed decides what `open` leaves
      cases hfile : st.files (toString txid) <;> cases ok 0 <;>
        simp [recordText_eq_nil]

theorem durable_iff_storable {d : Dbtl C} (hd : d.crashed = false) (txid : Int)
    {data : Option (List FlatData)} {logs : List LogInfo} (h : decodeLogs data = some logs)
    (conn : C) (ok : Nat → Bool) (st : Storage) :
    d.Durable txid data conn ok st ↔ Storable d.useRocksDb txid logs ok st := by
  simp only [Durable, logged_of_some hd txid h conn, sends_logEvents, h, List.mem_singleton,
    true_imp_iff, Option.some.injEq, exists_eq_left', persisted_iff_storable]

/-- What the reply promises is stored exactly if each log that it is for could be stored. -/
theorem durable_iff (d : Dbtl C) (hd : d.crashed = false) (txid : Int)
    (data : Option (List FlatData)) (conn : C) (ok : Nat → Bool) (st : Storage) :
    d.Durable txid data conn ok st ↔
      ∀ logs, decodeLogs data = some logs → Storable d.useRocksDb txid logs ok st := by
  cases hdata : decodeLogs data with
  | none => simp [Durable, sends_logged_of_none d txid hdata conn]
  | some logs =>
      rw [durable_iff_storable hd txid hdata]
      simp

/-- The database accepts the batch of a new process. -/
theorem durable_rocks :
    (init true : Dbtl Unit).Durable 7 (some [⟨some "k", some "a", some "1"⟩]) () (fun _ => true)
      Storage.empty :=
  (durable_iff (init true) rfl 7 _ () _ _).2 fun _ _ => rfl

/-- A new process that writes files reports success although every call succeeds and the
file stays empty. -/
theorem not_durable_file :
    ¬(init false : Dbtl Unit).Durable 7 (some [⟨some "k", some "a", some "1"⟩]) ()
        (fun _ => true) Storage.empty ∧
      sends ((init false : Dbtl Unit).logged 7 (some [⟨some "k", some "a", some "1"⟩]) ()) =
        [((), createDbtmMsg kTranSuccess 7)] ∧
      (Storage.empty.replay (fun _ => true)
        ((init false : Dbtl Unit).logged 7 (some [⟨some "k", some "a", some "1"⟩]) ())).files
          (toString 7) = some [] := by
  have hdata : decodeLogs (some [⟨some "k", some "a", some "1"⟩]) = some [⟨"k", "a", "1"⟩] := rfl
  have hlogged := logged_of_some (d := (init false : Dbtl Unit)) rfl 7 hdata ()
  refine ⟨?_, ?_, ?_⟩
  · rw [durable_iff_storable rfl 7 hdata]
    simp [Storable, init, Storage.empty]
  · rw [hlogged, sends_logEvents]
  · rw [hlogged]
    exact congrFun (Storage.replay_logEvents_file _ _ _ _ _) (toString 7)

/-! ### The two paths -/

/-- An attribute and its value, from `attribute:value`. -/
def readAttr (text : List Char) : String × String :=
  (String.ofList (text.takeWhile (· ≠ ':')), String.ofList ((text.dropWhile (· ≠ ':')).drop 1))

/-- The records `key#attribute:value` of a file, each ended by `@`. -/
def readRecords (content : List Char) : List (String × String × String) :=
  (content.splitOn '@').dropLast.map fun text =>
    (String.ofList (text.takeWhile (· ≠ '#')), readAttr ((text.dropWhile (· ≠ '#')).drop 1))

/-- The value that the file of `txid` holds for an attribute of a key: that of its last record. -/
def fileValue (st : Storage) (txid : Int) (key attr : String) : Option String :=
  (((readRecords ((st.files (toString txid)).getD [])).filter fun r =>
    r.1 = key ∧ r.2.1 = attr).getLast?).map fun r => r.2.2

/-- The value that the database holds for an attribute of a key. A put replaces the whole
value of its key. -/
def rocksValue (st : Storage) (key attr : String) : Option String :=
  match (st.batches.flatten.filter fun p => p.1 = key).getLast? with
  | none => none
  | some p =>
      let found := readAttr p.2.toList.dropLast
      if found.1 = attr then some found.2 else none

/-- The logs that the task hands to `LogPlayer::playLog`. -/
def playedLogs (d : Dbtl C) (txid : Int) (data : Option (List FlatData)) (conn : C) :
    List (Int × List LogInfo) :=
  (d.logged txid data conn).filterMap fun e =>
    match e with
    | .playLog x => some (x, (d.exec (logTask d.useRocksDb txid data conn)).logTable x)
    | _ => none

/-- The process with `dbtlUseRocksDb` set to `b`. -/
def onPath (b : Bool) (d : Dbtl C) : Dbtl C := { d with useRocksDb := b }

/-- Handling `kLog` with and without RocksDB has the same effect, when the storage calls of
each path have the outcomes `ok`. -/
structure PathsAgree (d : Dbtl C) (txid : Int) (data : Option (List FlatData)) (conn : C)
    (ok : Bool → Nat → Bool) : Prop where
  stored : ∀ key attr,
    fileValue (Storage.empty.replay (ok false)
      ((d.onPath false).logged txid data conn)) txid key attr =
    rocksValue (Storage.empty.replay (ok true)
      ((d.onPath true).logged txid data conn)) key attr
  played : (d.onPath false).playedLogs txid data conn =
    (d.onPath true).playedLogs txid data conn
  replied : sends ((d.onPath false).logged txid data conn) =
    sends ((d.onPath true).logged txid data conn)

theorem playedLogs_eq (d : Dbtl C) (hd : d.crashed = false) (txid : Int)
    {data : Option (List FlatData)} {logs : List LogInfo} (h : decodeLogs data = some logs)
    (conn : C) :
    d.playedLogs txid data conn =
      if d.useRocksDb then [] else [(txid, d.logTable txid ++ logs)] := by
  rw [playedLogs, logged_of_some hd txid h, exec_logTask_of_some _ txid h conn hd]
  cases d.useRocksDb with
  | true => rfl
  | false => simp [logEvents, writes, logAfter]

theorem playedLogs_of_none (d : Dbtl C) (txid : Int) {data : Option (List FlatData)}
    (h : decodeLogs data = none) (conn : C) : d.playedLogs txid data conn = [] := by
  rcases d.logged_of_none txid h conn with hes | ⟨-, logs, hes⟩
  · simp [playedLogs, hes]
  · simp [playedLogs, hes, writes]

/-- A process that ends on a null pointer has stored nothing; at most its file was created. -/
theorem replay_logged_of_none (d : Dbtl C) (txid : Int) {data : Option (List FlatData)}
    (h : decodeLogs data = none) (conn : C) (ok : Nat → Bool) :
    ((Storage.empty.replay ok (d.logged txid data conn)).files (toString txid)).getD [] = [] ∧
      (Storage.empty.replay ok (d.logged txid data conn)).batches = [] := by
  rcases d.logged_of_none txid h conn with hes | ⟨-, logs, hes⟩
  · rw [hes]
    exact ⟨rfl, rfl⟩
  · have hreplay : Storage.empty.replay ok (d.logged txid data conn) =
        Storage.empty.perform (ok 0) (.openFile (toString txid) : DbtlEvent C) := by
      rw [hes, ← List.append_nil (writes txid logs)]
      exact Storage.replay_writes _ txid logs [] (Storage.refuses_open _ _ _)
    rw [hreplay]
    refine ⟨?_, rfl⟩
    have hopen := Files.openFile_self (ok 0) .readOnly (toString txid) Storage.empty.files
    simp only [Storage.perform, hopen]
    cases ok 0 <;> rfl

theorem fileValue_of_nil {st : Storage} {txid : Int}
    (h : (st.files (toString txid)).getD [] = []) (key attr : String) :
    fileValue st txid key attr = none := by
  rw [fileValue, h]
  rfl

theorem rocksValue_of_nil {st : Storage} (h : st.batches = []) (key attr : String) :
    rocksValue st key attr = none := by
  rw [rocksValue, h]
  rfl

/-- The two ways to store a log agree only on a message whose strings are not all set, which ends
the process. -/
theorem pathsAgree_iff (d : Dbtl C) (hd : d.crashed = false) (txid : Int)
    (data : Option (List FlatData)) (conn : C) (ok : Bool → Nat → Bool) :
    d.PathsAgree txid data conn ok ↔ decodeLogs data = none := by
  constructor
  · intro h
    by_contra hdata
    obtain ⟨logs, hlogs⟩ := Option.ne_none_iff_exists'.1 hdata
    have hplayed := h.played
    rw [playedLogs_eq (d.onPath false) hd txid hlogs,
      playedLogs_eq (d.onPath true) hd txid hlogs] at hplayed
    simp [onPath] at hplayed
  · intro h
    refine ⟨fun key attr => ?_, ?_, ?_⟩
    · rw [fileValue_of_nil ((d.onPath false).replay_logged_of_none txid h conn _).1,
        rocksValue_of_nil ((d.onPath true).replay_logged_of_none txid h conn _).2]
    · rw [playedLogs_of_none _ txid h, playedLogs_of_none _ txid h]
    · rw [sends_logged_of_none _ txid h, sends_logged_of_none _ txid h]

/-- Both paths end on a message without data. -/
theorem pathsAgree_null :
    (init false : Dbtl Unit).PathsAgree 7 none () fun _ _ => true :=
  (pathsAgree_iff (init false) rfl 7 none () _).2 rfl

/-- Two attributes of one key. -/
def twoAttributes : Option (List FlatData) :=
  some [⟨some "k", some "a", some "1"⟩, ⟨some "k", some "b", some "2"⟩]

/-- What a new process stores of them on a path, when every call succeeds. -/
def storedAttributes (b : Bool) : Storage :=
  Storage.empty.replay (fun _ => true) ((init b : Dbtl Unit).logged 7 twoAttributes ())

/-- The database keeps the last of the attributes, the file keeps none, and only the file path
hands the log on. -/
theorem not_pathsAgree_attributes :
    ¬(init false : Dbtl Unit).PathsAgree 7 twoAttributes () (fun _ _ => true) ∧
      rocksValue (storedAttributes true) "k" "a" = none ∧
      rocksValue (storedAttributes true) "k" "b" = some "2" ∧
      fileValue (storedAttributes false) 7 "k" "b" = none ∧
      (init true : Dbtl Unit).playedLogs 7 twoAttributes () = [] ∧
      (init false : Dbtl Unit).playedLogs 7 twoAttributes () =
        [(7, [⟨"k", "a", "1"⟩, ⟨"k", "b", "2"⟩])] := by
  refine ⟨fun h => absurd h.played (by decide), ?_⟩
  decide

end Dbtl

end Grit
