import Mathlib.Data.List.Basic
import Grit.Dbtl.Basic

/-!
# What becomes of a log

The outcome of the tasks that a `kLog` message leads to, on either path: if a pointer of the
message is null, the process ends before it replies; otherwise the calls are made in the
order of the items, and the reply comes last.
-/

namespace Grit

open Cmd

/-- The text of an item in the file. -/
def LogInfo.record (log : LogInfo) : String :=
  log.key ++ "#" ++ log.attr ++ ":" ++ log.value ++ "@"

/-- The entry of an item in the write batch. -/
def LogInfo.put (log : LogInfo) : String × String :=
  (log.key, log.attr ++ ":" ++ log.value ++ "@")

namespace Dbtl

variable {C : Type*}

/-- The items of a message; `none` if a pointer of it is null. -/
def decodeLogs (data : Option (List FlatData)) : Option (List LogInfo) :=
  data.bind fun l => l.mapM decodeLog

/-- The task that `solve` queues for a `kLog` message. -/
def logTask (useRocksDb : Bool) (txid : Int) (data : Option (List FlatData)) (conn : C) :
    DbtlTask C :=
  if useRocksDb then .writeToDiskByRocksDb txid data conn else .writeToDisk txid data conn

theorem solve_log (conn : C) {dbtl : DbtlMsg} (h : dbtl.cmd = kLog) (s : Dbtl C) :
    s.solve conn dbtl =
      { s with tasks := s.tasks ++ [logTask s.useRocksDb dbtl.txid dbtl.data conn] } := by
  unfold solve logTask
  rw [h]
  dsimp only
  split <;> rfl

/-! ### The file path -/

/-- The calls of `writeToDisk` for the items `logs`. -/
def writes (txid : Int) (logs : List LogInfo) : List (DbtlEvent C) :=
  logs.map fun log => .write (toString txid) log.record

theorem writeItems_of_some (txid : Int) {l : List FlatData} {logs : List LogInfo}
    (h : l.mapM decodeLog = some logs) (s : Dbtl C) :
    writeItems txid l s = { s with
      out := s.out ++ writes txid logs
      logTable := Function.update s.logTable txid (s.logTable txid ++ logs) } := by
  induction l generalizing logs s with
  | nil =>
      have hnil : logs = [] := by simpa using h.symm
      subst hnil
      simp [writeItems, writes]
  | cons d l ih =>
      simp only [List.mapM_cons, Option.bind_eq_bind, Option.bind_eq_some_iff] at h
      obtain ⟨log, hlog, rest, hrest, heq⟩ := h
      obtain rfl := Option.some.inj heq
      unfold writeItems
      simp only [hlog]
      rw [ih hrest]
      simp [writes, emit, LogInfo.record]

theorem writeItems_of_none (txid : Int) {l : List FlatData} (h : l.mapM decodeLog = none)
    (s : Dbtl C) :
    (writeItems txid l s).crashed = true ∧
      ∃ logs, (writeItems txid l s).out = s.out ++ writes txid logs := by
  induction l generalizing s with
  | nil => simp at h
  | cons d l ih =>
      unfold writeItems
      cases hlog : decodeLog d with
      | none => exact ⟨rfl, [], by simp [writes]⟩
      | some log =>
          have hrest : l.mapM decodeLog = none := by
            cases hl : l.mapM decodeLog with
            | none => rfl
            | some logs => simp [List.mapM_cons, hlog, hl] at h
          obtain ⟨hc, logs, hout⟩ := ih hrest _
          refine ⟨hc, log :: logs, ?_⟩
          dsimp only at hout ⊢
          rw [hout]
          simp [emit, writes, LogInfo.record]

/-! ### Both paths -/

/-- The calls and messages of a log task on the items `logs`. -/
def logEvents (useRocksDb : Bool) (txid : Int) (logs : List LogInfo) (conn : C) :
    List (DbtlEvent C) :=
  if useRocksDb then
    [.rocksWrite (logs.map LogInfo.put), .send conn (createDbtmMsg kTranSuccess txid)]
  else
    .openFile (toString txid) :: (writes txid logs ++
      [.closeFile (toString txid), .playLog txid, .send conn (createDbtmMsg kTranSuccess txid)])

/-- The log of `txid` after a log task. -/
def logAfter (useRocksDb : Bool) (txid : Int) (logs : List LogInfo)
    (table : Int → List LogInfo) : Int → List LogInfo :=
  if useRocksDb then table else Function.update table txid (table txid ++ logs)

theorem exec_logTask_of_some (useRocksDb : Bool) (txid : Int)
    {data : Option (List FlatData)} {logs : List LogInfo} (h : decodeLogs data = some logs)
    (conn : C) {s : Dbtl C} (hs : s.crashed = false) :
    s.exec (logTask useRocksDb txid data conn) = { s with
      out := s.out ++ logEvents useRocksDb txid logs conn
      logTable := logAfter useRocksDb txid logs s.logTable } := by
  cases useRocksDb with
  | true =>
      simp only [decodeLogs] at h
      simp [logTask, exec, writeToDiskByRocksDb, h, retResult, emit, logEvents, logAfter,
        LogInfo.put]
  | false =>
      obtain ⟨l, rfl, hl⟩ := Option.bind_eq_some_iff.1 h
      simp [logTask, exec, writeToDisk, writeItems_of_some txid hl, hs, retResult, emit,
        logEvents, logAfter]

theorem exec_logTask_of_none (useRocksDb : Bool) (txid : Int)
    {data : Option (List FlatData)} (h : decodeLogs data = none) (conn : C) (s : Dbtl C) :
    (s.exec (logTask useRocksDb txid data conn)).crashed = true ∧
      ∃ es, (s.exec (logTask useRocksDb txid data conn)).out = s.out ++ es ∧
        (es = [] ∨ useRocksDb = false ∧
          ∃ logs, es = .openFile (toString txid) :: writes txid logs) := by
  cases useRocksDb with
  | true =>
      simp only [decodeLogs] at h
      exact ⟨by simp [logTask, exec, writeToDiskByRocksDb, h], [],
        by simp [logTask, exec, writeToDiskByRocksDb, h], Or.inl rfl⟩
  | false =>
      cases data with
      | none =>
          exact ⟨rfl, [.openFile (toString txid)], rfl, Or.inr ⟨rfl, [], rfl⟩⟩
      | some l =>
          obtain ⟨hc, logs, hout⟩ := writeItems_of_none txid h
            (s.emit (.openFile (toString txid)))
          have hexec : s.exec (logTask false txid (some l) conn) =
              writeItems txid l (s.emit (.openFile (toString txid))) := if_pos hc
          refine ⟨hexec ▸ hc, .openFile (toString txid) :: writes txid logs, ?_,
            Or.inr ⟨rfl, logs, rfl⟩⟩
          rw [hexec, hout]
          exact List.append_assoc _ [_] _

end Dbtl

end Grit
