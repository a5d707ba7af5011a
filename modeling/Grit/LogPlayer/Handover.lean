import Grit.Dbtl.Log
import Grit.LogPlayer.Basic

/-!
# What a DBTL gives to its log player

Only the task of the file path plays, and what it plays is in the table by then. The items of the
table are those of the message.
-/

namespace Grit

open Cmd

namespace Dbtl

variable {C : Type*}

def plays (es : List (DbtlEvent C)) : List Int :=
  es.filterMap fun e =>
    match e with
    | .playLog txid => some txid
    | _ => none

theorem plays_writes (txid : Int) (logs : List LogInfo) :
    plays (writes txid logs : List (DbtlEvent C)) = [] := by
  simp [plays, writes]

/-- The items that are kept are those of the message. -/
theorem encode_decodeLogs {data : Option (List FlatData)} {logs : List LogInfo}
    (h : decodeLogs data = some logs) : data = some (logs.map LogPlayer.encodeLog) := by
  obtain ⟨l, rfl, hl⟩ := Option.bind_eq_some_iff.1 h
  refine congrArg some (map_of_mapM ?_ hl).symm
  rintro ⟨key, attr, value⟩ log hlog
  simp only [decodeLog, Option.bind_eq_some_iff, Option.map_eq_some_iff] at hlog
  obtain ⟨k, rfl, a, rfl, v, rfl, rfl⟩ := hlog
  rfl

/-- A step that plays nothing: it leaves the table, unless it ends the process. -/
structure Silent (d d' : Dbtl C) : Prop where
  table : d'.crashed = false → d'.logTable = d.logTable
  crashed : d.crashed = true → d'.crashed = true
  out : ∃ es, d'.out = d.out ++ es ∧ plays es = []

/-- The items of the task `t` are added to the table and played. -/
structure Plays (t : DbtlTask C) (logs : List LogInfo) (d d' : Dbtl C) : Prop where
  data : t.data = some (logs.map LogPlayer.encodeLog)
  table : d'.logTable = Function.update d.logTable t.txid (d.logTable t.txid ++ logs)
  out : ∃ es, d'.out = d.out ++ es ∧ plays es = [t.txid]

theorem silent_refl (d : Dbtl C) : Silent d d := ⟨fun _ => rfl, id, [], by simp, rfl⟩

theorem exists_logTask (t : DbtlTask C) :
    ∃ useRocksDb, t = logTask useRocksDb t.txid t.data t.conn := by
  cases t with
  | writeToDisk txid data conn => exact ⟨false, rfl⟩
  | writeToDiskByRocksDb txid data conn => exact ⟨true, rfl⟩

theorem silent_of_messageStep {conn : C} {msg : RootMsg} {d d' : Dbtl C}
    (h : MessageStep conn msg d d') : Silent d d' := by
  cases h with
  | skip => exact silent_refl d
  | log data hmsg hcmd t htxid hconn hdata => exact ⟨fun _ => rfl, id, [], by simp, rfl⟩
  | lsn data hmsg hcmd b => exact ⟨fun _ => rfl, id, _, rfl, rfl⟩

theorem exec_plays (t : DbtlTask C) {d : Dbtl C} (hlive : d.crashed = false) :
    Silent d (d.exec t) ∨ ∃ logs, Plays t logs d (d.exec t) := by
  obtain ⟨useRocksDb, ht⟩ := exists_logTask t
  cases hlogs : decodeLogs t.data with
  | none =>
      obtain ⟨hcrashed, es, hout, hes⟩ := exec_logTask_of_none useRocksDb t.txid hlogs t.conn d
      rw [← ht] at hcrashed hout
      refine Or.inl ⟨fun hc => absurd hcrashed (by simp [hc]), fun _ => hcrashed, es, hout, ?_⟩
      rcases hes with rfl | ⟨-, logs, rfl⟩
      · rfl
      · exact plays_writes t.txid logs
  | some logs =>
      have hexec := exec_logTask_of_some useRocksDb t.txid hlogs t.conn hlive
      rw [← ht] at hexec
      rw [hexec]
      cases useRocksDb with
      | true => exact Or.inl ⟨fun _ => rfl, id, _, rfl, rfl⟩
      | false =>
          refine Or.inr ⟨logs, encode_decodeLogs hlogs, rfl, _, rfl, ?_⟩
          have hwrites := plays_writes (C := C) t.txid logs
          simp only [plays] at hwrites
          simp [plays, logEvents, hwrites]

theorem runTask_plays (i : Nat) {d : Dbtl C} (hlive : d.crashed = false) :
    Silent d (d.runTask i) ∨
      ∃ t logs, d.tasks[i]? = some t ∧ Plays t logs d (d.runTask i) := by
  unfold runTask
  cases ht : d.tasks[i]? with
  | none => exact Or.inl (silent_refl d)
  | some t =>
      rcases exec_plays t (d := { d with tasks := d.tasks.eraseIdx i }) hlive with h | ⟨logs, h⟩
      · exact Or.inl ⟨h.table, h.crashed, h.out⟩
      · exact Or.inr ⟨t, logs, rfl, h.data, h.table, h.out⟩

end Dbtl

end Grit
