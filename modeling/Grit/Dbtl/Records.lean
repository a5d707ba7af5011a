import Grit.Library.Framing
import Grit.Dbtl.Log
import Grit.LogPlayer.Basic

/-!
# The format of the log file

`writeToDisk` writes an item as `key#attribute:value@`, whatever characters the strings have. A
file determines its items if no key has a `#`, no attribute a `:` and no value an `@`; as soon as
one more item is allowed beside these, there are two lists with the same file.
-/

namespace Grit

namespace LogInfo

def fields (log : LogInfo) : List (List Char) :=
  [log.key.toList, log.attr.toList, log.value.toList]

/-- No string of the item has the character that ends it in the file. -/
def Plain (log : LogInfo) : Prop :=
  '#' ∉ log.key.toList ∧ ':' ∉ log.attr.toList ∧ '@' ∉ log.value.toList

theorem fields_injective : Function.Injective fields := by
  rintro ⟨k, a, v⟩ ⟨k', a', v'⟩ h
  simpa [fields, String.toList_inj] using h

theorem plain_fields_iff (log : LogInfo) :
    Delimited.Plain ['#', ':', '@'] log.fields ↔ log.Plain := by
  simp [Delimited.Plain, fields, Plain]

theorem record_toList (log : LogInfo) :
    log.record.toList = Delimited.encodeRecord ['#', ':', '@'] log.fields := by
  simp [record, fields, Delimited.encodeRecord]

/-- Every plain record of three fields is one of an item. -/
theorem exists_fields {r : List (List Char)} (h : Delimited.Plain ['#', ':', '@'] r) :
    ∃ log : LogInfo, log.fields = r := by
  simp only [Delimited.Plain, List.forall₂_cons_right_iff, List.forall₂_nil_right_iff] at h
  obtain ⟨k, _, -, ⟨a, _, -, ⟨v, _, -, rfl, rfl⟩, rfl⟩, rfl⟩ := h
  exact ⟨⟨String.ofList k, String.ofList a, String.ofList v⟩, by simp [fields]⟩

end LogInfo

namespace Dbtl

variable {C : Type*}

/-- The bytes of the calls of `write`. -/
def written (es : List (DbtlEvent C)) : List Char :=
  es.flatMap fun e =>
    match e with
    | .write _ text => text.toList
    | _ => []

/-- What a new process writes to the file of a transaction with the items `logs`. -/
def logFile (txid : Int) (logs : List LogInfo) : List Char :=
  written ((init false : Dbtl Unit).writeToDisk txid (some (logs.map LogPlayer.encodeLog)) ()).out

/-- Lists of the items in `P` with the same file are the same. -/
def Unambiguous (P : LogInfo → Prop) : Prop :=
  ∀ txid logs logs', (∀ log ∈ logs, P log) → (∀ log ∈ logs', P log) →
    logFile txid logs = logFile txid logs' → logs = logs'

theorem written_writes (txid : Int) (logs : List LogInfo) :
    written (writes txid logs : List (DbtlEvent C)) =
      logs.flatMap fun log => log.record.toList := by
  induction logs with
  | nil => rfl
  | cons log logs ih => exact congrArg (log.record.toList ++ ·) ih

theorem mapM_decodeLog (logs : List LogInfo) :
    (logs.map LogPlayer.encodeLog).mapM decodeLog = some logs := by
  induction logs with
  | nil => rfl
  | cons log logs ih => simp [ih, decodeLog, LogPlayer.encodeLog, createData]

theorem logFile_eq (txid : Int) (logs : List LogInfo) :
    logFile txid logs = Delimited.encode ['#', ':', '@'] (logs.map LogInfo.fields) := by
  have hitems : decodeLogs (some (logs.map LogPlayer.encodeLog)) = some logs :=
    mapM_decodeLog logs
  have hexec := exec_logTask_of_some false txid hitems () (s := init false) rfl
  have hout : ((init false : Dbtl Unit).writeToDisk txid
      (some (logs.map LogPlayer.encodeLog)) ()).out = logEvents false txid logs () :=
    congrArg Dbtl.out hexec
  calc logFile txid logs
      = written (writes txid logs : List (DbtlEvent Unit)) := by
        rw [logFile, hout]
        simp [logEvents, written]
    _ = logs.flatMap fun log => log.record.toList := written_writes txid logs
    _ = Delimited.encode ['#', ':', '@'] (logs.map LogInfo.fields) := by
        simp [Delimited.encode, List.flatMap_map, LogInfo.record_toList]

/-- The records of the items in `P`. -/
def Recorded (P : LogInfo → Prop) (r : List (List Char)) : Prop := ∃ log, P log ∧ log.fields = r

theorem exists_map_fields {P : LogInfo → Prop} {rs : List (List (List Char))}
    (h : ∀ r ∈ rs, Recorded P r) : ∃ logs : List LogInfo,
      (∀ log ∈ logs, P log) ∧ logs.map LogInfo.fields = rs := by
  induction rs with
  | nil => exact ⟨[], by simp, rfl⟩
  | cons r rs ih =>
      obtain ⟨log, hlog, rfl⟩ := h r List.mem_cons_self
      obtain ⟨logs, hlogs, rfl⟩ := ih fun r' hr' => h r' (List.mem_cons_of_mem _ hr')
      exact ⟨log :: logs, List.forall_mem_cons.2 ⟨hlog, hlogs⟩, rfl⟩

theorem unambiguous_recorded_iff (P : LogInfo → Prop) :
    Delimited.Unambiguous ['#', ':', '@'] (Recorded P) ↔ Unambiguous P := by
  constructor
  · intro h txid logs logs' hlogs hlogs' heq
    rw [logFile_eq, logFile_eq] at heq
    refine List.map_injective_iff.2 LogInfo.fields_injective (h _ _ ?_ ?_ heq)
    · exact List.forall_mem_map.2 fun log hlog => ⟨log, hlogs log hlog, rfl⟩
    · exact List.forall_mem_map.2 fun log hlog => ⟨log, hlogs' log hlog, rfl⟩
  · intro h rs rs' hrs hrs' heq
    obtain ⟨logs, hlogs, rfl⟩ := exists_map_fields hrs
    obtain ⟨logs', hlogs', rfl⟩ := exists_map_fields hrs'
    rw [← logFile_eq 0, ← logFile_eq 0] at heq
    exact congrArg (List.map LogInfo.fields) (h 0 logs logs' hlogs hlogs' heq)

/-- Of the sets of items that have all plain ones, those without a further item are unambiguous. -/
theorem unambiguous_iff_plain {P : LogInfo → Prop} (hP : ∀ log, log.Plain → P log) :
    Unambiguous P ↔ ∀ log, P log → log.Plain := by
  have hplain : ∀ r, Delimited.Plain ['#', ':', '@'] r → Recorded P r := by
    intro r hr
    obtain ⟨log, rfl⟩ := LogInfo.exists_fields hr
    exact ⟨log, hP log ((LogInfo.plain_fields_iff log).1 hr), rfl⟩
  rw [← unambiguous_recorded_iff, Delimited.unambiguous_iff (by simp) (by decide) hplain]
  constructor
  · intro h log hlog
    exact (LogInfo.plain_fields_iff log).1 (h _ ⟨log, hlog, rfl⟩)
  · rintro h _ ⟨log, hlog, rfl⟩
    exact (LogInfo.plain_fields_iff log).2 (h log hlog)

theorem unambiguous_plain : Unambiguous LogInfo.Plain :=
  (unambiguous_iff_plain fun _ h => h).2 fun _ h => h

/-- A `#` in a key. -/
theorem not_unambiguous_all : ¬ Unambiguous fun _ => True := by
  intro h
  have heq := h 7 [⟨"a#b", "c", "1"⟩] [⟨"a", "b#c", "1"⟩] (fun _ _ => trivial)
    (fun _ _ => trivial) (by decide +kernel)
  exact absurd heq (by decide)

end Dbtl

end Grit
