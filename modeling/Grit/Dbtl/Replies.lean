import Grit.DbService.OnMessage
import Grit.Dbtl.Basic

/-!
# Replies of the DBTL at the DbService

`retResult` leaves its lsn out of the message if it is `-1`, and passes it as the argument
`isGlobalConflict` otherwise. So the field `lsn` of a reply is always `0`, and only the first
lsn of the counter comes out as it was meant.
-/

namespace Grit

open Cmd

namespace Dbtl

variable {C C' W : Type*}

/-- The accessors of `m` give what `retResult` was called with, and the DbService handles `m`
like a message with these fields: `onMessage` at once, and `Dbtm::solve` a decision that was
queued. -/
structure ReadAs (C' W : Type*) (cmd : Cmd) (txid lsn : Int) (m : DbtmMsg) : Prop where
  cmd_eq : m.cmd = cmd
  txid_eq : m.txid = txid
  isGlobalConflict_eq : m.isGlobalConflict = false
  lsn_eq : cmd = kLsn → m.lsn = lsn
  handled : cmd ≠ kJudgeConflit → ∀ (conn : C') (d : DbService C' W),
    d.onMessage conn (.dbtmMsg m) = d.onMessage conn (.dbtmMsg ⟨cmd, txid, false, lsn⟩)
  solved : ∀ (ops : Wcheck W) (d : DbService C' W),
    d.solve ops m = d.solve ops ⟨cmd, txid, false, lsn⟩

/-- `retResult` sends one message, which is read as it was meant. -/
def ReplyRead (C' W : Type*) (cmd : Cmd) (txid lsn : Int) (conn : C) (s : Dbtl C) : Prop :=
  ∃ m, (s.retResult cmd txid lsn conn).out = s.out ++ [.send conn m] ∧
    ReadAs C' W cmd txid lsn m

/-- Without an lsn to pass on, every field arrives. -/
theorem readAs_of_ne {cmd : Cmd} (hcmd : cmd ≠ kLsn) (txid lsn : Int) :
    ReadAs C' W cmd txid lsn (createDbtmMsg cmd txid) where
  cmd_eq := rfl
  txid_eq := rfl
  isGlobalConflict_eq := rfl
  lsn_eq := fun h => absurd h hcmd
  handled := by
    intro hjudge conn d
    cases cmd with
    | kJudgeConflit => exact absurd rfl hjudge
    | kLsn => exact absurd rfl hcmd
    | _ => rfl
  solved := by
    intro ops d
    cases cmd with
    | kJudgeConflit => rfl
    | _ => rfl

theorem readAs_zero (cmd : Cmd) (txid : Int) : ReadAs C' W cmd txid 0 (createDbtmMsg cmd txid) :=
  ⟨rfl, rfl, rfl, fun _ => rfl, fun _ _ _ => rfl, fun _ _ => rfl⟩

/-- A reply is read as it was meant only if there is no lsn to pass on, as it is sent in the place
of the conflict flag. -/
theorem replyRead_iff (cmd : Cmd) (txid lsn : Int) (conn : C) (s : Dbtl C) :
    ReplyRead C' W cmd txid lsn conn s ↔ lsn = 0 ∨ lsn = -1 ∧ cmd ≠ kLsn := by
  constructor
  · rintro ⟨m, hout, hread⟩
    have hsent : m = if lsn = -1 then createDbtmMsg cmd txid
        else createDbtmMsg cmd txid (decide (lsn ≠ 0)) := by
      simpa [retResult, emit] using hout.symm
    have hlsn := hread.lsn_eq
    have hconflict := hread.isGlobalConflict_eq
    by_cases hnone : lsn = -1
    · rw [if_pos hnone] at hsent
      refine Or.inr ⟨hnone, fun hcmd => ?_⟩
      have hzero := hlsn hcmd
      rw [hsent, hnone] at hzero
      exact absurd hzero (by simp [createDbtmMsg])
    · rw [if_neg hnone] at hsent
      rw [hsent] at hconflict
      exact Or.inl (by simpa [createDbtmMsg] using hconflict)
  · rintro (rfl | ⟨rfl, hcmd⟩)
    · exact ⟨_, rfl, readAs_zero cmd txid⟩
    · exact ⟨_, rfl, readAs_of_ne hcmd txid (-1)⟩

/-- The second lsn of a DBTL. -/
theorem not_replyRead_second :
    ¬ ReplyRead Unit Unit kLsn 7 1 () ({ init false with applyLsn := 2 } : Dbtl Unit) := by
  rintro ⟨m, hout, hread⟩
  have hsent : createDbtmMsg kLsn 7 true = m := by simpa [retResult, emit] using hout
  exact absurd (hsent ▸ hread.isGlobalConflict_eq) (by decide)

end Dbtl

end Grit
