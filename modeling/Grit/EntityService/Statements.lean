import Grit.App.Basic
import Grit.EntityService.Basic

/-!
# The statements of an application at its entity service

`App::add` sets the attribute and the value of a statement for the commands `kAdd` and
`kChange`; `ES::solve` reads them for `kAdd` and `kDelete`, and takes the statement for a
read otherwise. The two agree on `kAdd` and `kSearch` only.
-/

namespace Grit

open Cmd

/-- What the message `d` to the DbService must say about the statement `m`. -/
structure ESMsg.CarriedBy (m : ESMsg) (d : DbServiceMsg) : Prop where
  mutation : m.cmd = kAdd ∨ m.cmd = kChange →
    d.writes = [createData m.key m.attr m.val] ∧ d.reads = []
  deletion : m.cmd = kDelete → d.writes.map FlatData.key = [m.key] ∧ d.reads = []
  search : m.cmd = kSearch → d.reads.map FlatData.key = [m.key] ∧ d.writes = []

namespace ES

variable {C : Type*}

/-- `solve` follows no null pointer on the statement `m`, and the message that it sends says
what it must. -/
def Understands (s : ES C) (m : ESMsg) : Prop :=
  ∃ d, s.solve m = { s with out := s.out ++ [.sendDbs d] } ∧ m.CarriedBy d

theorem understands_iff_translate {s : ES C} (hs : s.dbsConn = true) (m : ESMsg) :
    s.Understands m ↔ ∃ d, translate m = some d ∧ m.CarriedBy d := by
  unfold Understands solve solveBy
  cases hd : translate m with
  | none =>
      constructor
      · rintro ⟨d, hsolve, -⟩
        have hout := congrArg ES.out hsolve
        simp at hout
      · rintro ⟨d, hsome, -⟩
        simp at hsome
  | some d =>
      have hsend : s.sendDbs d = { s with out := s.out ++ [.sendDbs d] } := if_pos hs
      constructor
      · rintro ⟨d', hsolve, hcarried⟩
        have hout := congrArg ES.out (hsend.symm.trans hsolve)
        have heq : d = d' := by simpa using hout
        exact ⟨d, rfl, heq ▸ hcarried⟩
      · rintro ⟨d', hsome, hcarried⟩
        obtain rfl := Option.some.inj hsome
        exact ⟨d, hsend, hcarried⟩

/-- On a statement of an application. -/
theorem translate_iff_of_isStatement {cmd : Cmd} {txid : Int} {str : List Char} {m : ESMsg}
    (h : App.IsStatement cmd txid str m) :
    (∃ d, translate m = some d ∧ m.CarriedBy d) ↔ m.cmd ≠ kDelete ∧ m.cmd ≠ kChange := by
  obtain ⟨key, hkey⟩ := h.key
  constructor
  · rintro ⟨d, hd, hcarried⟩
    refine ⟨?_, ?_⟩
    · -- the attribute was not set
      intro hcmd
      obtain ⟨hattr, -⟩ := h.bare (by simp [hcmd])
      simp [translate, hkey, hcmd, hattr] at hd
    · -- the statement is taken for a read
      intro hcmd
      obtain ⟨-, hreads⟩ := hcarried.mutation (Or.inr hcmd)
      have hmsg : createDbServiceMsg kData m.txid false (some [createData (some key)]) none =
          d := by
        simpa [translate, hkey, hcmd] using hd
      subst hmsg
      simp [DbServiceMsg.reads, createDbServiceMsg] at hreads
  · rintro ⟨hdelete, hchange⟩
    by_cases hadd : m.cmd = kAdd
    · obtain ⟨attr, val, hattr, hval⟩ := h.carried (Or.inl hadd)
      refine ⟨_, by simp [translate, hkey, hadd, hattr, hval]; rfl, ?_⟩
      constructor
      · intro _
        simp [DbServiceMsg.writes, DbServiceMsg.reads, createDbServiceMsg, hkey, hattr, hval]
      · intro hcmd
        exact absurd hcmd hdelete
      · intro hcmd
        simp [hadd] at hcmd
    · refine ⟨_, by simp [translate, hkey, hadd, hdelete]; rfl, ?_⟩
      constructor
      · rintro (hcmd | hcmd)
        · exact absurd hcmd hadd
        · exact absurd hcmd hchange
      · intro hcmd
        exact absurd hcmd hdelete
      · intro _
        simp [DbServiceMsg.reads, DbServiceMsg.writes, createDbServiceMsg, createData, hkey]

/-- The first word of the statement is neither `delete` nor `Change`. After a word that is no
command, the variable `cmd`, which the source does not initialise, does not hold one of
these two either. -/
def AgreedWord (cmd : Cmd) (str : String) : Prop :=
  let word := App.cStr (App.firstWord str.toList)
  word ≠ "delete".toList ∧ word ≠ "Change".toList ∧
    (word ≠ "add".toList → word ≠ "Search".toList → cmd ≠ kDelete ∧ cmd ≠ kChange)

instance (cmd : Cmd) (str : String) : Decidable (AgreedWord cmd str) :=
  inferInstanceAs (Decidable (_ ∧ _ ∧ (_ → _ → _ ∧ _)))

theorem agreedWord_iff_command (cmd : Cmd) (str : String) :
    AgreedWord cmd str ↔ App.command cmd (App.firstWord str.toList) ≠ kDelete ∧
      App.command cmd (App.firstWord str.toList) ≠ kChange := by
  unfold AgreedWord App.command
  dsimp only
  generalize App.cStr (App.firstWord str.toList) = word
  by_cases hadd : word = "add".toList
  · subst hadd
    simp
  rw [if_neg hadd]
  by_cases hdelete : word = "delete".toList
  · subst hdelete
    simp
  rw [if_neg hdelete]
  by_cases hchange : word = "Change".toList
  · subst hchange
    simp
  rw [if_neg hchange]
  by_cases hsearch : word = "Search".toList
  · subst hsearch
    simp
  rw [if_neg hsearch]
  exact ⟨fun h => h.2.2 hadd hsearch, fun h => ⟨hdelete, hchange, fun _ _ => h⟩⟩

/-- A statement that an application sends is understood by its entity service exactly if its
first word is neither `delete` nor `Change`. -/
theorem understands_iff {cmd : Cmd} {txid : Int} {str : String} {m : ESMsg}
    (h : App.statement cmd txid str.toList = some m) {s : ES C} (hs : s.dbsConn = true) :
    s.Understands m ↔ AgreedWord cmd str := by
  have hm := App.isStatement_of_statement h
  rw [understands_iff_translate hs, translate_iff_of_isStatement hm, agreedWord_iff_command,
    hm.cmd]

/-- The statement `add 1 k a v` is understood. -/
theorem understands_add :
    (init true : ES Unit).Understands
        (createESMsg kAdd 7 false 1 (some "k") (some "a") (some "v")) ∧
      AgreedWord kAdd "add 1 k a v" := by
  have hstatement : App.statement kAdd 7 "add 1 k a v".toList =
      some (createESMsg kAdd 7 false 1 (some "k") (some "a") (some "v")) := by decide
  have hword : AgreedWord kAdd "add 1 k a v" := by decide
  exact ⟨(understands_iff hstatement rfl).2 hword, hword⟩

/-- The statements `delete 1 k` and `Change 1 k a v` are not understood: on the first one the
entity service follows a null pointer, and the second one becomes a read of `k`. -/
theorem not_understands_delete_change :
    App.statement kAdd 7 "delete 1 k".toList =
        some (createESMsg kDelete 7 false 1 (some "k")) ∧
      ¬ (init true : ES Unit).Understands (createESMsg kDelete 7 false 1 (some "k")) ∧
      ((init true : ES Unit).solve (createESMsg kDelete 7 false 1 (some "k"))).crashed = true ∧
      App.statement kAdd 7 "Change 1 k a v".toList =
        some (createESMsg kChange 7 false 1 (some "k") (some "a") (some "v")) ∧
      ¬ (init true : ES Unit).Understands
        (createESMsg kChange 7 false 1 (some "k") (some "a") (some "v")) ∧
      ((init true : ES Unit).solve
        (createESMsg kChange 7 false 1 (some "k") (some "a") (some "v"))).out =
          [.sendDbs (createDbServiceMsg kData 7 false (some [createData (some "k")]) none)] := by
  have hdelete : App.statement kAdd 7 "delete 1 k".toList =
      some (createESMsg kDelete 7 false 1 (some "k")) := by decide
  have hchange : App.statement kAdd 7 "Change 1 k a v".toList =
      some (createESMsg kChange 7 false 1 (some "k") (some "a") (some "v")) := by decide
  refine ⟨hdelete, ?_, rfl, hchange, ?_, rfl⟩
  · rw [understands_iff_translate rfl,
      translate_iff_of_isStatement (App.isStatement_of_statement hdelete)]
    decide
  · rw [understands_iff_translate rfl,
      translate_iff_of_isStatement (App.isStatement_of_statement hchange)]
    decide

end ES

end Grit
