import Grit.DbService.DbtmSpec
import Grit.Library.History

/-!
# Runs of one DBTM

A DBTM is driven by two kinds of calls: `judgeLocalConflict` on a transaction
that the DbService has collected, and `solve` on a reply of the GTM. `calls`
runs any list of them, in any order and on any transactions; a process that has
ended takes no further call.
-/

namespace Grit

namespace DbService

variable {C W : Type*}

/-- A call of the DBTM. A transaction comes with the ES connection that its
data came over. -/
inductive Call (C : Type*) where
  | judgeLocalConflict (conn : C) (tran : Transaction)
  | solve (data : DbtmMsg)

/-- The DbService holds the transaction `tran`, collected over `conn`. -/
def arrive (conn : C) (tran : Transaction) (s : DbService C W) : DbService C W :=
  { s with
    heap := Function.update s.heap s.next (some tran)
    txidTrans := s.txidTrans.insert tran.txid s.next
    table := s.table.insert tran.txid conn
    next := s.next + 1 }

def call (ops : Wcheck W) (s : DbService C W) (c : Call C) : DbService C W :=
  s.andThen fun s =>
    match c with
    | .judgeLocalConflict conn tran =>
        (s.arrive conn tran).judgeLocalConflict ops s.next
    | .solve data => s.solve ops data

def calls (ops : Wcheck W) (s : DbService C W) (l : List (Call C)) :
    DbService C W :=
  l.foldl (call ops) s

/-- A property holds after every run once every call on a live state keeps it.
The validations may be assumed to be made in states that satisfy `G`, if the
run makes them only in such states. -/
theorem calls_invariant_of_guard {ops : Wcheck W} {P : DbService C W → Prop}
    (G : DbService C W → Transaction → Prop) {s : DbService C W}
    (l : List (Call C)) (h : P s)
    (hG : ∀ l₁ conn t l₂, l = l₁ ++ .judgeLocalConflict conn t :: l₂ →
      G (calls ops s l₁) t)
    (hjudge : ∀ s conn t, s.crashed = false → G s t → P s →
      ∀ s', JudgeStep ops s.next t (s.arrive conn t) s' → P s')
    (hsolve : ∀ s data, s.crashed = false → P s →
      ∀ s', SolveStep ops data s s' → P s') :
    P (calls ops s l) := by
  have hcall : ∀ s c, P s → (∀ conn t, c = .judgeLocalConflict conn t → G s t) →
      P (call ops s c) := by
    intro s c hP hguard
    cases hc : s.crashed with
    | true =>
        rw [call, andThen, if_pos hc]
        exact hP
    | false =>
        rw [call, andThen, if_neg (by simp [hc])]
        cases c with
        | judgeLocalConflict conn t =>
            refine hjudge _ conn t hc (hguard conn t rfl) hP _ (judgeLocalConflict_step ops ?_)
            simp [arrive]
        | solve data =>
            by_cases hcmd : data.cmd = .kJudgeConflit
            · exact hsolve _ data hc hP _ (solve_step ops hcmd _)
            · dsimp only
              rw [solve_of_ne ops hcmd]
              exact hP
  refine History.foldl_invariant (I := fun _ s => P s)
    (fun pre c => ∀ conn t, c = .judgeLocalConflict conn t → G (calls ops s pre) t) l h ?_ ?_
  · intro pre c hP hguard
    exact hcall _ c hP hguard
  · intro pre c post hl conn t hc
    exact hG pre conn t post (by rw [hl, hc])

theorem calls_invariant {ops : Wcheck W} {P : DbService C W → Prop}
    {s : DbService C W} (l : List (Call C)) (h : P s)
    (hjudge : ∀ s conn t, s.crashed = false → P s →
      ∀ s', JudgeStep ops s.next t (s.arrive conn t) s' → P s')
    (hsolve : ∀ s data, s.crashed = false → P s →
      ∀ s', SolveStep ops data s s' → P s') :
    P (calls ops s l) :=
  calls_invariant_of_guard (fun _ _ => True) l h (fun _ _ _ _ _ => trivial)
    (fun s conn t hs _ hP => hjudge s conn t hs hP) hsolve

end DbService

end Grit
