import Mathlib.Data.List.Induction
import Grit.EntityService.Basic

/-!
# Results at the entity service

An entity service with any number of App connections and one connection to the DbService. The
handler is the same for both sides: it first enters the connection that a message came over into
`table_`, and does nothing else for a result. So a result takes the place of the client it is
for, and no client is told.
-/

namespace Grit

open Cmd

/-- The other end of a connection. -/
inductive Peer (C : Type*) where
  | app (conn : C)
  | dbs
deriving DecidableEq, Repr

namespace ES

variable {C : Type*}

/-- What reaches the entity service: the connection to the DbService is set, an App sends a
message, or the DbService sends a result. -/
inductive Arrival (C : Type*) where
  | connected
  | request (conn : C) (m : ESMsg)
  | result (success : Bool) (txid : Int)

/-- The two results that `DbService::retResult` sends. -/
def status (success : Bool) : Cmd := if success then kTranSuccess else kTranFail

def handle (s : ES (Peer C)) : Arrival C → ES (Peer C)
  | .connected => s.onDbsConnection
  | .request conn m => s.onMessage (.app conn) (.esMsg m)
  | .result success txid => s.onMessage .dbs (.esMsg (createESMsg (status success) txid))

/-- A process that has ended takes nothing. -/
def receive (s : ES (Peer C)) (a : Arrival C) : ES (Peer C) :=
  if s.crashed then s else s.handle a

def run (l : List (Arrival C)) : ES (Peer C) := l.foldl receive (init false)

theorem run_concat (l : List (Arrival C)) (a : Arrival C) :
    run (l ++ [a]) = (run l).receive a := by
  simp [run]

/-- The requests of a transaction come over one connection. -/
def OneClient (l : List (Arrival C)) : Prop :=
  ∀ c m c' m', .request c m ∈ l → .request c' m' ∈ l → m.txid = m'.txid → c = c'

/-- After every part of the arrivals, `table_` leads to the client of each transaction; and the
result of a transaction is passed on to its client, once and with nothing else. -/
structure RightClient (l : List (Arrival C)) : Prop where
  routes : ∀ l₁ l₂, l = l₁ ++ l₂ → (run l₁).crashed = false →
    ∀ c m, .request c m ∈ l₁ → (run l₁).table.find m.txid = some (.app c)
  answers : ∀ l₁ success x l₂, l = l₁ ++ .result success x :: l₂ → (run l₁).crashed = false →
    ∀ c m, .request c m ∈ l₁ → m.txid = x →
      (run (l₁ ++ [.result success x])).out =
        (run l₁).out ++ [.sendApp (.app c) (createAppMsg (status success) x)]

/-! ### One arrival -/

theorem onMessage_table (conn : Peer C) (m : ESMsg) (s : ES (Peer C)) :
    (s.onMessage conn (.esMsg m)).table = s.table.insert m.txid conn := by
  have hsend : ∀ (d : DbServiceMsg) (s : ES (Peer C)), (s.sendDbs d).table = s.table := by
    intro d s
    unfold sendDbs
    split
    · rfl
    · rfl
  have hsolve : ∀ s : ES (Peer C), (s.solveBy translate m).table = s.table := by
    intro s
    unfold solveBy
    cases translate m with
    | none => rfl
    | some d => exact hsend d s
  unfold onMessage onMessageBy
  dsimp only
  split
  · exact hsolve _
  · exact hsolve _
  · exact hsolve _
  · exact hsolve _
  · exact hsend _ _
  · rfl

/-- A result only replaces the connection of its transaction. -/
theorem handle_result (success : Bool) (x : Int) (s : ES (Peer C)) :
    s.handle (.result success x) = { s with table := s.table.insert x .dbs } := by
  cases success with
  | true => rfl
  | false => rfl

theorem receive_of_live {s : ES (Peer C)} (h : s.crashed = false) (a : Arrival C) :
    s.receive a = s.handle a := by
  rw [receive, if_neg (by simp [h])]

theorem live_of_receive {s : ES (Peer C)} {a : Arrival C} (h : (s.receive a).crashed = false) :
    s.crashed = false := by
  by_contra hcr
  rw [receive, if_pos (by simpa using hcr)] at h
  exact hcr h

/-! ### Runs -/

/-- The condition under which the results come to the right clients. -/
def NoResult (l : List (Arrival C)) : Prop :=
  ∀ l₁ success x l₂, l = l₁ ++ .result success x :: l₂ → (run l₁).crashed = false →
    ∀ c m, .request c m ∈ l₁ → m.txid ≠ x

theorem OneClient.left {l₁ l₂ : List (Arrival C)} (h : OneClient (l₁ ++ l₂)) : OneClient l₁ :=
  fun c m c' m' hm hm' => h c m c' m' (List.mem_append_left _ hm) (List.mem_append_left _ hm')

theorem NoResult.left {l₁ l₂ : List (Arrival C)} (h : NoResult (l₁ ++ l₂)) : NoResult l₁ :=
  fun l₀ success x l₃ heq => h l₀ success x (l₃ ++ l₂) (by simp [heq])

/-- As long as no result of a known transaction arrives, `table_` leads to the clients. -/
theorem find_of_noResult {l : List (Arrival C)} (hone : OneClient l) (hno : NoResult l)
    (hlive : (run l).crashed = false) {c : C} {m : ESMsg} (hm : .request c m ∈ l) :
    (run l).table.find m.txid = some (.app c) := by
  induction l using List.reverseRecOn with
  | nil => simp at hm
  | append_singleton l a ih =>
      rw [run_concat] at hlive ⊢
      have hlive₀ := live_of_receive hlive
      have hfind : .request c m ∈ l → (run l).table.find m.txid = some (.app c) :=
        ih hone.left hno.left hlive₀
      rw [receive_of_live hlive₀]
      cases a with
      | connected =>
          have hold : .request c m ∈ l := by simpa using hm
          exact hfind hold
      | request c' m' =>
          rw [handle, onMessage_table, PtrMap.find_insert]
          by_cases htxid : m.txid = m'.txid
          · rw [if_pos htxid, hone c m c' m' hm (by simp) htxid]
          · have hold : .request c m ∈ l := by
              rcases List.mem_append.1 hm with hm | hm
              · exact hm
              · simp only [List.mem_singleton, Arrival.request.injEq] at hm
                exact absurd (congrArg ESMsg.txid hm.2) htxid
            rw [if_neg htxid, hfind hold]
      | result success x =>
          have hold : .request c m ∈ l := by simpa using hm
          have hne := hno l success x [] rfl hlive₀ c m hold
          rw [handle_result]
          exact (PtrMap.find_insert_of_ne _ _ hne).trans (hfind hold)

/-- Where each transaction has one client, the results come to the right clients exactly if no
live process gets a result of a transaction that a client has asked for. -/
theorem rightClient_iff {l : List (Arrival C)} (hone : OneClient l) :
    RightClient l ↔ NoResult l := by
  constructor
  · intro h l₁ success x l₂ heq hlive c m hm htxid
    have hsent := h.answers l₁ success x l₂ heq hlive c m hm htxid
    rw [run_concat, receive_of_live hlive, handle_result] at hsent
    simp at hsent
  · intro hno
    refine ⟨?_, ?_⟩
    · rintro l₁ l₂ rfl hlive c m hm
      exact find_of_noResult hone.left hno.left hlive hm
    · intro l₁ success x l₂ heq hlive c m hm htxid
      exact absurd htxid (hno l₁ success x l₂ heq hlive c m hm)

/-- Two clients commit a transaction each, and no result has come yet. -/
theorem rightClient_iff_two :
    RightClient [.connected, .request "a" (createESMsg kCommit 7),
      .request "b" (createESMsg kCommit 8)] := by
  refine (rightClient_iff ?_).2 ?_
  · intro c m c' m' hm hm' htxid
    simp only [List.mem_cons, List.not_mem_nil, or_false, reduceCtorEq, false_or,
      Arrival.request.injEq] at hm hm'
    rcases hm with ⟨rfl, rfl⟩ | ⟨rfl, rfl⟩
    · rcases hm' with ⟨rfl, rfl⟩ | ⟨rfl, rfl⟩
      · rfl
      · simp [createESMsg] at htxid
    · rcases hm' with ⟨rfl, rfl⟩ | ⟨rfl, rfl⟩
      · simp [createESMsg] at htxid
      · rfl
  · intro l₁ success x l₂ heq
    have hmem : .result success x ∈ l₁ ++ .result success x :: l₂ := by simp
    rw [← heq] at hmem
    simp at hmem

/-- The success of a transaction is entered in place of its client, who is not told. -/
theorem not_rightClient_success :
    ¬RightClient [.connected, .request "a" (createESMsg kCommit 7), .result true 7] ∧
      (run [.connected, .request "a" (createESMsg kCommit 7), .result true 7]).table.find 7 =
        some .dbs := by
  refine ⟨?_, rfl⟩
  intro h
  have hroute := h.routes _ [] (List.append_nil _).symm rfl "a" _
    (List.mem_cons_of_mem _ List.mem_cons_self)
  exact absurd hroute (by decide)

end ES

end Grit
