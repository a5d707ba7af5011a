import Grit.Library.History
import Grit.DbService.Calls

/-!
# The window between the local check and the reply of the GTM

The write keys of a global transaction enter the conflict table only when the
reply of the GTM arrives. Between its local check and that reply it waits, and
a transaction that is validated meanwhile is not validated against its writes.
If no transaction is validated while one that writes a common key waits, then
of any two that are logged one was validated after the other was cached.
-/

namespace Grit

open History

namespace DbService

variable {C W : Type*}

/-- The transaction `t` passes its local check. -/
def Passes (t : Transaction) : Event C → Prop
  | .judged u _ c => u = t ∧ c = false
  | _ => False

/-- The transaction `t` goes through its local check. -/
def Judges (t : Transaction) : Event C → Prop
  | .judged u _ _ => u = t
  | _ => False

/-- `cacheRWSet` is called for `t`; it ends in `sendLog`. -/
def Logs (t : Transaction) : Event C → Prop
  | .cacheRWSet u => u = t
  | _ => False

instance (t : Transaction) : DecidablePred (Judges t : Event C → Prop) := fun e =>
  match e with
  | .judged u _ _ => inferInstanceAs (Decidable (u = t))
  | .sendGtm _ | .sendDbtl _ | .sendEs _ _ | .sqlExec _ | .writeFile _ _
  | .removeFile _ | .enqueue _ | .cacheRWSet _ | .retResult _ _ => instDecidableFalse

instance (t : Transaction) : DecidablePred (Logs t : Event C → Prop) := fun e =>
  match e with
  | .cacheRWSet u => inferInstanceAs (Decidable (u = t))
  | .sendGtm _ | .sendDbtl _ | .sendEs _ _ | .sqlExec _ | .writeFile _ _
  | .removeFile _ | .enqueue _ | .judged _ _ _ | .retResult _ _ => instDecidableFalse

/-- A result is returned for `txid`. -/
def Ends (txid : Int) : Event C → Prop
  | .retResult _ id => id = txid
  | _ => False

/-- The transaction `t` has passed its local check and has since then neither
been cached nor ended. -/
def Waiting (t : Transaction) (h : List (Event C)) : Prop :=
  Since (Passes t) (fun e => Logs t e ∨ Ends t.txid e) h

/-- No global transaction that writes a key of `t` is waiting. -/
def NoWaitingWriter (h : List (Event C)) (t : Transaction) : Prop :=
  ∀ u : Transaction, u.needGlobalConflct = true → u.txid ≠ t.txid →
    (∃ k ∈ u.writeKeys, k ∈ t.writeKeys) → ¬ Waiting u h

/-- Every call of `judgeLocalConflict` on a global transaction is made when no
global transaction that writes a common key is waiting. -/
def Guarded (ops : Wcheck W) (s : DbService C W) (l : List (Call C)) : Prop :=
  ∀ l₁ conn t l₂, l = l₁ ++ .judgeLocalConflict conn t :: l₂ →
    t.needGlobalConflct = true → NoWaitingWriter (calls ops s l₁).out t

/-- Of the global transactions `t₁` and `t₂` one was validated after the other
was cached. -/
def Serialized (h : List (Event C)) (t₁ t₂ : Transaction) : Prop :=
  Precedes (Logs t₁) (Judges t₂) h ∨ Precedes (Logs t₂) (Judges t₁) h

instance (h : List (Event C)) (t₁ t₂ : Transaction) :
    Decidable (Serialized h t₁ t₂) :=
  inferInstanceAs (Decidable (_ ∨ _))

/-- A global transaction is cached only after it has passed, with no result
returned for it in between. -/
def CachedAfterPass (pre : List (Event C)) : Event C → Prop
  | .cacheRWSet t => t.needGlobalConflct = true →
      Since (Passes t) (Ends t.txid) pre
  | _ => True

/-- A global transaction is validated only when no writer of a common key
waits. -/
def JudgedAlone (pre : List (Event C)) : Event C → Prop
  | .judged t _ _ => t.needGlobalConflct = true → NoWaitingWriter pre t
  | _ => True

/-- What the DBTM holds for `k` is a transaction with that id that has passed
and has not ended. -/
def Held (s : DbService C W) : Prop :=
  ∀ k p, s.dbtmTable.find k = some p → p < s.next ∧
    ∃ t, s.heap p = some t ∧ t.txid = k ∧ Since (Passes t) (Ends k) s.out

/-- If `t₁` passes before `t₂` is validated then it is also cached before that:
it does not wait, and no result was returned for it before it was cached. -/
theorem precedes_of_earlier_pass {h a₁ m₁ q₁ a₂ b₂ : List (Event C)}
    {t₁ t₂ : Transaction} {ks₁ ks₂ : List String} {c : Bool}
    (hg₁ : t₁.needGlobalConflct = true) (hg₂ : t₂.needGlobalConflct = true)
    (hne : t₁.txid ≠ t₂.txid) (hk : ∃ k ∈ t₁.writeKeys, k ∈ t₂.writeKeys)
    (hm₁ : ∀ x ∈ m₁, ¬ Ends t₁.txid x)
    (h₂ : h = a₂ ++ .judged t₂ ks₂ c :: b₂)
    (halone : Each JudgedAlone h)
    (hfirst : ∃ m, a₂ = a₁ ++ .judged t₁ ks₁ false :: m ∧
      m₁ ++ .cacheRWSet t₁ :: q₁ = m ++ .judged t₂ ks₂ c :: b₂) :
    Precedes (Logs t₁) (Judges t₂) h := by
  obtain ⟨m, ha₂, hrest⟩ := hfirst
  have hlogged : Event.cacheRWSet t₁ ∈ m → Precedes (Logs t₁) (Judges t₂) h := by
    intro hmem
    obtain ⟨u, v, huv⟩ := List.append_of_mem hmem
    refine ⟨a₁ ++ .judged t₁ ks₁ false :: u, .cacheRWSet t₁, v,
      .judged t₂ ks₂ c, b₂, ?_, rfl, rfl⟩
    rw [h₂, ha₂, huv]
    simp
  have hnw : ¬ Waiting t₁ a₂ := halone a₂ _ b₂ h₂ hg₂ t₁ hg₁ hne hk
  have hsettled : ∃ x ∈ m, Logs t₁ x ∨ Ends t₁.txid x := by
    by_contra hnone
    apply hnw
    refine ⟨a₁, _, m, ha₂, ⟨rfl, rfl⟩, ?_⟩
    intro x hx hs
    exact hnone ⟨x, hx, hs⟩
  obtain ⟨x, hx, hlog | hend⟩ := hsettled
  · cases x with
    | cacheRWSet u =>
        have hu : u = t₁ := hlog
        exact hlogged (hu ▸ hx)
    | _ => exact hlog.elim
  · rcases split_cases hrest with ⟨-, heq, -⟩ | ⟨m', hm, -⟩ | ⟨m', hm, -⟩
    · simp at heq
    · exact hlogged (by simp [hm])
    · exact absurd hend (hm₁ x (by simp [hm, hx]))

/-- Two global transactions that write a common key and are both cached: one of
them was validated after the other was cached. -/
theorem serialized_of_each {h : List (Event C)} {t₁ t₂ : Transaction}
    (hcached : Each CachedAfterPass h) (halone : Each JudgedAlone h)
    (hg₁ : t₁.needGlobalConflct = true) (hg₂ : t₂.needGlobalConflct = true)
    (hne : t₁.txid ≠ t₂.txid) (hk : ∃ k ∈ t₁.writeKeys, k ∈ t₂.writeKeys)
    (h₁ : .cacheRWSet t₁ ∈ h) (h₂ : .cacheRWSet t₂ ∈ h) :
    Serialized h t₁ t₂ := by
  have hpass : ∀ t : Transaction, t.needGlobalConflct = true →
      Event.cacheRWSet t ∈ h → ∃ a ks m q,
        h = a ++ .judged t ks false :: (m ++ .cacheRWSet t :: q) ∧
          ∀ x ∈ m, ¬ Ends t.txid x := by
    intro t hg ht
    obtain ⟨p, q, hpq⟩ := List.append_of_mem ht
    obtain ⟨a, e, m, hp, he, hm⟩ := hcached p _ q hpq hg
    cases e with
    | judged u ks c =>
        obtain ⟨rfl, rfl⟩ := he
        exact ⟨a, ks, m, q, by rw [hpq, hp]; simp, hm⟩
    | _ => exact he.elim
  obtain ⟨a₁, ks₁, m₁, q₁, heq₁, hm₁⟩ := hpass t₁ hg₁ h₁
  obtain ⟨a₂, ks₂, m₂, q₂, heq₂, hm₂⟩ := hpass t₂ hg₂ h₂
  rcases split_cases (heq₁.symm.trans heq₂) with ⟨-, heq, -⟩ | hfirst | hfirst
  · simp only [Event.judged.injEq] at heq
    exact absurd (congrArg Transaction.txid heq.1) hne
  · exact Or.inl (precedes_of_earlier_pass hg₁ hg₂ hne hk hm₁ heq₂ halone hfirst)
  · have hk' : ∃ k ∈ t₂.writeKeys, k ∈ t₁.writeKeys := by
      obtain ⟨k, hk₁, hk₂⟩ := hk
      exact ⟨k, hk₂, hk₁⟩
    exact Or.inr
      (precedes_of_earlier_pass hg₂ hg₁ hne.symm hk' hm₂ heq₁ halone hfirst)

theorem held_arrive {s : DbService C W} (h : Held s) (conn : C) (t : Transaction) :
    Held (s.arrive conn t) := by
  intro k p hp
  obtain ⟨hlt, u, hu, hk, hsince⟩ := h k p hp
  have hne : p ≠ s.next := Nat.ne_of_lt hlt
  exact ⟨Nat.lt_succ_of_lt hlt, u, by simpa [arrive, hne] using hu, hk, hsince⟩

/-- A step that keeps the table and the heap and returns no result. -/
theorem held_keep {s s' : DbService C W} {es : List (Event C)} (h : Held s)
    (hnext : s'.next = s.next) (htable : s'.dbtmTable = s.dbtmTable)
    (hheap : s'.heap = s.heap) (hout : s'.out = s.out ++ es)
    (hes : ∀ k, ∀ e ∈ es, ¬ Ends k e) : Held s' := by
  intro k p hp
  rw [htable] at hp
  obtain ⟨hlt, t, ht, hk, hsince⟩ := h k p hp
  refine ⟨hnext ▸ hlt, t, hheap ▸ ht, hk, ?_⟩
  rw [hout]
  exact hsince.append (hes k)

/-- A step that adds the transaction `t` at address `p`, which has just
passed. -/
theorem held_insert {s s' : DbService C W} {es : List (Event C)} {p : Nat}
    {t : Transaction} (h : Held s) (hp : p < s.next) (ht : s.heap p = some t)
    (hnext : s'.next = s.next) (htable : s'.dbtmTable = s.dbtmTable.insert t.txid p)
    (hheap : s'.heap = s.heap) (hout : s'.out = s.out ++ es)
    (hpass : Since (Passes t) (Ends t.txid) (s.out ++ es))
    (hes : ∀ k, ∀ e ∈ es, ¬ Ends k e) : Held s' := by
  intro k q hq
  rw [htable, PtrMap.find_insert] at hq
  rw [hnext, hheap, hout]
  by_cases hk : k = t.txid
  · rw [if_pos hk] at hq
    cases hq
    exact ⟨hp, t, ht, hk.symm, hk ▸ hpass⟩
  · rw [if_neg hk] at hq
    obtain ⟨hlt, u, hu, huk, hsince⟩ := h k q hq
    exact ⟨hlt, u, hu, huk, hsince.append (hes k)⟩

/-- A step that drops the transaction of `txid`. No other entry refers to the
transaction that is freed, since an entry holds a transaction with its id. -/
theorem held_drop {s s' : DbService C W} {es : List (Event C)} {txid : Int}
    (h : Held s) (hnext : s'.next = s.next)
    (htable : s'.dbtmTable = s.dbtmTable.erase txid)
    (hheap : ∀ q, s'.heap q = s.heap q ∨
      s.dbtmTable.find txid = some q ∧ s'.heap q = none)
    (hout : s'.out = s.out ++ es)
    (hes : ∀ k, k ≠ txid → ∀ e ∈ es, ¬ Ends k e) : Held s' := by
  intro k p hp
  rw [htable, PtrMap.find_erase] at hp
  by_cases hk : k = txid
  · simp [hk] at hp
  · rw [if_neg hk] at hp
    obtain ⟨hlt, t, ht, htk, hsince⟩ := h k p hp
    refine ⟨hnext ▸ hlt, t, ?_, htk, ?_⟩
    · rcases hheap p with heq | ⟨hfreed, -⟩
      · rw [heq]
        exact ht
      · obtain ⟨-, u, hu, huk, -⟩ := h txid p hfreed
        rw [ht] at hu
        cases hu
        exact absurd (htk.symm.trans huk) hk
    · rw [hout]
      exact hsince.append (hes k hk)

theorem held_of_judgeStep {ops : Wcheck W} {t : Transaction} {conn : C}
    {s s' : DbService C W} (h : Held s)
    (hs : JudgeStep ops s.next t (s.arrive conn t) s') :
    s'.crashed = false → Held s' := by
  have ha := held_arrive h conn t
  have hp : s.next < (s.arrive conn t).next := Nat.lt_succ_self s.next
  have ht : (s.arrive conn t).heap s.next = some t := by simp [arrive]
  cases hs with
  | stuck => simp
  | cacheStuck => simp
  | failLost => simp
  | vote w ks hc hg =>
      intro _
      refine held_insert ha hp ht rfl rfl rfl rfl ?_ ?_
      · rw [since_append]
        simp [prologue, Passes, Ends]
      · simp [prologue, Ends]
  | cache w w' ks hc hg hw =>
      intro _
      refine held_insert ha hp ht rfl rfl rfl rfl ?_ ?_
      · rw [since_append]
        simp [prologue, Passes, Ends]
      · simp [prologue, Ends]
  | fail w ks conn' heap c vote hc hconn hheap hvote =>
      intro _
      refine held_drop ha rfl rfl hheap rfl ?_
      intro k hk
      have hk' : t.txid ≠ k := hk.symm
      rcases hvote with rfl | ⟨-, rfl⟩
      · simp [prologue, Ends, hk']
      · simp [prologue, Ends, hk']

theorem held_of_solveStep {ops : Wcheck W} {data : DbtmMsg}
    {s s' : DbService C W} (h : Held s) (hs : SolveStep ops data s s') :
    s'.crashed = false → Held s' := by
  cases hs with
  | missing => simp
  | dangling => simp
  | cacheStuck => simp
  | cache p t w tail hp ht hd hw htail =>
      intro _
      refine held_keep h rfl rfl rfl rfl ?_
      intro k
      rcases htail with ⟨rfl, -⟩ | rfl
      · simp [Ends]
      · simp [Ends]
  | fail s' hd hret =>
      cases hret with
      | lost => simp
      | sent conn heap c hconn hheap =>
          intro _
          refine held_drop h rfl rfl hheap (List.append_assoc _ _ _) ?_
          intro k hk
          have hk' : data.txid ≠ k := hk.symm
          simp [Ends, hk']

theorem cachedAfterPass_of_judgeStep {ops : Wcheck W} {p : Nat}
    {t : Transaction} {s s' : DbService C W} (h : Each CachedAfterPass s.out)
    (hs : JudgeStep ops p t s s') : Each CachedAfterPass s'.out := by
  cases hs with
  | stuck => exact (each_append _ _ _).2 ⟨h, by simp [prologue, EachFrom, CachedAfterPass]⟩
  | vote w ks hc hg =>
      exact (each_append _ _ _).2 ⟨h, by simp [prologue, EachFrom, CachedAfterPass]⟩
  | cacheStuck w ks hc hg =>
      exact (each_append _ _ _).2 ⟨h, by simp [prologue, EachFrom, CachedAfterPass, hg]⟩
  | cache w w' ks hc hg =>
      exact (each_append _ _ _).2 ⟨h, by simp [prologue, EachFrom, CachedAfterPass, hg]⟩
  | failLost =>
      exact (each_append _ _ _).2 ⟨h, by simp [prologue, EachFrom, CachedAfterPass]⟩
  | fail w ks conn heap c vote hc hconn hheap hvote =>
      refine (each_append _ _ _).2 ⟨h, ?_⟩
      rcases hvote with rfl | ⟨-, rfl⟩
      · simp [prologue, EachFrom, CachedAfterPass]
      · simp [prologue, EachFrom, CachedAfterPass]

theorem cachedAfterPass_of_solveStep {ops : Wcheck W} {data : DbtmMsg}
    {s s' : DbService C W} (hheld : Held s) (h : Each CachedAfterPass s.out)
    (hs : SolveStep ops data s s') : Each CachedAfterPass s'.out := by
  have hpass : ∀ p t, s.dbtmTable.find data.txid = some p → s.heap p = some t →
      Since (Passes t) (Ends t.txid) s.out := by
    intro p t hp ht
    obtain ⟨-, u, hu, hk, hsince⟩ := hheld data.txid p hp
    rw [ht] at hu
    cases hu
    exact hk.symm ▸ hsince
  cases hs with
  | missing => exact h
  | dangling => exact h
  | cacheStuck p t hp ht hd hw =>
      have hs := hpass p t hp ht
      exact (each_append _ _ _).2 ⟨h, by simp [EachFrom, CachedAfterPass, hs]⟩
  | cache p t w tail hp ht hd hw htail =>
      have hs := hpass p t hp ht
      refine (each_append _ _ _).2 ⟨h, ?_⟩
      rcases htail with ⟨rfl, -⟩ | rfl
      · simp [EachFrom, CachedAfterPass, hs]
      · simp [EachFrom, CachedAfterPass, hs]
  | fail s' hd hret =>
      cases hret with
      | lost =>
          refine (each_append _ _ _).2 ⟨(each_append _ _ _).2 ⟨h, ?_⟩, ?_⟩
          · simp [EachFrom, CachedAfterPass]
          · simp [EachFrom, CachedAfterPass]
      | sent =>
          refine (each_append _ _ _).2 ⟨(each_append _ _ _).2 ⟨h, ?_⟩, ?_⟩
          · simp [EachFrom, CachedAfterPass]
          · simp [EachFrom, CachedAfterPass]

/-- The events before the check of a validation change nothing about who
waits. -/
theorem noWaitingWriter_prologue {h : List (Event C)} {t : Transaction}
    (hn : NoWaitingWriter h t) (u : Transaction) :
    NoWaitingWriter (h ++ prologue u) t := by
  intro v hg hne hk hwait
  apply hn v hg hne hk
  rw [Waiting, since_append] at hwait
  simpa [Waiting, prologue, Passes, Logs, Ends] using hwait

theorem judgedAlone_of_judgeStep {ops : Wcheck W} {p : Nat} {t : Transaction}
    {s s' : DbService C W}
    (halone : t.needGlobalConflct = true → NoWaitingWriter s.out t)
    (h : Each JudgedAlone s.out) (hs : JudgeStep ops p t s s') :
    Each JudgedAlone s'.out := by
  have hpro : Each JudgedAlone (s.out ++ prologue t) := by
    refine (each_append _ _ _).2 ⟨h, ?_⟩
    simp [prologue, EachFrom, JudgedAlone]
  have hnow : t.needGlobalConflct = true → NoWaitingWriter (s.out ++ prologue t) t :=
    fun hg => noWaitingWriter_prologue (halone hg) t
  cases hs with
  | stuck => exact hpro
  | vote w ks hc hg =>
      rw [← List.append_assoc]
      exact (each_append _ _ _).2 ⟨hpro, by simp [EachFrom, JudgedAlone, hnow hg]⟩
  | cacheStuck w ks hc hg =>
      rw [← List.append_assoc]
      exact (each_append _ _ _).2 ⟨hpro, by simp [EachFrom, JudgedAlone, hg]⟩
  | cache w w' ks hc hg =>
      rw [← List.append_assoc]
      exact (each_append _ _ _).2 ⟨hpro, by simp [EachFrom, JudgedAlone, hg]⟩
  | failLost =>
      rw [← List.append_assoc]
      exact (each_append _ _ _).2 ⟨hpro, by simpa [EachFrom, JudgedAlone] using hnow⟩
  | fail w ks conn heap c vote hc hconn hheap hvote =>
      rw [← List.append_assoc]
      refine (each_append _ _ _).2 ⟨hpro, ?_⟩
      rcases hvote with rfl | ⟨-, rfl⟩
      · simpa [EachFrom, JudgedAlone] using hnow
      · simpa [EachFrom, JudgedAlone] using hnow

theorem judgedAlone_of_solveStep {ops : Wcheck W} {data : DbtmMsg}
    {s s' : DbService C W} (h : Each JudgedAlone s.out)
    (hs : SolveStep ops data s s') : Each JudgedAlone s'.out := by
  cases hs with
  | missing => exact h
  | dangling => exact h
  | cacheStuck => exact (each_append _ _ _).2 ⟨h, by simp [EachFrom, JudgedAlone]⟩
  | cache p t w tail hp ht hd hw htail =>
      refine (each_append _ _ _).2 ⟨h, ?_⟩
      rcases htail with ⟨rfl, -⟩ | rfl
      · simp [EachFrom, JudgedAlone]
      · simp [EachFrom, JudgedAlone]
  | fail s' hd hret =>
      cases hret with
      | lost =>
          refine (each_append _ _ _).2 ⟨(each_append _ _ _).2 ⟨h, ?_⟩, ?_⟩
          · simp [EachFrom, JudgedAlone]
          · simp [EachFrom, JudgedAlone]
      | sent =>
          refine (each_append _ _ _).2 ⟨(each_append _ _ _).2 ⟨h, ?_⟩, ?_⟩
          · simp [EachFrom, JudgedAlone]
          · simp [EachFrom, JudgedAlone]

theorem cachedAfterPass_calls (ops : Wcheck W) (w : W) (l : List (Call C)) :
    Each CachedAfterPass (calls ops (init w : DbService C W) l).out := by
  have hboth : ((calls ops (init w : DbService C W) l).crashed = false →
      Held (calls ops (init w : DbService C W) l)) ∧
        Each CachedAfterPass (calls ops (init w : DbService C W) l).out := by
    refine calls_invariant (P := fun s => (s.crashed = false → Held s) ∧
      Each CachedAfterPass s.out) l ?_ ?_ ?_
    · exact ⟨fun _ k p hp => by simp [init] at hp, each_nil _⟩
    · intro s conn t hs hP s' hstep
      exact ⟨held_of_judgeStep (hP.1 hs) hstep,
        cachedAfterPass_of_judgeStep (s := s.arrive conn t) hP.2 hstep⟩
    · intro s data hs hP s' hstep
      exact ⟨held_of_solveStep (hP.1 hs) hstep,
        cachedAfterPass_of_solveStep (hP.1 hs) hP.2 hstep⟩
  exact hboth.2

theorem judgedAlone_calls (ops : Wcheck W) (w : W) (l : List (Call C))
    (h : Guarded ops (init w) l) :
    Each JudgedAlone (calls ops (init w : DbService C W) l).out := by
  refine calls_invariant_of_guard (P := fun s => Each JudgedAlone s.out)
    (fun s t => t.needGlobalConflct = true → NoWaitingWriter s.out t) l
    (each_nil _) h ?_ ?_
  · intro s conn t _ hG hP s' hstep
    exact judgedAlone_of_judgeStep (s := s.arrive conn t) hG hP hstep
  · intro s data _ hP s' hstep
    exact judgedAlone_of_solveStep hP hstep

/-- Any two global transactions that write a common key and are both logged:
one of them was validated after the other was cached. -/
def NoLostUpdate (h : List (Event C)) : Prop :=
  ∀ t₁ t₂ : Transaction, t₁.needGlobalConflct = true →
    t₂.needGlobalConflct = true → t₁.txid ≠ t₂.txid →
      (∃ k ∈ t₁.writeKeys, k ∈ t₂.writeKeys) →
        .cacheRWSet t₁ ∈ h → .cacheRWSet t₂ ∈ h → Serialized h t₁ t₂

/-- In every run that validates no global transaction while another one that
writes a common key is waiting for the GTM, no update is lost. -/
theorem noLostUpdate_of_guarded (ops : Wcheck W) (w : W) (l : List (Call C))
    (h : Guarded ops (init w) l) :
    NoLostUpdate (calls ops (init w : DbService C W) l).out := by
  intro t₁ t₂ hg₁ hg₂ hne hk h₁ h₂
  exact serialized_of_each (cachedAfterPass_calls ops w l)
    (judgedAlone_calls ops w l h) hg₁ hg₂ hne hk h₁ h₂

/-- Transaction `1` is cached before transaction `2`, which writes the same key,
is validated. -/
theorem noLostUpdate_of_guarded_sequential :
    Guarded Wcheck.contract (init [] : DbService Unit (List Info))
        [.judgeLocalConflict () { Transaction.init 1 with
            writeSet := [⟨"a", "", "x", "1"⟩], needGlobalConflct := true, lsn := 1 },
          .solve (createDbtmMsg .kJudgeConflit 1),
          .judgeLocalConflict () { Transaction.init 2 with
            writeSet := [⟨"a", "", "x", "2"⟩], needGlobalConflct := true, lsn := 2 },
          .solve (createDbtmMsg .kJudgeConflit 2)] ∧
      NoLostUpdate (calls Wcheck.contract (init [] : DbService Unit (List Info))
        [.judgeLocalConflict () { Transaction.init 1 with
            writeSet := [⟨"a", "", "x", "1"⟩], needGlobalConflct := true, lsn := 1 },
          .solve (createDbtmMsg .kJudgeConflit 1),
          .judgeLocalConflict () { Transaction.init 2 with
            writeSet := [⟨"a", "", "x", "2"⟩], needGlobalConflct := true, lsn := 2 },
          .solve (createDbtmMsg .kJudgeConflit 2)]).out := by
  have hG : Guarded Wcheck.contract (init [] : DbService Unit (List Info))
      [.judgeLocalConflict () { Transaction.init 1 with
          writeSet := [⟨"a", "", "x", "1"⟩], needGlobalConflct := true, lsn := 1 },
        .solve (createDbtmMsg .kJudgeConflit 1),
        .judgeLocalConflict () { Transaction.init 2 with
          writeSet := [⟨"a", "", "x", "2"⟩], needGlobalConflct := true, lsn := 2 },
        .solve (createDbtmMsg .kJudgeConflit 2)] := by
    intro l₁ conn t l₂ heq hg u hu hne hk hwait
    rcases l₁ with _ | ⟨c₁, _ | ⟨c₂, _ | ⟨c₃, _ | ⟨c₄, l₁⟩⟩⟩⟩
    · exact not_since_nil _ _ hwait
    · simp at heq
    · simp only [List.cons_append, List.nil_append, List.cons.injEq] at heq
      obtain ⟨rfl, rfl, -⟩ := heq
      generalize ht : ({ Transaction.init 1 with
        writeSet := [⟨"a", "", "x", "1"⟩], needGlobalConflct := true,
        lsn := 1 } : Transaction) = t₁ at hwait
      have hout : (calls Wcheck.contract (init [] : DbService Unit (List Info))
          [.judgeLocalConflict () t₁, .solve (createDbtmMsg .kJudgeConflit 1)]).out =
          [] ++ (prologue t₁ ++ [.judged t₁ ["a"] false,
            .sqlExec (.updateNeedLocalConflict 1),
            .sendGtm (createGtmMsg .kJudgeConflit 1), .cacheRWSet t₁,
            .sendDbtl (createDbtlMsg .kLog 1 (some (encodeSet t₁.writeSet))),
            .sqlExec (.updateNeedGlobalConflict 1)]) := by
        subst ht
        rfl
      rw [Waiting, hout, since_append] at hwait
      simp [prologue, Passes, Logs, Ends] at hwait
      obtain ⟨heq | hnil, hne'⟩ := hwait
      · exact hne' heq
      · exact not_since_nil _ _ hnil
    · simp at heq
    · simp at heq
  exact ⟨hG, noLostUpdate_of_guarded _ _ _ hG⟩

/-- Transactions `1` and `2` both write `a`; both are validated before the
first reply of the GTM, and both are logged. -/
theorem not_noLostUpdate_interleaved :
    ¬ NoLostUpdate (calls Wcheck.contract (init [] : DbService Unit (List Info))
      [.judgeLocalConflict () { Transaction.init 1 with
          writeSet := [⟨"a", "", "x", "1"⟩], needGlobalConflct := true, lsn := 1 },
        .judgeLocalConflict () { Transaction.init 2 with
          writeSet := [⟨"a", "", "x", "2"⟩], needGlobalConflct := true, lsn := 2 },
        .solve (createDbtmMsg .kJudgeConflit 1),
        .solve (createDbtmMsg .kJudgeConflit 2)]).out := by
  intro h
  have hser := h
    { Transaction.init 1 with
      writeSet := [⟨"a", "", "x", "1"⟩], needGlobalConflct := true, lsn := 1 }
    { Transaction.init 2 with
      writeSet := [⟨"a", "", "x", "2"⟩], needGlobalConflct := true, lsn := 2 }
    rfl rfl (by decide) ⟨"a", by decide, by decide⟩ (by decide) (by decide)
  revert hser
  decide

end DbService

end Grit
