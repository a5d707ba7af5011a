import Mathlib.Data.BitVec
import Mathlib.Data.List.Count
import Mathlib.Data.List.Induction
import Mathlib.Data.List.Nodup
import Grit.Gtm.Basic

/-!
# Concurrent calls of `getTxid`

With more than one thread, calls of `getTxid` overlap. A call `c : ι` reads the counter for the
key of its entry in `table_`, if it has several participants, reads it again for its reply, and
increments it before the reply is sent. Each of these accesses is one step, and a schedule is the
list of the calls in the order of their steps. The counter is an `int` that wraps around.
-/

namespace Grit

open Cmd

namespace Gtm

/-- Where a call stands; `key` is the key of the entry that it has made. -/
inductive Phase where
  | entered
  | registered (key : Option (BitVec 32))
  | loaded (key : Option (BitVec 32)) (txid : BitVec 32)
  | returned (key : Option (BitVec 32)) (txid : BitVec 32)
deriving DecidableEq

namespace Phase

/-- The id that the call has read for its reply. -/
def txid : Phase → BitVec 32
  | .entered => 0
  | .registered _ => 0
  | .loaded _ txid => txid
  | .returned _ txid => txid

def isReturned : Phase → Bool
  | .returned _ _ => true
  | _ => false

end Phase

/-- What the calls share, and where each of them stands. A reply goes over the connection of its
call. -/
structure Shared (ι C : Type*) where
  txid : BitVec 32
  table : PtrMap Int (TxidInfo C)
  phase : ι → Phase
  out : List (ι × RootMsg)

namespace Shared

variable {ι C : Type*}

/-- The counter is never assigned, so it may start anywhere. -/
def init (txid : BitVec 32) : Shared ι C :=
  { txid, table := PtrMap.empty, phase := fun _ => .entered, out := [] }

/-- The ids in the replies. -/
def replies (s : Shared ι C) : List Int :=
  s.out.filterMap fun m =>
    match m.2 with
    | .appMsg m => if m.cmd = kTxid then some m.txid else none
    | _ => none

variable [DecidableEq ι] (list : ι → List IpAndPort)

/-- The next step of the call `c`, where `list c` are the participants. The first step of a call
with one participant accesses nothing. -/
def step (s : Shared ι C) (c : ι) : Shared ι C :=
  match s.phase c with
  | .entered =>
      if (list c).length > 1 then
        { s with
          table := s.table.insert s.txid.toInt (TxidInfo.init (list c).length)
          phase := Function.update s.phase c (.registered (some s.txid)) }
      else { s with phase := Function.update s.phase c (.registered none) }
  | .registered key => { s with phase := Function.update s.phase c (.loaded key s.txid) }
  | .loaded key txid =>
      { s with
        txid := s.txid + 1
        phase := Function.update s.phase c (.returned key txid)
        out := s.out ++ [(c, txidReply txid.toInt (list c))] }
  | .returned _ _ => s

def steps (s : Shared ι C) (l : List ι) : Shared ι C := l.foldl (step list) s

theorem steps_concat (s : Shared ι C) (l : List ι) (c : ι) :
    s.steps list (l ++ [c]) = (s.steps list l).step list c := by
  simp [steps]

/-- No two replies carry the same id, and the entry of a call with several participants is stored
under the id of its reply. -/
structure UniqueIds (s : Shared ι C) : Prop where
  distinct : s.replies.Nodup
  stored : ∀ c key txid, 1 < (list c).length → s.phase c = .returned key txid → key = some txid

/-! ### One step -/

theorem step_phase_of_ne (s : Shared ι C) {c d : ι} (h : d ≠ c) :
    (s.step list c).phase d = s.phase d := by
  unfold step
  split
  · split
    · exact Function.update_of_ne h _ _
    · exact Function.update_of_ne h _ _
  · exact Function.update_of_ne h _ _
  · exact Function.update_of_ne h _ _
  · rfl

/-- The outcome of a step for the call that makes it. -/
inductive StepOf (s : Shared ι C) (c : ι) : Shared ι C → Prop where
  | register (h : s.phase c = .entered) (table : PtrMap Int (TxidInfo C)) :
      StepOf s c { s with
        table := table
        phase := Function.update s.phase c
          (.registered (if 1 < (list c).length then some s.txid else none)) }
  | load (key : Option (BitVec 32)) (h : s.phase c = .registered key) :
      StepOf s c { s with phase := Function.update s.phase c (.loaded key s.txid) }
  | reply (key : Option (BitVec 32)) (txid : BitVec 32) (h : s.phase c = .loaded key txid) :
      StepOf s c { s with
        txid := s.txid + 1
        phase := Function.update s.phase c (.returned key txid)
        out := s.out ++ [(c, txidReply txid.toInt (list c))] }
  | idle (key : Option (BitVec 32)) (txid : BitVec 32) (h : s.phase c = .returned key txid) :
      StepOf s c s

theorem step_stepOf (s : Shared ι C) (c : ι) : StepOf list s c (s.step list c) := by
  unfold step
  cases h : s.phase c with
  | entered =>
      dsimp only
      by_cases hl : (list c).length > 1
      · have hreg : StepOf list s c _ := .register h
          (s.table.insert s.txid.toInt (TxidInfo.init (list c).length))
        rw [if_pos hl] at hreg ⊢
        exact hreg
      · have hreg : StepOf list s c _ := .register h s.table
        rw [if_neg hl] at hreg ⊢
        exact hreg
  | registered key => exact .load key h
  | loaded key txid => exact .reply key txid h
  | returned key txid => exact .idle key txid h

/-! ### When a call makes its steps -/

/-- The call `c` has made `k` steps and makes the next one when `n` replies have been sent. -/
def StepsAfter (s₀ : Shared ι C) (l : List ι) (k : Nat) (c : ι) (n : Nat) : Prop :=
  ∃ l₁ l₂, l = l₁ ++ c :: l₂ ∧ l₁.count c = k ∧ (s₀.steps list l₁).out.length = n

variable {list}

theorem StepsAfter.concat {s₀ : Shared ι C} {l : List ι} {k n : Nat} {c : ι}
    (h : StepsAfter list s₀ l k c n) (d : ι) : StepsAfter list s₀ (l ++ [d]) k c n := by
  obtain ⟨l₁, l₂, rfl, hcount, hout⟩ := h
  exact ⟨l₁, l₂ ++ [d], by simp, hcount, hout⟩

theorem stepsAfter_last (s₀ : Shared ι C) (l : List ι) (c : ι) :
    StepsAfter list s₀ (l ++ [c]) (l.count c) c (s₀.steps list l).out.length :=
  ⟨l, [], rfl, rfl, rfl⟩

/-- A call makes a step only once. -/
theorem StepsAfter.unique {s₀ : Shared ι C} {l : List ι} {k n n' : Nat} {c : ι}
    (h : StepsAfter list s₀ l k c n) (h' : StepsAfter list s₀ l k c n') : n = n' := by
  obtain ⟨l₁, l₂, hl, hcount, hout⟩ := h
  obtain ⟨l₁', l₂', hl', hcount', hout'⟩ := h'
  -- of two steps of `c`, the later one has the earlier one before it
  have hnot : ∀ {a b : List ι}, a ++ [c] <+: b → a.count c ≠ b.count c := by
    intro a b hab heq
    have hle := hab.sublist.count_le c
    rw [List.count_append, List.count_singleton_self] at hle
    omega
  have hpre : l₁ ++ [c] <+: l := ⟨l₂, by simp [hl]⟩
  have hpre' : l₁' ++ [c] <+: l := ⟨l₂', by simp [hl']⟩
  have heq : l₁ = l₁' := by
    rcases Nat.lt_trichotomy l₁.length l₁'.length with hlt | hlen | hlt
    · have hshort := List.prefix_of_prefix_length_le hpre ((List.prefix_append _ _).trans hpre')
        (by simpa using Nat.succ_le_of_lt hlt)
      exact absurd (hcount.trans hcount'.symm) (hnot hshort)
    · have hsame := List.prefix_of_prefix_length_le ((List.prefix_append _ _).trans hpre)
        ((List.prefix_append _ _).trans hpre') (Nat.le_of_eq hlen)
      exact hsame.eq_of_length hlen
    · have hshort := List.prefix_of_prefix_length_le hpre' ((List.prefix_append _ _).trans hpre)
        (by simpa using Nat.succ_le_of_lt hlt)
      exact absurd (hcount'.trans hcount.symm) (hnot hshort)
  rw [← hout, ← hout', heq]

variable (list)

/-- What a call with several participants has read after `n` replies. -/
def keyAfter (t : BitVec 32) (c : ι) (n : Nat) : Option (BitVec 32) :=
  if 1 < (list c).length then some (t + BitVec.ofNat 32 n) else none

/-- Where the schedule `l` has brought the call `c`. -/
inductive Stands (t : BitVec 32) (s₀ : Shared ι C) (l : List ι) (c : ι) : Phase → Prop where
  | entered (h : l.count c = 0) : Stands t s₀ l c .entered
  | registered (n : Nat) (h : l.count c = 1) (hn : StepsAfter list s₀ l 0 c n) :
      Stands t s₀ l c (.registered (keyAfter list t c n))
  | loaded (n n' : Nat) (h : l.count c = 2) (hn : StepsAfter list s₀ l 0 c n)
      (hn' : StepsAfter list s₀ l 1 c n') :
      Stands t s₀ l c (.loaded (keyAfter list t c n) (t + BitVec.ofNat 32 n'))
  | returned (n n' : Nat) (h : 3 ≤ l.count c) (hn : StepsAfter list s₀ l 0 c n)
      (hn' : StepsAfter list s₀ l 1 c n') :
      Stands t s₀ l c (.returned (keyAfter list t c n) (t + BitVec.ofNat 32 n'))

/-- The counter has been incremented once for each reply, and the schedule says where each call
stands and what it has read. -/
structure Tracked (t : BitVec 32) (s₀ : Shared ι C) (l : List ι) (s : Shared ι C) : Prop where
  counter : s.txid = t + BitVec.ofNat 32 s.out.length
  stands : ∀ c, Stands list t s₀ l c (s.phase c)
  once : (s.out.map Prod.fst).Nodup
  returned : ∀ c, c ∈ s.out.map Prod.fst ↔ (s.phase c).isReturned = true
  reply : ∀ m ∈ s.out, m.2 = txidReply (s.phase m.1).txid.toInt (list m.1)

variable {list}

/-- A step of another call. -/
theorem Stands.concat_of_ne {t : BitVec 32} {s₀ : Shared ι C} {l : List ι} {c d : ι}
    {phase : Phase} (h : Stands list t s₀ l d phase) (hd : d ≠ c) :
    Stands list t s₀ (l ++ [c]) d phase := by
  have hcount : (l ++ [c]).count d = l.count d := by
    rw [List.count_append, List.count_singleton]
    simp [Ne.symm hd]
  cases h with
  | entered h => exact .entered (hcount.trans h)
  | registered n h hn => exact .registered n (hcount.trans h) (hn.concat c)
  | loaded n n' h hn hn' => exact .loaded n n' (hcount.trans h) (hn.concat c) (hn'.concat c)
  | returned n n' h hn hn' =>
      exact .returned n n' (hcount.symm ▸ h) (hn.concat c) (hn'.concat c)

/-- The step of the call itself. -/
theorem Stands.concat_self {t : BitVec 32} {l : List ι} {c : ι} {s₀ s s' : Shared ι C}
    (hs : s = s₀.steps list l) (hcounter : s.txid = t + BitVec.ofNat 32 s.out.length)
    (h : Stands list t s₀ l c (s.phase c)) (hstep : StepOf list s c s') :
    Stands list t s₀ (l ++ [c]) c (s'.phase c) := by
  have hcount : (l ++ [c]).count c = l.count c + 1 := by
    rw [List.count_append, List.count_singleton_self]
  have hlast : StepsAfter list s₀ (l ++ [c]) (l.count c) c (s₀.steps list l).out.length :=
    stepsAfter_last s₀ l c
  rw [← hs] at hlast
  cases hstep with
  | register hphase table =>
      rw [hphase] at h
      cases h with
      | entered h =>
          rw [h] at hlast
          simp only [Function.update_self, hcounter]
          exact .registered _ (by omega) hlast
  | load key hphase =>
      rw [hphase] at h
      cases h with
      | registered n h hn =>
          rw [h] at hlast
          simp only [Function.update_self, hcounter]
          exact .loaded n _ (by omega) (hn.concat c) hlast
  | reply key txid hphase =>
      rw [hphase] at h
      cases h with
      | loaded n n' h hn hn' =>
          simp only [Function.update_self]
          exact .returned n n' (by omega) (hn.concat c) (hn'.concat c)
  | idle key txid hphase =>
      rw [hphase] at h ⊢
      cases h with
      | returned n n' h hn hn' =>
          exact .returned n n' (by omega) (hn.concat c) (hn'.concat c)

/-- A step that sends no reply, by a call that has not returned. -/
theorem Tracked.silent {t : BitVec 32} {s₀ s : Shared ι C} {l : List ι} {c : ι}
    (h : Tracked list t s₀ l s) (hc : (s.phase c).isReturned = false) {phase : Phase}
    (hphase : phase.isReturned = false) {table : PtrMap Int (TxidInfo C)}
    (hstands : ∀ d, Stands list t s₀ (l ++ [c]) d (Function.update s.phase c phase d)) :
    Tracked list t s₀ (l ++ [c])
      { s with table := table, phase := Function.update s.phase c phase } where
  counter := h.counter
  stands := hstands
  once := h.once
  returned := fun d => by
    change d ∈ s.out.map Prod.fst ↔ (Function.update s.phase c phase d).isReturned = true
    by_cases hd : d = c
    · subst hd
      rw [h.returned, Function.update_self, hc, hphase]
    · rw [h.returned, Function.update_of_ne hd]
  reply := fun m hm => by
    change m.2 = txidReply (Function.update s.phase c phase m.1).txid.toInt (list m.1)
    have hne : m.1 ≠ c := by
      intro hmc
      have hret := (h.returned m.1).1 (List.mem_map_of_mem hm)
      rw [hmc, hc] at hret
      simp at hret
    rw [Function.update_of_ne hne]
    exact h.reply m hm

/-- The step that sends the reply. -/
theorem Tracked.replies {t : BitVec 32} {s₀ s : Shared ι C} {l : List ι} {c : ι}
    (h : Tracked list t s₀ l s) {key : Option (BitVec 32)} {txid : BitVec 32}
    (hc : s.phase c = .loaded key txid)
    (hstands : ∀ d, Stands list t s₀ (l ++ [c]) d
      (Function.update s.phase c (.returned key txid) d)) :
    Tracked list t s₀ (l ++ [c])
      { s with
        txid := s.txid + 1
        phase := Function.update s.phase c (.returned key txid)
        out := s.out ++ [(c, txidReply txid.toInt (list c))] } where
  counter := by
    change s.txid + 1 = t + BitVec.ofNat 32 (s.out ++ [_]).length
    rw [h.counter, List.length_append, List.length_singleton, BitVec.ofNat_add, BitVec.add_assoc]
    rfl
  stands := hstands
  once := by
    have hnew : c ∉ s.out.map Prod.fst := by
      rw [h.returned, hc]
      simp [Phase.isReturned]
    rw [List.map_append]
    refine h.once.append (List.nodup_singleton c) ?_
    intro d hd hdc
    obtain rfl := List.mem_singleton.1 hdc
    exact hnew hd
  returned := fun d => by
    change d ∈ (s.out ++ [_]).map Prod.fst ↔
      (Function.update s.phase c (.returned key txid) d).isReturned = true
    rw [List.map_append, List.mem_append, h.returned]
    by_cases hd : d = c
    · subst hd
      rw [Function.update_self]
      simp [Phase.isReturned]
    · rw [Function.update_of_ne hd]
      simp [hd]
  reply := fun m hm => by
    change m.2 = txidReply (Function.update s.phase c (.returned key txid) m.1).txid.toInt
      (list m.1)
    rcases List.mem_append.1 hm with hm | hm
    · have hne : m.1 ≠ c := by
        intro hmc
        have hret := (h.returned m.1).1 (List.mem_map_of_mem hm)
        rw [hmc, hc] at hret
        simp [Phase.isReturned] at hret
      rw [Function.update_of_ne hne]
      exact h.reply m hm
    · obtain rfl := List.mem_singleton.1 hm
      rw [Function.update_self]
      rfl

theorem Tracked.step {t : BitVec 32} {s₀ s s' : Shared ι C} {l : List ι} {c : ι}
    (h : Tracked list t s₀ l s) (hs : s = s₀.steps list l) (hstep : StepOf list s c s')
    (hother : ∀ d, d ≠ c → s'.phase d = s.phase d) : Tracked list t s₀ (l ++ [c]) s' := by
  have hstands : ∀ d, Stands list t s₀ (l ++ [c]) d (s'.phase d) := by
    intro d
    by_cases hd : d = c
    · subst hd
      exact Stands.concat_self hs h.counter (h.stands d) hstep
    · rw [hother d hd]
      exact (h.stands d).concat_of_ne hd
  cases hstep with
  | register hphase table => exact h.silent (by rw [hphase]; rfl) rfl hstands
  | load key hphase => exact h.silent (by rw [hphase]; rfl) rfl hstands
  | reply key txid hphase => exact h.replies hphase hstands
  | idle key txid hphase => exact ⟨h.counter, hstands, h.once, h.returned, h.reply⟩

theorem tracked_steps (list : ι → List IpAndPort) (t : BitVec 32) (l : List ι) :
    Tracked list t (init t) l ((init t : Shared ι C).steps list l) := by
  induction l using List.reverseRecOn with
  | nil =>
      refine ⟨?_, fun c => .entered rfl, List.nodup_nil, ?_, ?_⟩
      · change t = t + 0
        simp
      · intro c
        simp [steps, init, Phase.isReturned]
      · intro m hm
        simp [steps, init] at hm
  | append_singleton l c ih =>
      rw [steps_concat]
      exact ih.step rfl (step_stepOf list _ c) fun d hd => step_phase_of_ne list _ hd

/-! ### Which schedules give unique ids -/

theorem Tracked.replies_eq {t : BitVec 32} {s₀ s : Shared ι C} {l : List ι}
    (h : Tracked list t s₀ l s) :
    s.replies = (s.out.map Prod.fst).map fun c => (s.phase c).txid.toInt := by
  rw [Shared.replies, List.map_map, ← List.filterMap_eq_map]
  apply List.filterMap_congr
  intro m hm
  rw [h.reply m hm]
  simp [txidReply, createAppMsg]

/-- A call has replied once it has made its three steps. -/
theorem Tracked.returned_iff {t : BitVec 32} {s₀ s : Shared ι C} {l : List ι}
    (h : Tracked list t s₀ l s) (c : ι) :
    c ∈ s.out.map Prod.fst ↔ 3 ≤ l.count c := by
  rw [h.returned]
  have hstands := h.stands c
  generalize s.phase c = phase at hstands
  cases hstands with
  | entered hcount => simp [Phase.isReturned, hcount]
  | registered n hcount hn => simp [Phase.isReturned, hcount]
  | loaded n n' hcount hn hn' => simp [Phase.isReturned, hcount]
  | returned n n' hcount hn hn' => simp [Phase.isReturned, hcount]

theorem Tracked.phase_of_returned {t : BitVec 32} {s₀ s : Shared ι C} {l : List ι}
    (h : Tracked list t s₀ l s) {c : ι} (hcount : 3 ≤ l.count c) :
    ∃ n n', StepsAfter list s₀ l 0 c n ∧ StepsAfter list s₀ l 1 c n' ∧
      s.phase c = .returned (keyAfter list t c n) (t + BitVec.ofNat 32 n') := by
  have hstands := h.stands c
  generalize s.phase c = phase at hstands
  cases hstands with
  | entered hzero => omega
  | registered n hone hn => omega
  | loaded n n' htwo hn hn' => omega
  | returned n n' _ hn hn' => exact ⟨n, n', hn, hn', rfl⟩

variable (list)

/-- Replies have been sent between the readings of two calls for their replies, and none between
the two readings of one call, up to whole turns of the counter. -/
structure Separated (s₀ : Shared ι C) (l : List ι) : Prop where
  apart : ∀ c d n n', c ≠ d → 3 ≤ l.count c → 3 ≤ l.count d →
    StepsAfter list s₀ l 1 c n → StepsAfter list s₀ l 1 d n' →
      n % 4294967296 ≠ n' % 4294967296
  together : ∀ c n n', 1 < (list c).length → 3 ≤ l.count c →
    StepsAfter list s₀ l 0 c n → StepsAfter list s₀ l 1 c n' →
      n % 4294967296 = n' % 4294967296

/-- Under every interleaving of any calls, the ids are unique exactly if the readings are
separated. -/
theorem uniqueIds_iff (t : BitVec 32) (l : List ι) :
    UniqueIds list ((init t : Shared ι C).steps list l) ↔
      Separated list (init t : Shared ι C) l := by
  have h := tracked_steps (C := C) list t l
  generalize (init t : Shared ι C).steps list l = s at h
  constructor
  · intro hunique
    refine ⟨?_, ?_⟩
    · intro c d n n' hne hc hd hn hn' heq
      obtain ⟨_, nc, -, hnc, hphase⟩ := h.phase_of_returned hc
      obtain ⟨_, nd, -, hnd, hphase'⟩ := h.phase_of_returned hd
      obtain rfl := hn.unique hnc
      obtain rfl := hn'.unique hnd
      have hdistinct := hunique.distinct
      rw [h.replies_eq, List.nodup_map_iff_inj_on h.once] at hdistinct
      refine hne (hdistinct c ((h.returned_iff c).2 hc) d ((h.returned_iff d).2 hd) ?_)
      rw [hphase, hphase']
      exact congrArg BitVec.toInt ((readings_eq_iff t n n').2 heq)
    · intro c n n' hseveral hc hn hn'
      obtain ⟨m, m', hm, hm', hphase⟩ := h.phase_of_returned hc
      obtain rfl := hn.unique hm
      obtain rfl := hn'.unique hm'
      have hstored := hunique.stored c _ _ hseveral hphase
      rw [keyAfter, if_pos hseveral, Option.some.injEq] at hstored
      exact (readings_eq_iff t n n').1 hstored
  · intro hsep
    refine ⟨?_, ?_⟩
    · rw [h.replies_eq, List.nodup_map_iff_inj_on h.once]
      intro c hc d hd heq
      rw [h.returned_iff] at hc hd
      obtain ⟨_, n, -, hn, hphase⟩ := h.phase_of_returned hc
      obtain ⟨_, n', -, hn', hphase'⟩ := h.phase_of_returned hd
      rw [hphase, hphase'] at heq
      by_contra hne
      exact hsep.apart c d n n' hne hc hd hn hn'
        ((readings_eq_iff t n n').1 (BitVec.toInt_inj.1 heq))
    · intro c key txid hseveral hphase
      have hc : 3 ≤ l.count c := by
        rw [← h.returned_iff, h.returned, hphase]
        rfl
      obtain ⟨n, n', hn, hn', hphase'⟩ := h.phase_of_returned hc
      rw [hphase'] at hphase
      obtain ⟨rfl, rfl⟩ := Phase.returned.inj hphase
      rw [keyAfter, if_pos hseveral]
      exact congrArg some ((readings_eq_iff t n n').2 (hsep.together c n n' hseveral hc hn hn'))

/-- Two calls read the counter before either of them has incremented it; and a call replies with
another id than it has registered when a second one runs in between. -/
theorem not_uniqueIds_overlap :
    ¬UniqueIds (fun _ => [⟨"a", 1⟩, ⟨"b", 2⟩])
        ((init 0 : Shared Bool Unit).steps (fun _ => [⟨"a", 1⟩, ⟨"b", 2⟩])
          [false, true, false, true, false, true]) ∧
      ¬UniqueIds (fun _ => [⟨"a", 1⟩, ⟨"b", 2⟩])
        ((init 0 : Shared Bool Unit).steps (fun _ => [⟨"a", 1⟩, ⟨"b", 2⟩])
          [false, true, true, true, false, false]) := by
  refine ⟨?_, ?_⟩
  · intro h
    exact absurd h.distinct (by decide)
  · intro h
    have hstored := h.stored false (some 0) 1 (by decide) (by decide)
    exact absurd hstored (by decide)

/-! ### Calls one after the other -/

/-- The three steps of a call that is not interrupted. -/
theorem steps_three {s : Shared ι C} {c : ι} (h : s.phase c = .entered) :
    s.steps list [c, c, c] =
      { txid := s.txid + 1
        table :=
          if (list c).length > 1 then
            s.table.insert s.txid.toInt (TxidInfo.init (list c).length)
          else s.table
        phase := Function.update s.phase c
          (.returned (if (list c).length > 1 then some s.txid else none) s.txid)
        out := s.out ++ [(c, txidReply s.txid.toInt (list c))] } := by
  by_cases hl : (list c).length > 1
  · simp [steps, step, h, hl]
  · simp [steps, step, h, hl]

/-- The GTM of the single-threaded model. -/
structure Models (g : Gtm ι) (s : Shared ι ι) : Prop where
  txid : g.txid = s.txid
  table : g.table = s.table
  out : g.out = s.out

/-- A call that is not interrupted is a call of the single-threaded model. -/
theorem Models.getTxid {g : Gtm ι} {s : Shared ι ι} (h : Models g s) {c : ι}
    (hc : s.phase c = .entered) {transType : String} (hlist : g.transInfo transType = list c) :
    Models (g.getTxid c transType) (s.steps list [c, c, c]) := by
  rw [steps_three list hc]
  refine ⟨?_, ?_, ?_⟩
  · exact congrArg (· + 1) h.txid
  · simp only [Gtm.getTxid, hlist, h.txid, h.table]
  · simp only [Gtm.getTxid, hlist, h.txid, h.out]

/-- Each call makes its three steps before the next one begins. -/
def serial (cs : List ι) : List ι := cs.flatMap fun c => [c, c, c]

theorem steps_append (s : Shared ι C) (l l' : List ι) :
    s.steps list (l ++ l') = (s.steps list l).steps list l' := by
  simp [steps]

omit [DecidableEq ι] in
theorem serial_append (cs ds : List ι) : serial (cs ++ ds) = serial cs ++ serial ds := by
  simp [serial]

omit [DecidableEq ι] in
theorem mem_serial {cs : List ι} {c : ι} : c ∈ serial cs ↔ c ∈ cs := by
  simp [serial]

theorem phase_of_not_mem {t : BitVec 32} {l : List ι} {c : ι} (h : c ∉ l) :
    ((init t : Shared ι C).steps list l).phase c = .entered := by
  have hstands := (tracked_steps (C := C) list t l).stands c
  have hzero := List.count_eq_zero.2 h
  generalize ((init t : Shared ι C).steps list l).phase c = phase at hstands
  cases hstands with
  | entered _ => rfl
  | registered n hone hn => omega
  | loaded n n' htwo hn hn' => omega
  | returned n n' hthree hn hn' => omega

theorem length_out_serial (t : BitVec 32) {cs : List ι} (h : cs.Nodup) :
    ((init t : Shared ι C).steps list (serial cs)).out.length = cs.length := by
  induction cs using List.reverseRecOn with
  | nil => rfl
  | append_singleton cs c ih =>
      obtain ⟨hcs, -, hdisj⟩ := List.nodup_append.1 h
      have hnew : c ∉ serial cs := by
        rw [mem_serial]
        intro hc
        exact hdisj c hc c (List.mem_singleton_self c) rfl
      rw [serial_append, steps_append]
      have hthree := steps_three list (phase_of_not_mem (C := C) (t := t) list hnew)
      rw [show serial [c] = [c, c, c] from rfl, hthree, List.length_append, List.length_append,
        ih hcs]
      rfl

/-- Both readings of a call come after the replies of the calls before it. -/
theorem stepsAfter_serial (t : BitVec 32) {cs ds : List ι} {c : ι} (h : (cs ++ c :: ds).Nodup) :
    StepsAfter list (init t : Shared ι C) (serial (cs ++ c :: ds)) 0 c cs.length ∧
      StepsAfter list (init t : Shared ι C) (serial (cs ++ c :: ds)) 1 c cs.length := by
  obtain ⟨hcs, -, hdisj⟩ := List.nodup_append.1 h
  have hnew : c ∉ serial cs := by
    rw [mem_serial]
    intro hc
    exact hdisj c hc c List.mem_cons_self rfl
  have hsplit : serial (cs ++ c :: ds) = serial cs ++ c :: c :: c :: serial ds := by
    simp [serial]
  have hzero : (serial cs).count c = 0 := List.count_eq_zero.2 hnew
  refine ⟨⟨serial cs, c :: c :: serial ds, hsplit, hzero, length_out_serial list t hcs⟩,
    ⟨serial cs ++ [c], c :: serial ds, by simp [hsplit], ?_, ?_⟩⟩
  · rw [List.count_append, hzero, List.count_singleton_self]
  · rw [steps_concat]
    have hentered := phase_of_not_mem (C := C) (t := t) list hnew
    have hsame : (((init t : Shared ι C).steps list (serial cs)).step list c).out =
        ((init t : Shared ι C).steps list (serial cs)).out := by
      rw [step, hentered]
      dsimp only
      split
      · rfl
      · rfl
    rw [hsame]
    exact length_out_serial list t hcs

/-- One turn of the counter of calls that do not overlap is separated. -/
theorem separated_serial (t : BitVec 32) {cs : List ι} (h : cs.Nodup)
    (hlen : cs.length ≤ 4294967296) : Separated list (init t : Shared ι C) (serial cs) := by
  have hmem : ∀ c, 3 ≤ (serial cs).count c → ∃ as bs, cs = as ++ c :: bs := by
    intro c hc
    have hc : c ∈ serial cs := List.count_pos_iff.1 (by omega)
    exact List.append_of_mem (mem_serial.1 hc)
  refine ⟨?_, ?_⟩
  · intro c d n n' hne hc hd hn hn'
    obtain ⟨as, bs, heq⟩ := hmem c hc
    obtain ⟨as', bs', heq'⟩ := hmem d hd
    have hc' := (stepsAfter_serial (C := C) list t (heq ▸ h)).2
    have hd' := (stepsAfter_serial (C := C) list t (heq' ▸ h)).2
    rw [← heq] at hc'
    rw [← heq'] at hd'
    obtain rfl := hn.unique hc'
    obtain rfl := hn'.unique hd'
    have hlt : as.length < cs.length := by simp [heq]
    have hlt' : as'.length < cs.length := by simp [heq']
    rw [Nat.mod_eq_of_lt (by omega), Nat.mod_eq_of_lt (by omega)]
    intro hlength
    have hsame := (List.append_inj (heq.symm.trans heq') hlength).2
    exact hne (List.cons.inj hsame).1
  · intro c n n' _ hc hn hn'
    obtain ⟨as, bs, heq⟩ := hmem c hc
    obtain ⟨hc₀, hc₁⟩ := stepsAfter_serial (C := C) list t (heq ▸ h)
    rw [← heq] at hc₀ hc₁
    rw [hn.unique hc₀, hn'.unique hc₁]

end Shared

end Gtm

end Grit
