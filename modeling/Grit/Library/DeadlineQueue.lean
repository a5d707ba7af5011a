import Mathlib.Data.List.Basic
import Grit.Library.History

/-!
# Queues of deadlines

A queue holds entries that each have a deadline, counted in ticks. An entry that is added
with the timeout `T` fires in the `(T + 1)`-th tick from then on, unless it is deleted
before. Entries are named by the number of entries added before them. `Meaning` reads a
queue off the history of its operations.
-/

namespace DeadlineQueue

inductive Op (α : Type*) where
  | add (timeout : Nat) (item : α)
  | del (id : Nat)
  | tick
deriving DecidableEq

structure Entry (α : Type*) where
  id : Nat
  due : Nat
  item : α

end DeadlineQueue

/-- `now` counts the ticks and `next` the entries added. `pending` is in the order of
addition; `fired` has each entry that fired with the tick it fired in. -/
structure DeadlineQueue (α : Type*) where
  now : Nat
  next : Nat
  pending : List (DeadlineQueue.Entry α)
  fired : List (Nat × DeadlineQueue.Entry α)

namespace DeadlineQueue

open History

variable {α : Type*}

def empty : DeadlineQueue α := { now := 0, next := 0, pending := [], fired := [] }

def add (timeout : Nat) (item : α) (q : DeadlineQueue α) : DeadlineQueue α :=
  { q with
    next := q.next + 1
    pending := q.pending ++ [⟨q.next, q.now + timeout + 1, item⟩] }

def del (id : Nat) (q : DeadlineQueue α) : DeadlineQueue α :=
  { q with pending := q.pending.filter fun e => e.id ≠ id }

/-- The entries that fire in the next tick. -/
def due (q : DeadlineQueue α) : List (Entry α) := q.pending.filter fun e => e.due = q.now + 1

def tick (q : DeadlineQueue α) : DeadlineQueue α :=
  { q with
    now := q.now + 1
    pending := q.pending.filter fun e => e.due ≠ q.now + 1
    fired := q.fired ++ q.due.map fun e => (q.now + 1, e) }

def step (q : DeadlineQueue α) : Op α → DeadlineQueue α
  | .add timeout item => q.add timeout item
  | .del id => q.del id
  | .tick => q.tick

def run (l : List (Op α)) : DeadlineQueue α := l.foldl step empty

theorem run_concat (l : List (Op α)) (op : Op α) : run (l ++ [op]) = (run l).step op :=
  List.foldl_concat ..

/-! ### Order -/

/-- Entries are pending in the order of their names, and have fired in the order of their
ticks and, within a tick, of their names. -/
structure Ordered (q : DeadlineQueue α) : Prop where
  ids : q.pending.Pairwise fun a b => a.id < b.id
  fresh : ∀ e ∈ q.pending, e.id < q.next
  later : ∀ e ∈ q.pending, q.now < e.due
  past : ∀ p ∈ q.fired, p.1 ≤ q.now
  sorted : q.fired.Pairwise fun a b => a.1 < b.1 ∨ a.1 = b.1 ∧ a.2.id < b.2.id

theorem ordered_empty : (empty : DeadlineQueue α).Ordered :=
  ⟨List.Pairwise.nil, by simp [empty], by simp [empty], by simp [empty], List.Pairwise.nil⟩

theorem Ordered.add {q : DeadlineQueue α} (h : q.Ordered) (timeout : Nat) (item : α) :
    (q.add timeout item).Ordered where
  ids := List.pairwise_append.2 ⟨h.ids, List.pairwise_singleton _ _, fun e he e' he' => by
    rw [List.mem_singleton.1 he']
    exact h.fresh e he⟩
  fresh := fun e he => by
    rcases List.mem_append.1 he with he | he
    · exact Nat.lt_succ_of_lt (h.fresh e he)
    · rw [List.mem_singleton.1 he]
      exact Nat.lt_succ_self q.next
  later := fun e he => by
    rcases List.mem_append.1 he with he | he
    · exact h.later e he
    · rw [List.mem_singleton.1 he]
      exact Nat.lt_succ_of_le (Nat.le_add_right q.now timeout)
  past := h.past
  sorted := h.sorted

theorem Ordered.del {q : DeadlineQueue α} (h : q.Ordered) (id : Nat) : (q.del id).Ordered where
  ids := h.ids.filter _
  fresh := fun e he => h.fresh e (List.mem_of_mem_filter he)
  later := fun e he => h.later e (List.mem_of_mem_filter he)
  past := h.past
  sorted := h.sorted

theorem Ordered.tick {q : DeadlineQueue α} (h : q.Ordered) : q.tick.Ordered where
  ids := h.ids.filter _
  fresh := fun e he => h.fresh e (List.mem_of_mem_filter he)
  later := fun e he => by
    obtain ⟨he, hdue⟩ := List.mem_filter.1 he
    have hlater := h.later e he
    simp only [decide_eq_true_eq] at hdue
    change q.now + 1 < e.due
    omega
  past := fun p hp => by
    rcases List.mem_append.1 hp with hp | hp
    · exact Nat.le_succ_of_le (h.past p hp)
    · obtain ⟨e, -, rfl⟩ := List.mem_map.1 hp
      exact Nat.le_refl _
  sorted := List.pairwise_append.2 ⟨h.sorted, List.pairwise_map.2
    ((h.ids.filter _).imp fun hid => Or.inr ⟨rfl, hid⟩), fun p hp p' hp' => by
      obtain ⟨e, -, rfl⟩ := List.mem_map.1 hp'
      exact Or.inl (Nat.lt_succ_of_le (h.past p hp))⟩

theorem Ordered.step {q : DeadlineQueue α} (h : q.Ordered) (op : Op α) : (q.step op).Ordered := by
  cases op with
  | add timeout item => exact h.add timeout item
  | del id => exact h.del id
  | tick => exact h.tick

theorem ordered_run (l : List (Op α)) : (run l).Ordered := by
  induction l using List.reverseRecOn with
  | nil => exact ordered_empty
  | append_singleton l op ih =>
      rw [run_concat]
      exact ih.step op

/-! ### Meaning -/

def Op.isAdd : Op α → Bool
  | .add _ _ => true
  | _ => false

def Op.isTick : Op α → Bool
  | .tick => true
  | _ => false

/-- The number of entries that a history adds. -/
def adds (l : List (Op α)) : Nat := l.countP Op.isAdd

/-- The number of ticks in a history. -/
def ticks (l : List (Op α)) : Nat := l.countP Op.isTick

@[simp]
theorem adds_concat (l : List (Op α)) (op : Op α) :
    adds (l ++ [op]) = adds l + if op.isAdd then 1 else 0 := by
  simp [adds]

@[simp]
theorem ticks_concat (l : List (Op α)) (op : Op α) :
    ticks (l ++ [op]) = ticks l + if op.isTick then 1 else 0 := by
  simp [ticks]

theorem next_run (l : List (Op α)) : (run l).next = adds l := by
  induction l using List.reverseRecOn with
  | nil => rfl
  | append_singleton l op ih =>
      rw [run_concat, adds_concat, ← ih]
      cases op <;> rfl

theorem now_run (l : List (Op α)) : (run l).now = ticks l := by
  induction l using List.reverseRecOn with
  | nil => rfl
  | append_singleton l op ih =>
      rw [run_concat, ticks_concat, ← ih]
      cases op <;> rfl

/-- The history adds the entry. -/
def Scheduled (l : List (Op α)) (e : Entry α) : Prop :=
  ∃ pre timeout post, l = pre ++ .add timeout e.item :: post ∧
    e.id = adds pre ∧ e.due = ticks pre + timeout + 1

/-- The history deletes the entry before it is due. -/
def Deleted (l : List (Op α)) (e : Entry α) : Prop :=
  ∃ pre post, l = pre ++ .del e.id :: post ∧ ticks pre < e.due

theorem scheduled_concat (l : List (Op α)) (op : Op α) (e : Entry α) :
    Scheduled (l ++ [op]) e ↔ Scheduled l e ∨
      ∃ timeout, op = .add timeout e.item ∧ e.id = adds l ∧ e.due = ticks l + timeout + 1 := by
  constructor
  · rintro ⟨pre, timeout, post, heq, hid, hdue⟩
    rcases concat_eq_append_cons heq with ⟨-, hop, rfl⟩ | ⟨post', -, hl⟩
    · exact Or.inr ⟨timeout, hop.symm, hid, hdue⟩
    · exact Or.inl ⟨pre, timeout, post', hl, hid, hdue⟩
  · rintro (⟨pre, timeout, post, rfl, hid, hdue⟩ | ⟨timeout, rfl, hid, hdue⟩)
    · exact ⟨pre, timeout, post ++ [op], by simp, hid, hdue⟩
    · exact ⟨l, timeout, [], rfl, hid, hdue⟩

theorem deleted_concat (l : List (Op α)) (op : Op α) (e : Entry α) :
    Deleted (l ++ [op]) e ↔ Deleted l e ∨ op = .del e.id ∧ ticks l < e.due := by
  constructor
  · rintro ⟨pre, post, heq, hdue⟩
    rcases concat_eq_append_cons heq with ⟨-, hop, rfl⟩ | ⟨post', -, hl⟩
    · exact Or.inr ⟨hop.symm, hdue⟩
    · exact Or.inl ⟨pre, post', hl, hdue⟩
  · rintro (⟨pre, post, rfl, hdue⟩ | ⟨rfl, hdue⟩)
    · exact ⟨pre, post ++ [op], by simp, hdue⟩
    · exact ⟨l, [], rfl, hdue⟩

/-- A deletion names an entry that was added before it. -/
def Named (pre : List (Op α)) (op : Op α) : Prop := ∀ id, op = .del id → id < adds pre

theorem adds_le_append (l l' : List (Op α)) : adds l ≤ adds (l ++ l') := by
  simp [adds]

/-- An entry that has yet to be added is not deleted. -/
theorem not_deleted_of_adds_le {l : List (Op α)} (h : Each Named l) {e : Entry α}
    (he : adds l ≤ e.id) : ¬Deleted l e := by
  rintro ⟨pre, post, rfl, -⟩
  have hid := h pre _ post rfl e.id rfl
  have hle := adds_le_append pre (.del e.id :: post)
  omega

/-- The pending and the fired entries are the ones that were added and not deleted in time. -/
structure Meaning (l : List (Op α)) : Prop where
  pending : ∀ e, e ∈ (run l).pending ↔ Scheduled l e ∧ ticks l < e.due ∧ ¬Deleted l e
  fired : ∀ k e, (k, e) ∈ (run l).fired ↔
    k = e.due ∧ Scheduled l e ∧ e.due ≤ ticks l ∧ ¬Deleted l e

theorem meaning_nil : Meaning ([] : List (Op α)) where
  pending := fun e => by simp [run, empty, Scheduled]
  fired := fun k e => by simp [run, empty, Scheduled]

theorem Meaning.add {l : List (Op α)} (h : Meaning l)
    (hl : Each Named l) (timeout : Nat) (item : α) :
    Meaning (l ++ [.add timeout item]) where
  pending := fun e => by
    have hfresh : e.id = adds l → ¬Deleted l e := fun hid =>
      not_deleted_of_adds_le hl (Nat.le_of_eq hid.symm)
    have hnew : e = ⟨(run l).next, (run l).now + timeout + 1, item⟩ ↔
        e.item = item ∧ e.id = adds l ∧ e.due = ticks l + timeout + 1 := by
      cases e
      simp only [Entry.mk.injEq, next_run, now_run]
      tauto
    simp only [run_concat, step, DeadlineQueue.add, List.mem_append, List.mem_singleton, h.pending,
      hnew, scheduled_concat, deleted_concat, ticks_concat, Op.isTick, Op.add.injEq]
    constructor
    · rintro (⟨hs, hlt, hd⟩ | ⟨rfl, hid, hdue⟩)
      · exact ⟨Or.inl hs, by simpa using hlt, by simpa using hd⟩
      · refine ⟨Or.inr ⟨timeout, ⟨rfl, rfl⟩, hid, hdue⟩, ?_, by simpa using hfresh hid⟩
        simp only [Bool.false_eq_true, if_false]
        omega
    · rintro ⟨hs | ⟨_, ⟨rfl, hitem⟩, hid, hdue⟩, hlt, hd⟩
      · exact Or.inl ⟨hs, by simpa using hlt, by simpa using hd⟩
      · exact Or.inr ⟨hitem.symm, hid, hdue⟩
  fired := fun k e => by
    simp only [run_concat, step, DeadlineQueue.add, h.fired, scheduled_concat, deleted_concat,
      ticks_concat, Op.isTick]
    constructor
    · rintro ⟨hk, hs, hle, hd⟩
      exact ⟨hk, Or.inl hs, by simpa using hle, by simpa using hd⟩
    · rintro ⟨hk, hs | ⟨_, -, -, hdue⟩, hle, hd⟩
      · exact ⟨hk, hs, by simpa using hle, by simpa using hd⟩
      · simp only [Bool.false_eq_true, if_false] at hle
        omega

theorem Meaning.del {l : List (Op α)} (h : Meaning l) (id : Nat) :
    Meaning (l ++ [.del id]) where
  pending := fun e => by
    simp only [run_concat, step, DeadlineQueue.del, List.mem_filter, h.pending, scheduled_concat,
      deleted_concat, ticks_concat, Op.isTick, Op.del.injEq, decide_eq_true_eq]
    constructor
    · rintro ⟨⟨hs, hlt, hd⟩, hne⟩
      exact ⟨Or.inl hs, by simpa using hlt, by tauto⟩
    · rintro ⟨hs | ⟨_, hop, -⟩, hlt, hd⟩
      · simp only [Bool.false_eq_true, if_false, Nat.add_zero] at hlt
        exact ⟨⟨hs, hlt, by tauto⟩, fun hid => hd (Or.inr ⟨hid.symm, hlt⟩)⟩
      · simp at hop
  fired := fun k e => by
    simp only [run_concat, step, DeadlineQueue.del, h.fired, scheduled_concat, deleted_concat,
      ticks_concat, Op.isTick]
    constructor
    · rintro ⟨hk, hs, hle, hd⟩
      refine ⟨hk, Or.inl hs, by simpa using hle, ?_⟩
      rintro (hdel | ⟨-, hlt⟩)
      · exact hd hdel
      · omega
    · rintro ⟨hk, hs | ⟨_, hop, -⟩, hle, hd⟩
      · exact ⟨hk, hs, by simpa using hle, fun hdel => hd (Or.inl hdel)⟩
      · simp at hop

theorem Meaning.tick {l : List (Op α)} (h : Meaning l) :
    Meaning (l ++ [.tick]) where
  pending := fun e => by
    simp only [run_concat, step, DeadlineQueue.tick, List.mem_filter, h.pending, now_run,
      scheduled_concat, deleted_concat, ticks_concat, Op.isTick, decide_eq_true_eq, if_true]
    constructor
    · rintro ⟨⟨hs, hlt, hd⟩, hne⟩
      exact ⟨Or.inl hs, by omega, by simpa using hd⟩
    · rintro ⟨hs | ⟨_, hop, -⟩, hlt, hd⟩
      · exact ⟨⟨hs, by omega, by simpa using hd⟩, by omega⟩
      · simp at hop
  fired := fun k e => by
    simp only [run_concat, step, DeadlineQueue.tick, due, List.mem_append, List.mem_map,
      List.mem_filter, h.pending, h.fired, now_run, scheduled_concat, deleted_concat,
      ticks_concat, Op.isTick, decide_eq_true_eq, if_true, Prod.mk.injEq]
    constructor
    · rintro (⟨hk, hs, hle, hd⟩ | ⟨_, ⟨⟨hs, hlt, hd⟩, hdue⟩, rfl, rfl⟩)
      · exact ⟨hk, Or.inl hs, by omega, by simpa using hd⟩
      · exact ⟨hdue.symm, Or.inl hs, by omega, by simpa using hd⟩
    · rintro ⟨hk, hs | ⟨_, hop, -⟩, hle, hd⟩
      · rcases Nat.lt_or_ge (ticks l) e.due with hlt | hge
        · exact Or.inr ⟨e, ⟨⟨hs, hlt, by simpa using hd⟩, by omega⟩, by omega, rfl⟩
        · exact Or.inl ⟨hk, hs, hge, by simpa using hd⟩
      · simp at hop

theorem Meaning.step {l : List (Op α)} (h : Meaning l)
    (hl : Each Named l) (op : Op α) : Meaning (l ++ [op]) := by
  cases op with
  | add timeout item => exact h.add hl timeout item
  | del id => exact h.del id
  | tick => exact h.tick

theorem meaning_run {l : List (Op α)} (hl : Each Named l) : Meaning l := by
  induction l using List.reverseRecOn with
  | nil => exact meaning_nil
  | append_singleton l op ih =>
      have hpre := ((each_concat Named l op).1 hl).1
      exact (ih hpre).step hpre op

/-- A name belongs to one entry. -/
theorem Scheduled.unique {l : List (Op α)} {e e' : Entry α} (h : Scheduled l e)
    (h' : Scheduled l e') (hid : e.id = e'.id) : e = e' := by
  obtain ⟨pre, timeout, post, hl, he, hdue⟩ := h
  obtain ⟨pre', timeout', post', hl', he', hdue'⟩ := h'
  -- of two different positions the later one has the larger name
  rcases split_cases (hl.symm.trans hl') with ⟨rfl, hop, -⟩ | ⟨m, rfl, -⟩ | ⟨m, rfl, -⟩
  · simp only [Op.add.injEq] at hop
    obtain ⟨rfl, hitem⟩ := hop
    cases e
    cases e'
    simp_all
  · have hlt : adds pre < adds (pre ++ .add timeout e.item :: m) := by simp [adds, Op.isAdd]
    omega
  · have hlt : adds pre' < adds (pre' ++ .add timeout' e'.item :: m) := by simp [adds, Op.isAdd]
    omega

/-- No entry fires twice. -/
theorem nodup_fired {l : List (Op α)} (hl : Each Named l) :
    ((run l).fired.map fun p => p.2.id).Nodup := by
  have hm := meaning_run hl
  refine List.pairwise_map.2 ((ordered_run l).sorted.imp_of_mem ?_)
  rintro ⟨k, e⟩ ⟨k', e'⟩ he he' hlex hid
  obtain ⟨rfl, hs, -⟩ := (hm.fired k e).1 he
  obtain ⟨rfl, hs', -⟩ := (hm.fired k' e').1 he'
  obtain rfl := hs.unique hs' hid
  simp at hlex

end DeadlineQueue
