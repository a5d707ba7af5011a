import Grit.DbService.CommitLsn
import Grit.EntityService.Basic

/-!
# The data of a transaction, from the entity service to the DbService

`getReadWriteSet` walks both vectors of a message and reads all three strings of every
item. Messages in which all of these are set are collected one after the other, each
transaction for itself. A message of `ES::solve` is never of this kind: it sets one vector
only.
-/

namespace Grit

open Cmd

namespace DbService

variable {C W : Type*}

/-- Every vector and string that `getReadWriteSet` reads was set. -/
def Complete (d : DbServiceMsg) : Prop :=
  (decodeSet d.readSet).isSome ∧ (decodeSet d.writeSet).isSome

instance (d : DbServiceMsg) : Decidable (Complete d) := inferInstanceAs (Decidable (_ ∧ _))

def receiveData (s : DbService C W) (m : C × DbServiceMsg) : DbService C W :=
  s.andThen (onMessage m.1 (.dbServiceMsg m.2))

/-- The messages `l` are handled one after the other. -/
def feed (s : DbService C W) (l : List (C × DbServiceMsg)) : DbService C W :=
  l.foldl receiveData s

/-- What the messages `l` say about the read set of transaction `x`. -/
def readsFor (x : Int) (l : List (C × DbServiceMsg)) : List FlatData :=
  (l.filter fun m => m.2.txid = x).flatMap fun m => m.2.reads

def writesFor (x : Int) (l : List (C × DbServiceMsg)) : List FlatData :=
  (l.filter fun m => m.2.txid = x).flatMap fun m => m.2.writes

/-- The process lives, and the sets of each transaction are those that the messages `l`
carry for it, in their order. -/
structure Collected (l : List (C × DbServiceMsg)) (s : DbService C W) : Prop where
  live : s.crashed = false
  readSet : ∀ x, encodeSet (((current x s).map Transaction.readSet).getD []) = readsFor x l
  writeSet : ∀ x, encodeSet (((current x s).map Transaction.writeSet).getD []) = writesFor x l

/-! ### Decoding -/

theorem encodeSet_append (l l' : List Data) :
    encodeSet (l ++ l') = encodeSet l ++ encodeSet l' := by
  simp [encodeSet]

theorem encode_decodeData {d : FlatData} {e : Data} (h : decodeData d = some e) :
    createData (some e.key) (some e.attr) (some e.value) = d := by
  obtain ⟨key, attr, value⟩ := d
  simp only [decodeData, Option.bind_eq_some_iff, Option.map_eq_some_iff] at h
  obtain ⟨k, rfl, a, rfl, v, rfl, rfl⟩ := h
  rfl

theorem encodeSet_of_decodeSet {l : Option (List FlatData)} {ds : List Data}
    (h : decodeSet l = some ds) : encodeSet ds = l.getD [] := by
  cases l with
  | none => simp [decodeSet] at h
  | some l => exact map_of_mapM (fun _ _ => encode_decodeData) h

/-! ### One message -/

/-- A live process between messages: the map holds no null pointer. -/
structure Tidy (s : DbService C W) : Prop where
  live : s.crashed = false
  wellFormed : WellFormed s
  found : ∀ y, s.txidTrans y ≠ some none

theorem tidy_init (w : W) : Tidy (init w : DbService C W) where
  live := rfl
  wellFormed := wellFormed_init w
  found y := by simp [init, PtrMap.empty]

/-- The object that data for `y` goes to. -/
theorem opened_eq_current {s s₁ : DbService C W} {y : Int} {p : Nat} {t : Transaction}
    (hopen : Opened y s p t s₁) : t = (current y s).getD (Transaction.init y) := by
  cases hopen with
  | old p t hp ht => simp [current, hp, ht]
  | new hnone => simp [current, PtrMap.find, hnone]

theorem Tidy.getReadWriteSet_live {s : DbService C W} (h : Tidy s) (conn : C)
    {data : DbServiceMsg} (hc : Complete data) :
    (s.getReadWriteSet conn data).crashed = false := by
  obtain ⟨hr, hw⟩ := hc
  obtain ⟨rset, hr⟩ := Option.isSome_iff_exists.1 hr
  obtain ⟨wset, hw⟩ := Option.isSome_iff_exists.1 hw
  unfold getReadWriteSet withTrans findOrCreate
  cases hy : s.txidTrans data.txid with
  | none => simpa [hr, hw, store] using h.live
  | some o =>
      cases o with
      | none => exact absurd hy (h.found data.txid)
      | some p =>
          have hp : s.txidTrans.find data.txid = some p := by simp [PtrMap.find, hy]
          obtain ⟨-, t, ht, -⟩ := h.wellFormed.held data.txid p hp
          simpa [hp, ht, hr, hw, store] using h.live

/-- A message that the process survives was complete. -/
theorem complete_of_live {s : DbService C W} {conn : C} {data : DbServiceMsg}
    (hlive : (s.getReadWriteSet conn data).crashed = false) : Complete data := by
  rcases getReadWriteSet_cases conn data s with ⟨-, hcr⟩ |
    ⟨p, t, s₁, rset, wset, -, hr, hw, -⟩
  · simp [hlive] at hcr
  · exact ⟨by simp [hr], by simp [hw]⟩

theorem onData_of_crashed {s : DbService C W} {conn : C} {data : DbServiceMsg}
    (h : (s.getReadWriteSet conn data).crashed = true) :
    (s.onData conn data).crashed = true := by
  rw [onData, andThen, if_pos h]
  exact h

/-- The object of `x` after a complete message. -/
def collectFor (x : Int) (data : DbServiceMsg) (rset wset : List Data)
    (t : Option Transaction) : Option Transaction :=
  if data.txid = x then some ((t.getD (Transaction.init x)).collect rset wset) else t

theorem current_of_opened {s s₁ : DbService C W} (hwf : WellFormed s) {x y : Int} {p : Nat}
    {t : Transaction} (hopen : Opened y s p t s₁) (hx : y ≠ x) :
    current x s₁ = current x s := by
  cases hopen with
  | old p t hp ht => rfl
  | new hnone =>
      simp only [current, PtrMap.find_insert_of_ne _ _ (Ne.symm hx)]
      cases hq : s.txidTrans.find x with
      | none => rfl
      | some q =>
          have hlt := (hwf.held x q hq).1
          exact Function.update_of_ne (by omega) _ _

theorem found_of_opened {s s₁ : DbService C W} {y : Int} {p : Nat} {t : Transaction}
    (h : ∀ z, s.txidTrans z ≠ some none) (hopen : Opened y s p t s₁) :
    ∀ z, s₁.txidTrans z ≠ some none := by
  cases hopen with
  | old => exact h
  | new hnone =>
      intro z
      by_cases hz : z = y
      · simp [PtrMap.insert, hz]
      · simpa [PtrMap.insert, hz] using h z

theorem Tidy.onData {s : DbService C W} (h : Tidy s) (conn : C) {data : DbServiceMsg}
    (hcmd : data.cmd = kData) (hc : Complete data) : Tidy (s.onData conn data) ∧
      ∃ rset wset, decodeSet data.readSet = some rset ∧ decodeSet data.writeSet = some wset ∧
        ∀ x, current x (s.onData conn data) = collectFor x data rset wset (current x s) := by
  have hlive := h.getReadWriteSet_live conn hc
  rcases getReadWriteSet_cases conn data s with ⟨-, hcr⟩ |
    ⟨p, t, s₁, rset, wset, hopen, hr, hw, heq⟩
  · simp [hlive] at hcr
  obtain ⟨hp, hcr, -⟩ := opened_find hopen
  have hnow := opened_eq_current hopen
  have hstep := onData_step conn hcmd h.live
  have hdata : ∃ tasks, s.onData conn data = { s₁ with
      table := s₁.table.insert t.txid conn
      heap := Function.update s₁.heap p (some (t.collect rset wset))
      tasks := tasks } := by
    rw [DbService.onData, heq, andThen, if_neg (by simp [hcr, h.live]), withTrans]
    simp only [hp, Function.update_self]
    by_cases hlsn : t.lsn = -1
    · exact ⟨s₁.tasks ++ [.getLsn data.txid], by
        simp [hlsn, store, push, Transaction.collect]⟩
    · exact ⟨s₁.tasks, by simp [hlsn, Transaction.collect]⟩
  obtain ⟨tasks, hdata⟩ := hdata
  have hlive' : (s.onData conn data).crashed = false := by
    rw [hdata]
    exact hcr.trans h.live
  refine ⟨⟨hlive', h.wellFormed.messageStep hstep hlive', ?_⟩, rset, wset, hr, hw, ?_⟩
  · have hfound := found_of_opened h.found hopen
    rw [hdata]
    exact hfound
  · intro x
    unfold collectFor
    rw [hdata]
    by_cases hx : data.txid = x
    · subst hx
      rw [if_pos rfl, ← hnow]
      simp [current, hp]
    · rw [if_neg hx, ← current_of_opened h.wellFormed hopen hx]
      exact current_update (h.wellFormed.opened hopen).1 hp hx _

/-! ### Sequences of messages -/

theorem feed_concat (s : DbService C W) (l : List (C × DbServiceMsg)) (m : C × DbServiceMsg) :
    feed s (l ++ [m]) = receiveData (feed s l) m := by
  simp [feed]

theorem receiveData_live {s : DbService C W} (hs : s.crashed = false) {m : C × DbServiceMsg}
    (hcmd : m.2.cmd = kData) : receiveData s m = s.onData m.1 m.2 := by
  rw [receiveData, andThen, if_neg (by simp [hs])]
  simp [onMessage, hcmd]

theorem complete_of_feed {s : DbService C W} {l : List (C × DbServiceMsg)}
    (hdata : ∀ m ∈ l, m.2.cmd = kData) (hlive : (feed s l).crashed = false) :
    ∀ m ∈ l, Complete m.2 := by
  induction l using List.reverseRecOn with
  | nil => simp
  | append_singleton l m ih =>
      have hbefore : (feed s l).crashed = false := by
        by_contra hcr
        rw [feed_concat, receiveData, andThen, if_pos (by simpa using hcr)] at hlive
        exact hcr hlive
      intro m' hm'
      rcases List.mem_append.1 hm' with hm' | hm'
      · exact ih (fun m hm => hdata m (List.mem_append_left _ hm)) hbefore m' hm'
      · rw [List.mem_singleton.1 hm']
        rw [feed_concat, receiveData_live hbefore (hdata m (by simp))] at hlive
        by_contra hno
        have hstuck : ((feed s l).getReadWriteSet m.1 m.2).crashed = true := by
          by_contra hok
          exact hno (complete_of_live (by simpa using hok))
        rw [onData_of_crashed hstuck] at hlive
        simp at hlive

/-- The sets of one transaction grow by what the message says about it. -/
theorem collectFor_sets {x : Int} {data : DbServiceMsg} {rset wset : List Data}
    (hr : decodeSet data.readSet = some rset) (hw : decodeSet data.writeSet = some wset)
    (t : Option Transaction) :
    encodeSet (((collectFor x data rset wset t).map Transaction.readSet).getD []) =
        encodeSet ((t.map Transaction.readSet).getD []) ++
          (if data.txid = x then data.reads else []) ∧
      encodeSet (((collectFor x data rset wset t).map Transaction.writeSet).getD []) =
        encodeSet ((t.map Transaction.writeSet).getD []) ++
          (if data.txid = x then data.writes else []) := by
  have hreads : encodeSet rset = data.reads := encodeSet_of_decodeSet hr
  have hwrites : encodeSet wset = data.writes := encodeSet_of_decodeSet hw
  unfold collectFor
  by_cases hx : data.txid = x
  · cases t with
    | none =>
        have hnil : encodeSet [] = [] := rfl
        simp [hx, Transaction.collect, Transaction.init, hreads, hwrites, hnil]
    | some t => simp [hx, Transaction.collect, encodeSet_append, hreads, hwrites]
  · simp [hx]

theorem feed_collected (w : W) {l : List (C × DbServiceMsg)}
    (hdata : ∀ m ∈ l, m.2.cmd = kData) (hc : ∀ m ∈ l, Complete m.2) :
    Tidy (feed (init w : DbService C W) l) ∧ Collected l (feed (init w : DbService C W) l) := by
  induction l using List.reverseRecOn with
  | nil => exact ⟨tidy_init w, rfl, fun _ => rfl, fun _ => rfl⟩
  | append_singleton l m ih =>
      obtain ⟨htidy, hcol⟩ := ih (fun m hm => hdata m (List.mem_append_left _ hm))
        (fun m hm => hc m (List.mem_append_left _ hm))
      rw [feed_concat, receiveData_live htidy.live (hdata m (by simp))]
      obtain ⟨htidy', rset, wset, hr, hw, hcur⟩ :=
        htidy.onData m.1 (hdata m (by simp)) (hc m (by simp))
      refine ⟨htidy', htidy'.live, ?_, ?_⟩
      · intro x
        rw [hcur, (collectFor_sets hr hw _).1, hcol.readSet]
        by_cases hx : m.2.txid = x
        · simp [readsFor, hx]
        · simp [readsFor, hx]
      · intro x
        rw [hcur, (collectFor_sets hr hw _).2, hcol.writeSet]
        by_cases hx : m.2.txid = x
        · simp [writesFor, hx]
        · simp [writesFor, hx]

/-- A message of `ES::solve` lacks one of the two vectors. -/
theorem not_complete_of_translate {e : ESMsg} {d : DbServiceMsg}
    (h : ES.translate e = some d) : ¬ Complete d := by
  simp only [ES.translate, Option.bind_eq_bind, Option.bind_eq_some_iff] at h
  obtain ⟨key, -, h⟩ := h
  split at h
  · simp only [Option.bind_eq_some_iff] at h
    obtain ⟨attr, -, val, -, h⟩ := h
    obtain rfl := Option.some.inj h
    rintro ⟨hr, -⟩
    simp [createDbServiceMsg, decodeSet] at hr
  · obtain rfl := Option.some.inj h
    rintro ⟨-, hw⟩
    simp [createDbServiceMsg, decodeSet] at hw

/-- The sets of every transaction are collected from a sequence of `kData` messages exactly
if all of the messages are complete; for messages of `ES::solve` this is the empty sequence
only. -/
theorem collected_iff (w : W) (l : List (C × DbServiceMsg))
    (hdata : ∀ m ∈ l, m.2.cmd = kData) :
    (Collected l (feed (init w : DbService C W) l) ↔ ∀ m ∈ l, Complete m.2) ∧
      ((∀ m ∈ l, ∃ e, ES.translate e = some m.2) →
        (Collected l (feed (init w : DbService C W) l) ↔ l = [])) := by
  have hiff : Collected l (feed (init w : DbService C W) l) ↔ ∀ m ∈ l, Complete m.2 :=
    ⟨fun h => complete_of_feed hdata h.live, fun hc => (feed_collected w hdata hc).2⟩
  refine ⟨hiff, ?_⟩
  intro hes
  rw [hiff]
  constructor
  · intro hc
    rw [List.eq_nil_iff_forall_not_mem]
    intro m hm
    obtain ⟨e, he⟩ := hes m hm
    exact not_complete_of_translate he (hc m hm)
  · rintro rfl
    simp

/-- Three complete messages for two transactions. -/
def interleavedData : List (Unit × DbServiceMsg) :=
  [((), createDbServiceMsg kData 1 false (some [])
      (some [createData (some "k") (some "a") (some "v")])),
    ((), createDbServiceMsg kData 2 false
      (some [createData (some "k") (some "b") (some "w")]) (some [])),
    ((), createDbServiceMsg kData 1 false (some [])
      (some [createData (some "l") (some "a") (some "u")]))]

theorem collected_iff_interleaved :
    Collected interleavedData (feed (init () : DbService Unit Unit) interleavedData) ∧
      writesFor 1 interleavedData = [createData (some "k") (some "a") (some "v"),
        createData (some "l") (some "a") (some "u")] :=
  ⟨(collected_iff () interleavedData (by decide)).1.2 (by decide), by decide⟩

/-- The process ends on the first message that `ES::solve` makes from a statement
`add 1 k a v`. -/
theorem not_collected_add :
    ES.translate (createESMsg kAdd 1 false 1 (some "k") (some "a") (some "v")) =
        some (createDbServiceMsg kData 1 false none
          (some [createData (some "k") (some "a") (some "v")])) ∧
      (feed (init () : DbService Unit Unit) [((), createDbServiceMsg kData 1 false none
        (some [createData (some "k") (some "a") (some "v")]))]).crashed = true ∧
      ¬ Collected [((), createDbServiceMsg kData 1 false none
          (some [createData (some "k") (some "a") (some "v")]))]
        (feed (init () : DbService Unit Unit) [((), createDbServiceMsg kData 1 false none
          (some [createData (some "k") (some "a") (some "v")]))]) := by
  have hcrashed : (feed (init () : DbService Unit Unit)
      [((), createDbServiceMsg kData 1 false none
        (some [createData (some "k") (some "a") (some "v")]))]).crashed = true := by decide
  refine ⟨by decide, hcrashed, ?_⟩
  intro h
  have hlive := h.live
  rw [hcrashed] at hlive
  simp at hlive

end DbService

end Grit
