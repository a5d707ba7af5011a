import Grit.DbService.Window

/-!
# The recovery metadata

The statements and the file operations of a DBTM, read as operations on the row of a
transaction in `transInfo` and on its log file. The row is inserted before the local check
with both flags set. Only a decision of the GTM deletes it again or clears
`needGlobalConflict`: a transaction that fails its local check keeps its row and its file,
and one that needs no global check keeps the flag.
-/

namespace Grit

open Cmd History

/-- A row of `transInfo`. -/
structure TransInfo where
  lsn : Int
  needLocalConflict : Bool
  needGlobalConflict : Bool
  fileName : String
deriving DecidableEq, Repr

/-- The rows by their transaction, and which log files exist. -/
structure Metadata where
  row : Int → Option TransInfo
  file : Int → Bool

/-- The transaction of a statement. -/
def Sql.txid : Sql → Int
  | .insert txid _ _ => txid
  | .delete txid => txid
  | .updateNeedLocalConflict txid => txid
  | .updateNeedGlobalConflict txid => txid

namespace Metadata

def empty : Metadata := { row := fun _ => none, file := fun _ => false }

/-- What a statement does to the row of its transaction. -/
def execute (sql : Sql) (m : Metadata) : Metadata :=
  match sql with
  | .insert txid lsn fileName =>
      { m with row := Function.update m.row txid (some ⟨lsn, true, true, fileName⟩) }
  | .delete txid => { m with row := Function.update m.row txid none }
  | .updateNeedLocalConflict txid =>
      { m with
        row := Function.update m.row txid
          ((m.row txid).map fun r => { r with needLocalConflict := false }) }
  | .updateNeedGlobalConflict txid =>
      { m with
        row := Function.update m.row txid
          ((m.row txid).map fun r => { r with needGlobalConflict := false }) }

def perform {C : Type*} (m : Metadata) : Event C → Metadata
  | .sqlExec sql => m.execute sql
  | .writeFile txid _ => { m with file := Function.update m.file txid true }
  | .removeFile txid => { m with file := Function.update m.file txid false }
  | _ => m

end Metadata

namespace DbService

variable {C W : Type*}

/-- The metadata after the events of `out`. -/
def metadata (out : List (Event C)) : Metadata := out.foldl Metadata.perform Metadata.empty

theorem metadata_append (out es : List (Event C)) :
    metadata (out ++ es) = es.foldl Metadata.perform (metadata out) := List.foldl_append

/-- A transaction with id `x` passes its local check. -/
def PassesId (x : Int) : Event C → Prop
  | .judged t _ c => t.txid = x ∧ c = false
  | _ => False

/-- A transaction with id `x` passes its local check and needs the decision of the GTM. -/
def AsksGtm (x : Int) : Event C → Prop
  | .judged t _ c => t.txid = x ∧ c = false ∧ t.needGlobalConflct = true
  | _ => False

instance (x : Int) : DecidablePred (AsksGtm x : Event C → Prop) := fun e =>
  match e with
  | .judged t _ c =>
      inferInstanceAs (Decidable (t.txid = x ∧ c = false ∧ t.needGlobalConflct = true))
  | .sendGtm _ | .sendDbtl _ | .sendEs _ _ | .sqlExec _ | .writeFile _ _
  | .removeFile _ | .enqueue _ | .cacheRWSet _ | .retResult _ _ => instDecidableFalse

/-- `x` is aborted. -/
def Aborts (x : Int) : Event C → Prop
  | .retResult status id => status = kTranFail ∧ id = x
  | _ => False

/-- The decision on `x` is carried out. -/
def Decides (x : Int) : Event C → Prop
  | .cacheRWSet t => t.txid = x
  | .retResult status id => status = kTranFail ∧ id = x
  | _ => False

/-- The row and the file of `x` are there exactly if `x` has passed its local check and was not
aborted; the local check is done, and the global one is due exactly while `x` waits for the
decision of the GTM. -/
structure Tracked (x : Int) (out : List (Event C)) : Prop where
  row : ((metadata out).row x).isSome = true ↔ Since (PassesId x) (Aborts x) out
  file : (metadata out).file x = true ↔ Since (PassesId x) (Aborts x) out
  checked : ∀ r, (metadata out).row x = some r → r.needLocalConflict = false
  waiting : ∀ r, (metadata out).row x = some r →
    (r.needGlobalConflict = true ↔ Since (AsksGtm x) (Decides x) out)

theorem tracked_nil (x : Int) : Tracked x ([] : List (Event C)) where
  row := by simp [metadata, Metadata.empty, not_since_nil]
  file := by simp [metadata, Metadata.empty, not_since_nil]
  checked := by simp [metadata, Metadata.empty]
  waiting := by simp [metadata, Metadata.empty]

/-! ### Events of other transactions -/

/-- The event is one of another transaction than `x`, or of none. -/
def Foreign (x : Int) : Event C → Prop
  | .sqlExec sql => sql.txid ≠ x
  | .writeFile txid _ => txid ≠ x
  | .removeFile txid => txid ≠ x
  | .judged t _ _ => t.txid ≠ x
  | .cacheRWSet t => t.txid ≠ x
  | .retResult _ id => id ≠ x
  | _ => True

theorem execute_of_ne {x : Int} {sql : Sql} (h : sql.txid ≠ x) (m : Metadata) :
    (m.execute sql).row x = m.row x ∧ (m.execute sql).file x = m.file x := by
  have hne : x ≠ sql.txid := h.symm
  cases sql with
  | insert txid lsn fileName => exact ⟨Function.update_of_ne hne _ _, rfl⟩
  | delete txid => exact ⟨Function.update_of_ne hne _ _, rfl⟩
  | updateNeedLocalConflict txid => exact ⟨Function.update_of_ne hne _ _, rfl⟩
  | updateNeedGlobalConflict txid => exact ⟨Function.update_of_ne hne _ _, rfl⟩

theorem perform_foreign {x : Int} {e : Event C} (h : Foreign x e) (m : Metadata) :
    (m.perform e).row x = m.row x ∧ (m.perform e).file x = m.file x := by
  cases e with
  | sqlExec sql => exact execute_of_ne h m
  | writeFile txid msg => exact ⟨rfl, Function.update_of_ne (Ne.symm h) _ _⟩
  | removeFile txid => exact ⟨rfl, Function.update_of_ne (Ne.symm h) _ _⟩
  | _ => exact ⟨rfl, rfl⟩

theorem metadata_append_foreign {x : Int} {es : List (Event C)} (h : ∀ e ∈ es, Foreign x e)
    (out : List (Event C)) :
    (metadata (out ++ es)).row x = (metadata out).row x ∧
      (metadata (out ++ es)).file x = (metadata out).file x := by
  induction es generalizing out with
  | nil => simp
  | cons e es ih =>
      have hassoc : out ++ e :: es = (out ++ [e]) ++ es := by simp
      have hone := perform_foreign (h e (by simp)) (metadata out)
      obtain ⟨hrow, hfile⟩ := ih (fun e' he' => h e' (by simp [he'])) (out ++ [e])
      rw [hassoc, hrow, hfile, metadata_append]
      exact hone

theorem Foreign.not_about {x : Int} {e : Event C} (h : Foreign x e) :
    ¬PassesId x e ∧ ¬AsksGtm x e ∧ ¬Aborts x e ∧ ¬Decides x e := by
  cases e with
  | judged t ks c => exact ⟨fun he => h he.1, fun he => h he.1, not_false, not_false⟩
  | cacheRWSet t => exact ⟨not_false, not_false, not_false, h⟩
  | retResult status id => exact ⟨not_false, not_false, fun he => h he.2, fun he => h he.2⟩
  | _ => exact ⟨not_false, not_false, not_false, not_false⟩

theorem Tracked.append_foreign {x : Int} {out es : List (Event C)} (h : Tracked x out)
    (hes : ∀ e ∈ es, Foreign x e) : Tracked x (out ++ es) := by
  obtain ⟨hrow, hfile⟩ := metadata_append_foreign hes out
  have hpassed : Since (PassesId x) (Aborts x) (out ++ es) ↔ Since (PassesId x) (Aborts x) out :=
    since_append_of_neither (fun e he => ⟨(hes e he).not_about.1, (hes e he).not_about.2.2.1⟩) out
  have hasked : Since (AsksGtm x) (Decides x) (out ++ es) ↔ Since (AsksGtm x) (Decides x) out :=
    since_append_of_neither (fun e he => ⟨(hes e he).not_about.2.1, (hes e he).not_about.2.2.2⟩) out
  constructor
  · rw [hrow, hpassed]
    exact h.row
  · rw [hfile, hpassed]
    exact h.file
  · rw [hrow]
    exact h.checked
  · rw [hrow, hasked]
    exact h.waiting

/-! ### The exits of a validation and of a decision -/

/-- A transaction passes its local check and asks the GTM. -/
theorem tracked_vote {t : Transaction} (hg : t.needGlobalConflct = true) (ks : List String)
    (out : List (Event C)) :
    Tracked t.txid (out ++ (prologue t ++ [.judged t ks false,
      .sqlExec (.updateNeedLocalConflict t.txid),
      .sendGtm (createGtmMsg kJudgeConflit t.txid)])) := by
  constructor
  · simp [metadata_append, since_append, prologue, Metadata.perform, Metadata.execute, PassesId,
      Aborts]
  · simp [metadata_append, since_append, prologue, Metadata.perform, Metadata.execute, PassesId,
      Aborts]
  · simp [metadata_append, prologue, Metadata.perform, Metadata.execute]
  · simp [metadata_append, since_append, prologue, Metadata.perform, Metadata.execute, AsksGtm,
      Decides, hg]

/-- A decision without conflict is carried out. -/
theorem Tracked.cache {x : Int} {out : List (Event C)} (h : Tracked x out) {t : Transaction}
    (ht : t.txid = x) (hpassed : Since (PassesId x) (Aborts x) out) :
    Tracked x (out ++ [.cacheRWSet t,
      .sendDbtl (createDbtlMsg kLog t.txid (some (encodeSet t.writeSet))),
      .sqlExec (.updateNeedGlobalConflict x)]) := by
  obtain ⟨r, hr⟩ := Option.isSome_iff_exists.1 (h.row.2 hpassed)
  constructor
  · simp [metadata_append, since_append, Metadata.perform, Metadata.execute, PassesId, Aborts, hr,
      hpassed]
  · simp [metadata_append, since_append, Metadata.perform, Metadata.execute, PassesId, Aborts,
      hpassed, h.file]
  · simp [metadata_append, Metadata.perform, Metadata.execute, hr, h.checked r hr]
  · simp [metadata_append, since_append, Metadata.perform, Metadata.execute, AsksGtm, Decides, hr,
      ht]

/-- A decision with a conflict is carried out. -/
theorem tracked_abort (x : Int) (conn : C) (out : List (Event C)) :
    Tracked x (out ++ [.sqlExec (.delete x), .removeFile x, .retResult kTranFail x,
      .sendEs conn (createESMsg kTranFail x)]) := by
  constructor
  · simp [metadata_append, since_append, Metadata.perform, Metadata.execute, PassesId, Aborts]
  · simp [metadata_append, since_append, Metadata.perform, Metadata.execute, PassesId, Aborts]
  · simp [metadata_append, Metadata.perform, Metadata.execute]
  · simp [metadata_append, Metadata.perform, Metadata.execute]

/-! ### Validations that find no conflict -/

/-- Once its older entries are purged, no key of the list is left in the table. -/
def Clear (ops : Wcheck W) (lsn : Int) : List String → W → Prop
  | [], _ => True
  | k :: ks, w =>
      match ops.delLessThan w k lsn with
      | none => True
      | some w' => ops.exist w' k = false ∧ Clear ops lsn ks w'

instance decidableClear (ops : Wcheck W) (lsn : Int) :
    ∀ ks w, Decidable (Clear ops lsn ks w)
  | [], _ => isTrue trivial
  | k :: ks, w => by
      unfold Clear
      cases ops.delLessThan w k lsn with
      | none => exact isTrue trivial
      | some w' =>
          have := decidableClear ops lsn ks w'
          exact inferInstanceAs (Decidable (ops.exist w' k = false ∧ Clear ops lsn ks w'))

theorem Clear.checkSet {ops : Wcheck W} {lsn : Int} {l : List Data} {ks : List String} {w : W}
    (h : Clear ops lsn (l.map Data.key ++ ks) w) {r : W × List String × Bool}
    (hr : DbService.checkSet ops lsn l w = some r) : r.2.2 = false ∧ Clear ops lsn ks r.1 := by
  induction l generalizing w r with
  | nil =>
      obtain rfl := Option.some.inj hr
      exact ⟨rfl, h⟩
  | cons it l ih =>
      unfold DbService.checkSet at hr
      obtain ⟨w', hdel, hr⟩ := Option.bind_eq_some_iff.1 hr
      have hclear : ops.exist w' it.key = false ∧ Clear ops lsn (l.map Data.key ++ ks) w' := by
        simpa only [List.map_cons, List.cons_append, Clear, hdel] using h
      rw [if_neg (by simp [hclear.1])] at hr
      obtain ⟨r', hr', rfl⟩ := Option.map_eq_some_iff.1 hr
      obtain ⟨hfalse, hrest⟩ := ih hclear.2 hr'
      exact ⟨hfalse, hrest⟩

theorem Clear.localCheck {ops : Wcheck W} {t : Transaction} {w : W}
    (h : Clear ops t.lsn t.keys w) {r : W × List String × Bool}
    (hr : DbService.localCheck ops t w = some r) : r.2.2 = false := by
  obtain ⟨r₁, hr₁, hr⟩ := Option.bind_eq_some_iff.1 hr
  have hread : Clear ops t.lsn (t.readSet.map Data.key ++ t.writeKeys) w := h
  obtain ⟨hfalse, hrest⟩ := hread.checkSet hr₁
  rw [if_neg (by simp [hfalse])] at hr
  obtain ⟨r₂, hr₂, rfl⟩ := Option.map_eq_some_iff.1 hr
  have hwrite : Clear ops t.lsn (t.writeSet.map Data.key ++ []) r₁.1 := by
    rw [List.append_nil]
    exact hrest
  exact (hwrite.checkSet hr₂).1

/-! ### Runs -/

/-- A validation of `x` is one of a global transaction that finds no conflict. -/
def Smooth (ops : Wcheck W) (x : Int) (s : DbService C W) : Call C → Prop
  | .judgeLocalConflict _ t =>
      t.txid = x → t.needGlobalConflct = true ∧ Clear ops t.lsn t.keys s.wcheck
  | .solve _ => True

instance (ops : Wcheck W) (x : Int) (s : DbService C W) (c : Call C) :
    Decidable (Smooth ops x s c) :=
  match c with
  | .judgeLocalConflict _ t => inferInstanceAs (Decidable
      (t.txid = x → t.needGlobalConflct = true ∧ Clear ops t.lsn t.keys s.wcheck))
  | .solve _ => inferInstanceAs (Decidable True)

theorem tracked_of_judgeStep {ops : Wcheck W} {x : Int} {t : Transaction} {conn : C}
    {s s' : DbService C W} (h : Tracked x s.out) (hG : Smooth ops x s (.judgeLocalConflict conn t))
    (hs : JudgeStep ops s.next t (s.arrive conn t) s') :
    s'.crashed = false → Tracked x s'.out := by
  intro hlive
  have h : Tracked x (s.arrive conn t).out := h
  by_cases hx : t.txid = x
  · obtain ⟨hg, hclear⟩ := hG hx
    subst hx
    cases hs with
    | stuck => simp at hlive
    | cacheStuck => simp at hlive
    | failLost => simp at hlive
    | vote w ks hc => exact tracked_vote hg ks _
    | cache w w' ks hc hng => simp [hg] at hng
    | fail w ks conn' heap c vote hc => exact absurd (hclear.localCheck hc) (by simp)
  · cases hs with
    | stuck => simp at hlive
    | cacheStuck => simp at hlive
    | failLost => simp at hlive
    | vote w ks hc hg =>
        refine h.append_foreign ?_
        simp [prologue, Foreign, Sql.txid, hx]
    | cache w w' ks hc hg hw =>
        refine h.append_foreign ?_
        simp [prologue, Foreign, Sql.txid, hx]
    | fail w ks conn' heap c vote hc hconn hheap hvote =>
        refine h.append_foreign ?_
        rcases hvote with rfl | ⟨-, rfl⟩
        · simp [prologue, Foreign, Sql.txid, hx]
        · simp [prologue, Foreign, Sql.txid, hx]

theorem tracked_of_solveStep {ops : Wcheck W} {x : Int} {data : DbtmMsg} {s s' : DbService C W}
    (hlive : s.crashed = false) (hheld : Held s) (h : Tracked x s.out)
    (hs : SolveStep ops data s s') : s'.crashed = false → Tracked x s'.out := by
  intro hlive'
  cases hs with
  | missing => simp at hlive'
  | dangling => simp at hlive'
  | cacheStuck => simp at hlive'
  | cache p t w tail hp ht hd hw htail =>
      obtain rfl := htail.resolve_left fun hcrashed => by simp [hlive] at hcrashed
      obtain ⟨-, u, hu, htxid, hsince⟩ := hheld data.txid p hp
      obtain rfl := Option.some.inj (ht.symm.trans hu)
      by_cases hx : data.txid = x
      · subst hx
        refine h.cache htxid (hsince.mono ?_ ?_)
        · intro e he
          cases e <;> simp_all [Passes, PassesId]
        · intro e he
          cases e <;> simp_all [Aborts, Ends]
      · refine h.append_foreign ?_
        simp [Foreign, Sql.txid, htxid, hx]
  | fail s' hd hret =>
      cases hret with
      | lost => simp at hlive'
      | sent conn heap c hconn hheap =>
          by_cases hx : data.txid = x
          · subst hx
            simpa using tracked_abort data.txid conn s.out
          · refine (h.append_foreign ?_).append_foreign ?_
            · simp [Foreign, Sql.txid, hx]
            · simp [Foreign, hx]

/-- The metadata of `x` tracks the protocol in every run whose validations of `x` are all of
global transactions and find no conflict. -/
theorem tracked_of_smooth (ops : Wcheck W) (w : W) (x : Int) (l : List (Call C))
    (hl : Each (fun pre c => Smooth ops x (calls ops (init w : DbService C W) pre) c) l)
    (hlive : (calls ops (init w : DbService C W) l).crashed = false) :
    Tracked x (calls ops (init w : DbService C W) l).out := by
  have hboth := calls_invariant_of_guard (P := fun s : DbService C W => s.crashed = false →
    Held s ∧ Tracked x s.out)
    (fun s t => t.txid = x → t.needGlobalConflct = true ∧ Clear ops t.lsn t.keys s.wcheck) l
    (fun _ => ⟨fun k p hp => by simp [init] at hp, tracked_nil x⟩)
    (fun pre conn t post heq => hl pre (.judgeLocalConflict conn t) post heq)
    (fun s conn t hs hG hP s' hstep hlive' =>
      ⟨held_of_judgeStep (hP hs).1 hstep hlive', tracked_of_judgeStep (hP hs).2 hG hstep hlive'⟩)
    (fun s data hs hP s' hstep hlive' =>
      ⟨held_of_solveStep (hP hs).1 hstep hlive',
        tracked_of_solveStep hs (hP hs).1 (hP hs).2 hstep hlive'⟩)
  exact (hboth hlive).2

/-- A transaction that writes `a`. -/
def writer (txid lsn : Int) (needGlobalConflct : Bool) : Transaction :=
  { Transaction.init txid with
    writeSet := [⟨"a", "", "x", "1"⟩], needGlobalConflct, lsn }

/-- Transaction `1` passes and is decided; transaction `2` waits. -/
theorem tracked_of_smooth_sample :
    Tracked 1 (calls Wcheck.contract (init [] : DbService Unit (List Info))
      [.judgeLocalConflict () (writer 1 1 true), .solve (createDbtmMsg kJudgeConflit 1),
        .judgeLocalConflict () (writer 2 2 true)]).out :=
  tracked_of_smooth _ _ _ _ (by decide) (by decide)

/-- Transaction `1` needs no global check; transaction `2` conflicts with it. -/
def localExits : DbService Unit (List Info) :=
  calls Wcheck.contract (init [])
    [.judgeLocalConflict () (writer 1 2 false), .judgeLocalConflict () (writer 2 1 false)]

/-- The row of transaction `1` says that it needs the global check, and the row and the file of
transaction `2` stay although it is aborted. -/
theorem not_tracked_localExits :
    localExits.crashed = false ∧
      (¬Tracked 1 localExits.out ∧
        (metadata localExits.out).row 1 = some ⟨2, false, true, "1"⟩) ∧
      ¬Tracked 2 localExits.out ∧
        (metadata localExits.out).row 2 = some ⟨1, true, true, "2"⟩ ∧
        (metadata localExits.out).file 2 = true := by
  have hrow₁ : (metadata localExits.out).row 1 = some ⟨2, false, true, "1"⟩ := by decide
  have hrow₂ : (metadata localExits.out).row 2 = some ⟨1, true, true, "2"⟩ := by decide
  refine ⟨by decide, ⟨fun h => ?_, hrow₁⟩, fun h => ?_, hrow₂, by decide⟩
  · obtain ⟨e, he, hasks⟩ := ((h.waiting _ hrow₁).1 rfl).exists_mem
    revert e
    decide
  · exact absurd (h.checked _ hrow₂) (by decide)

end DbService

end Grit
