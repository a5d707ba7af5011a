import Grit.DbService.Fresh
import Grit.EntityService.Basic
import Grit.Library.History

/-!
# One participant on the way of a commit

An entity service and its DbService, with the messages on their way to the two in order.
A commit is safe if data of its transaction is ahead of it on the way, or the DbService
already holds the transaction. The DbService handles any messages of the GTM and the DBTL
and runs any tasks in between.
-/

namespace Grit

open Cmd

/-- How an entity service turns statements into data of the same transaction. -/
structure Translation where
  translate : ESMsg → Option DbServiceMsg
  isData : ∀ m d, translate m = some d → d.cmd = kData ∧ d.txid = m.txid

/-- The translation of the code. -/
def ES.translation : Translation where
  translate := ES.translate
  isData := by
    intro m d h
    simp only [ES.translate, Option.bind_eq_bind, Option.bind_eq_some_iff] at h
    obtain ⟨key, -, h⟩ := h
    split at h
    · simp only [Option.bind_eq_some_iff] at h
      obtain ⟨attr, -, val, -, h⟩ := h
      obtain rfl := Option.some.inj h
      exact ⟨rfl, rfl⟩
    · obtain rfl := Option.some.inj h
      exact ⟨rfl, rfl⟩

/-- An entity service with its DbService, and the messages on their way to the two. -/
structure Lane (W : Type*) where
  es : ES Unit
  dbs : DbService Unit W
  toEs : List ESMsg
  toDbs : List DbServiceMsg

/-- What a message is for a transaction. -/
inductive Kind where
  | data
  | commit
deriving DecidableEq, Repr

def kindOfEs (m : ESMsg) : Option Kind :=
  if ES.accepts m.cmd then some .data else if m.cmd = kCommit then some .commit else none

def kindOfDbs (m : DbServiceMsg) : Option Kind :=
  if m.cmd = kData then some .data else if m.cmd = kCommit then some .commit else none

namespace Lane

variable {W : Type*}

def init (up : Bool) (w : W) : Lane W :=
  { es := ES.init up, dbs := DbService.init w, toEs := [], toDbs := [] }

/-- The application sends. -/
def send (ms : List ESMsg) (L : Lane W) : Lane W := { L with toEs := L.toEs ++ ms }

def passedOn (es : List (EsEvent Unit)) : List DbServiceMsg :=
  es.filterMap fun e =>
    match e with
    | .sendDbs m => some m
    | .sendApp _ _ => none

/-- The entity service handles its next message. -/
def esStep (tr : Translation) (L : Lane W) : Lane W :=
  match L.toEs with
  | [] => L
  | m :: rest =>
      if L.es.crashed then { L with toEs := rest }
      else
        let es := L.es.onMessageBy tr.translate () (.esMsg m)
        { L with
          es := es
          toEs := rest
          toDbs := L.toDbs ++ passedOn (es.out.drop L.es.out.length) }

/-- The DbService handles the next message of the entity service. -/
def dbsStep (ops : Wcheck W) (L : Lane W) : Lane W :=
  match L.toDbs with
  | [] => L
  | m :: rest =>
      { L with
        dbs := L.dbs.act ops (.message () (.dbServiceMsg m))
        toDbs := rest }

/-- The DbService does something else. -/
def act (ops : Wcheck W) (a : DbService.Act Unit) (L : Lane W) : Lane W :=
  { L with dbs := L.dbs.act ops a }

/-- What is on its way to the DbService, in order. A process that has ended passes nothing
on. -/
def pipeline (L : Lane W) : List Kind :=
  L.toDbs.filterMap kindOfDbs ++ if L.es.crashed then [] else L.toEs.filterMap kindOfEs

/-- A commit is the only one and is preceded by data, unless `held`. -/
def Covered (held : Prop) (K : List Kind) : Prop :=
  History.Each (fun pre k => k = .commit → (held ∨ .data ∈ pre) ∧ .commit ∉ pre) K

/-- The next message of the DbService finds its transaction if it is a commit. -/
def CommitFinds (L : Lane W) : Prop :=
  ∀ m rest, L.toDbs = m :: rest → L.dbs.crashed = false → m.cmd = kCommit →
    L.dbs.txidTrans.find m.txid ≠ none

theorem covered_of_not_mem {K : List Kind} (h : Kind.commit ∉ K) (held : Prop) :
    Covered held K := by
  intro pre k post heq hk
  subst hk
  exact absurd (by simp [heq]) h

theorem Covered.of_initial {held : Prop} {K K' : List Kind} (h : Covered held K)
    (hpre : K' <+: K) : Covered held K' := by
  obtain ⟨L, rfl⟩ := hpre
  exact ((History.each_append _ K' L).1 h).1

theorem Covered.mono {held held' : Prop} {K : List Kind} (h : Covered held K)
    (himp : held → held') : Covered held' K := by
  intro pre k post heq hk
  obtain ⟨hor, hno⟩ := h pre k post heq hk
  exact ⟨hor.imp_left himp, hno⟩

theorem Covered.append_data {held : Prop} {K : List Kind} (h : Covered held K) :
    Covered held (K ++ [.data]) :=
  (History.each_concat _ K _).2 ⟨h, fun hk => absurd hk (by simp)⟩

theorem covered_append_commit {held : Prop} {K : List Kind} (hK : Kind.commit ∉ K)
    (h : held ∨ .data ∈ K) : Covered held (K ++ [.commit]) :=
  (History.each_concat _ K _).2 ⟨covered_of_not_mem hK held, fun _ => ⟨h, hK⟩⟩

/-- Once data has been handled, the transaction is held. -/
theorem Covered.of_data {held held' : Prop} {K : List Kind} (h : Covered held (.data :: K))
    (hheld : held') : Covered held' K := by
  intro pre k post heq hk
  have hno := (((History.each_cons _ _ K).1 h).2 pre k post heq hk).2
  exact ⟨Or.inl hheld, fun hmem => hno (List.mem_cons_of_mem _ hmem)⟩

theorem Covered.of_commit {held : Prop} {K : List Kind} (h : Covered held (.commit :: K)) :
    held ∧ Kind.commit ∉ K := by
  obtain ⟨hfirst, hrest⟩ := (History.each_cons _ _ K).1 h
  refine ⟨(hfirst rfl).1.resolve_right (by simp), ?_⟩
  intro hmem
  obtain ⟨pre, post, rfl⟩ := List.append_of_mem hmem
  exact (hrest pre .commit post rfl rfl).2 (by simp)

/-! ### What holds at a participant -/

/-- The invariant of a participant of transaction `x`. Before the commit is sent, no commit
is on its way, and if a statement has been sent then data is on its way or has arrived;
as long as no commit has arrived, the DbService has not validated the transaction. -/
structure Inv (x : Int) (committed sent : Prop) (L : Lane W) : Prop where
  esTxid : ∀ m ∈ L.toEs, m.txid = x
  dbsTxid : ∀ m ∈ L.toDbs, m.txid = x ∧ (m.cmd = kData ∨ m.cmd = kCommit)
  early : ¬ committed → Kind.commit ∉ pipeline L ∧
    (sent → L.dbs.crashed = true ∨ L.es.crashed = true ∨
      (DbService.current x L.dbs).isSome = true ∨ .data ∈ pipeline L)
  covered : L.dbs.crashed = false →
    Covered ((DbService.current x L.dbs).isSome = true) (pipeline L)
  fresh : L.dbs.crashed = false → .commit ∈ pipeline L ∨ ¬ committed →
    DbService.Fresh x L.dbs

theorem inv_init (x : Int) (up : Bool) (w : W) : Inv x False False (init up w) := by
  have hnone : pipeline (init up w) = [] := by
    simp [pipeline, init, ES.init]
  constructor
  · intro m hm
    simp [init] at hm
  · intro m hm
    simp [init] at hm
  · intro _
    rw [hnone]
    exact ⟨by simp, False.elim⟩
  · intro _
    rw [hnone]
    exact covered_of_not_mem (by simp) _
  · intro _ _
    exact DbService.fresh_init x w

theorem Inv.weaken {x : Int} {committed sent committed' sent' : Prop} {L : Lane W}
    (h : Inv x committed sent L) (hc : committed → committed') (hs : sent' → sent) :
    Inv x committed' sent' L := by
  refine ⟨h.esTxid, h.dbsTxid, ?_, h.covered, ?_⟩
  · intro hno
    obtain ⟨hpipe, hsent⟩ := h.early fun hyes => hno (hc hyes)
    exact ⟨hpipe, fun hs' => hsent (hs hs')⟩
  · intro hlive hor
    exact h.fresh hlive (hor.imp_right fun hno hyes => hno (hc hyes))

theorem pipeline_send (m : ESMsg) (L : Lane W) :
    pipeline (L.send [m]) =
      pipeline L ++ if L.es.crashed then [] else (kindOfEs m).toList := by
  cases hc : L.es.crashed with
  | true => simp [pipeline, send, hc]
  | false =>
      cases hk : kindOfEs m with
      | none => simp [pipeline, send, hc, hk]
      | some k => simp [pipeline, send, hc, hk]

theorem txid_send {x : Int} {L : Lane W} (h : ∀ m ∈ L.toEs, m.txid = x) {m : ESMsg}
    (hm : m.txid = x) : ∀ m' ∈ (L.send [m]).toEs, m'.txid = x := by
  intro m' hm'
  rcases List.mem_append.1 hm' with hm' | hm'
  · exact h m' hm'
  · rw [List.mem_singleton.1 hm', hm]

/-- A statement is sent. -/
theorem Inv.statement {x : Int} {committed sent : Prop} {L : Lane W}
    (h : Inv x committed sent L) {m : ESMsg} (hm : m.txid = x) (hcmd : m.cmd ≠ kCommit) :
    Inv x committed (sent ∨ ES.accepts m.cmd = true) (L.send [m]) := by
  have hno : kindOfEs m ≠ some .commit := by
    unfold kindOfEs
    split
    · simp
    · simp
  have hpipe := pipeline_send m L
  have hcommit : Kind.commit ∈ pipeline (L.send [m]) ↔ .commit ∈ pipeline L := by
    rw [hpipe]
    cases hk : kindOfEs m with
    | none => simp
    | some k =>
        cases k with
        | commit => exact absurd hk hno
        | data => cases L.es.crashed <;> simp
  constructor
  · exact txid_send h.esTxid hm
  · exact h.dbsTxid
  · intro hc
    obtain ⟨hfree, hsent⟩ := h.early hc
    refine ⟨fun hmem => hfree (hcommit.1 hmem), ?_⟩
    intro hor
    rcases hor with hs | hacc
    · rcases hsent hs with hd | he | hcur | hdata
      · exact Or.inl hd
      · exact Or.inr (Or.inl he)
      · exact Or.inr (Or.inr (Or.inl hcur))
      · refine Or.inr (Or.inr (Or.inr ?_))
        rw [hpipe]
        exact List.mem_append_left _ hdata
    · cases he : L.es.crashed with
      | true => exact Or.inr (Or.inl he)
      | false =>
          refine Or.inr (Or.inr (Or.inr ?_))
          rw [hpipe, he]
          simp [kindOfEs, hacc]
  · intro hlive
    rw [hpipe]
    have hcov := h.covered hlive
    cases hk : kindOfEs m with
    | none =>
        cases L.es.crashed with
        | true => simpa [send] using hcov
        | false => simpa [send] using hcov
    | some k =>
        cases k with
        | commit => exact absurd hk hno
        | data =>
            cases L.es.crashed with
            | true => simpa [send] using hcov
            | false => exact hcov.append_data
  · intro hlive hor
    exact h.fresh hlive (hor.imp_left hcommit.1)

/-- The commit is sent, after a statement. -/
theorem Inv.commit {x : Int} {L : Lane W} (h : Inv x False True L) {m : ESMsg}
    (hm : m.txid = x) (hcmd : m.cmd = kCommit) : Inv x True True (L.send [m]) := by
  obtain ⟨hfree, hsent⟩ := h.early id
  have hkind : kindOfEs m = some .commit := by
    simp [kindOfEs, hcmd, ES.accepts]
  have hpipe := pipeline_send m L
  rw [hkind] at hpipe
  refine ⟨txid_send h.esTxid hm, h.dbsTxid, fun hno => absurd trivial hno, ?_, ?_⟩
  · intro hlive
    rw [hpipe]
    cases he : L.es.crashed with
    | true => simpa [send] using h.covered hlive
    | false =>
        refine covered_append_commit hfree ?_
        rcases hsent trivial with hd | he' | hcur | hdata
        · exact absurd (hlive.symm.trans hd) (by simp)
        · exact absurd (he.symm.trans he') (by simp)
        · exact Or.inl hcur
        · exact Or.inr hdata
  · intro hlive _
    exact h.fresh hlive (Or.inr id)

theorem esStep_nil (tr : Translation) {L : Lane W} (h : L.toEs = []) : L.esStep tr = L := by
  simp [Lane.esStep, h]

theorem esStep_crashed (tr : Translation) {L : Lane W} {m : ESMsg} {rest : List ESMsg}
    (h : L.toEs = m :: rest) (hc : L.es.crashed = true) :
    L.esStep tr = { L with toEs := rest } := by
  simp [Lane.esStep, h, hc]

theorem esStep_live (tr : Translation) {L : Lane W} {m : ESMsg} {rest : List ESMsg}
    (h : L.toEs = m :: rest) (hc : L.es.crashed = false) :
    L.esStep tr = { L with
      es := L.es.onMessageBy tr.translate () (.esMsg m)
      toEs := rest
      toDbs := L.toDbs ++ passedOn
        ((L.es.onMessageBy tr.translate () (.esMsg m)).out.drop L.es.out.length) } := by
  simp [Lane.esStep, h, hc]

/-- The entity service moves a message on, or ends. -/
theorem esStep_pipeline (tr : Translation) (L : Lane W) :
    (L.esStep tr).dbs = L.dbs ∧
      ((pipeline (L.esStep tr) = pipeline L ∧ (L.esStep tr).es.crashed = L.es.crashed) ∨
        ((L.esStep tr).es.crashed = true ∧ pipeline (L.esStep tr) <+: pipeline L)) := by
  cases hto : L.toEs with
  | nil =>
      rw [esStep_nil tr hto]
      exact ⟨rfl, Or.inl ⟨rfl, rfl⟩⟩
  | cons m rest =>
      cases hc : L.es.crashed with
      | true =>
          rw [esStep_crashed tr hto hc]
          refine ⟨rfl, Or.inl ⟨?_, hc⟩⟩
          simp [pipeline, hc]
      | false =>
          rw [esStep_live tr hto hc]
          refine ⟨rfl, ?_⟩
          dsimp only
          cases ES.onMessageBy_step tr.translate () m L.es with
          | stuck _ hc' hout =>
              refine Or.inr ⟨hc', ?_⟩
              simp [pipeline, hc', hout, passedOn]
          | data hcmd d hd _ hc' hout =>
              refine Or.inl ⟨?_, hc'.trans hc⟩
              simp [pipeline, hc', hc, hout, passedOn, hto, kindOfEs, hcmd, kindOfDbs,
                (tr.isData m d hd).1]
          | commit hcmd _ hc' hout =>
              refine Or.inl ⟨?_, hc'.trans hc⟩
              simp [pipeline, hc', hc, hout, passedOn, hto, kindOfEs, hcmd, kindOfDbs,
                createDbServiceMsg, ES.accepts]
          | skip hcmd hcommit _ hc' hout =>
              refine Or.inl ⟨?_, hc'.trans hc⟩
              simp [pipeline, hc', hc, hout, passedOn, hto, kindOfEs, hcmd, hcommit]

theorem esStep_txid {x : Int} (tr : Translation) {L : Lane W}
    (hes : ∀ m ∈ L.toEs, m.txid = x)
    (hdbs : ∀ m ∈ L.toDbs, m.txid = x ∧ (m.cmd = kData ∨ m.cmd = kCommit)) :
    (∀ m ∈ (L.esStep tr).toEs, m.txid = x) ∧
      ∀ m ∈ (L.esStep tr).toDbs, m.txid = x ∧ (m.cmd = kData ∨ m.cmd = kCommit) := by
  cases hto : L.toEs with
  | nil =>
      rw [esStep_nil tr hto]
      exact ⟨hes, hdbs⟩
  | cons m rest =>
      rw [hto] at hes
      have hrest : ∀ m' ∈ rest, m'.txid = x := fun m' hm' => hes m' (List.mem_cons_of_mem _ hm')
      have hm := hes m List.mem_cons_self
      cases hc : L.es.crashed with
      | true =>
          rw [esStep_crashed tr hto hc]
          exact ⟨hrest, hdbs⟩
      | false =>
          rw [esStep_live tr hto hc]
          refine ⟨hrest, ?_⟩
          intro d hd
          rcases List.mem_append.1 hd with hd | hd
          · exact hdbs d hd
          · cases ES.onMessageBy_step tr.translate () m L.es with
            | stuck _ _ hout => simp [hout, passedOn] at hd
            | data _ d' hd' _ _ hout =>
                simp only [hout, List.drop_left, passedOn, List.filterMap_cons,
                  List.filterMap_nil, List.mem_singleton] at hd
                obtain ⟨hcmd, htxid⟩ := tr.isData m d' hd'
                rw [hd]
                exact ⟨htxid.trans hm, Or.inl hcmd⟩
            | commit _ _ _ hout =>
                simp only [hout, List.drop_left, passedOn, List.filterMap_cons,
                  List.filterMap_nil, List.mem_singleton] at hd
                rw [hd]
                exact ⟨hm, Or.inr rfl⟩
            | skip _ _ _ _ hout => simp [hout, passedOn] at hd

theorem Inv.esStep {x : Int} {committed sent : Prop} {L : Lane W}
    (h : Inv x committed sent L) (tr : Translation) :
    Inv x committed sent (L.esStep tr) := by
  obtain ⟨hes, hdbs⟩ := esStep_txid tr h.esTxid h.dbsTxid
  obtain ⟨hsame, hpipe⟩ := esStep_pipeline tr L
  have hle : pipeline (L.esStep tr) <+: pipeline L := by
    rcases hpipe with ⟨heq, -⟩ | ⟨-, hpre⟩
    · exact heq ▸ List.prefix_refl _
    · exact hpre
  refine ⟨hes, hdbs, ?_, ?_, ?_⟩
  · intro hc
    obtain ⟨hfree, hsent⟩ := h.early hc
    refine ⟨fun hmem => hfree (hle.subset hmem), ?_⟩
    intro hs
    rw [hsame]
    rcases hpipe with ⟨heq, hcr⟩ | ⟨hcr, -⟩
    · rw [heq, hcr]
      exact hsent hs
    · exact Or.inr (Or.inl hcr)
  · rw [hsame]
    intro hlive
    exact (h.covered hlive).of_initial hle
  · rw [hsame]
    intro hlive hor
    exact h.fresh hlive (hor.imp_left fun hmem => hle.subset hmem)

/-- The DbService does something that is no message of its entity service. -/
theorem Inv.act {x : Int} {committed sent : Prop} {L : Lane W} (h : Inv x committed sent L)
    {d : DbService Unit W} (hlive : d.crashed = false → L.dbs.crashed = false)
    (hfresh : DbService.Fresh x L.dbs → d.crashed = false → DbService.Fresh x d ∧
      ((DbService.current x L.dbs).isSome = true → (DbService.current x d).isSome = true)) :
    Inv x committed sent { L with dbs := d } := by
  have hpipe : pipeline { L with dbs := d } = pipeline L := rfl
  refine ⟨h.esTxid, h.dbsTxid, ?_, ?_, ?_⟩
  · intro hc
    obtain ⟨hfree, hsent⟩ := h.early hc
    refine ⟨hfree, ?_⟩
    intro hs
    cases hd : d.crashed with
    | true => exact Or.inl rfl
    | false =>
        have hold := hlive hd
        obtain ⟨-, hkeep⟩ := hfresh (h.fresh hold (Or.inr hc)) hd
        rcases hsent hs with hcr | he | hcur | hdata
        · exact absurd (hold.symm.trans hcr) (by simp)
        · exact Or.inr (Or.inl he)
        · exact Or.inr (Or.inr (Or.inl (hkeep hcur)))
        · exact Or.inr (Or.inr (Or.inr hdata))
  · intro hd
    have hold := hlive hd
    rw [hpipe]
    by_cases hmem : Kind.commit ∈ pipeline L
    · obtain ⟨-, hkeep⟩ := hfresh (h.fresh hold (Or.inl hmem)) hd
      exact (h.covered hold).mono hkeep
    · exact covered_of_not_mem hmem _
  · intro hd hor
    rw [hpipe] at hor
    exact (hfresh (h.fresh (hlive hd) hor) hd).1

theorem dbsStep_cons (ops : Wcheck W) {L : Lane W} {m : DbServiceMsg}
    {rest : List DbServiceMsg} (h : L.toDbs = m :: rest) :
    L.dbsStep ops = { L with
      dbs := L.dbs.act ops (.message () (.dbServiceMsg m))
      toDbs := rest } := by
  simp [Lane.dbsStep, h]

theorem pipeline_cons {L : Lane W} {m : DbServiceMsg} {rest : List DbServiceMsg}
    (h : L.toDbs = m :: rest) (d : DbService Unit W) :
    pipeline L = (kindOfDbs m).toList ++ pipeline { L with dbs := d, toDbs := rest } := by
  cases hk : kindOfDbs m with
  | none => simp [pipeline, h, hk]
  | some k => simp [pipeline, h, hk]

/-- A commit that the DbService handles next finds its transaction. -/
theorem Inv.commitFinds {x : Int} {committed sent : Prop} {L : Lane W}
    (h : Inv x committed sent L) : CommitFinds L := by
  intro m rest hto hlive hcmd hnone
  have hpipe := pipeline_cons hto L.dbs
  have hkind : kindOfDbs m = some .commit := by simp [kindOfDbs, hcmd]
  have hcov := h.covered hlive
  rw [hpipe, hkind] at hcov
  obtain ⟨hcur, -⟩ := Covered.of_commit hcov
  obtain ⟨htxid, -⟩ := h.dbsTxid m (by simp [hto])
  rw [htxid] at hnone
  simp [DbService.current, hnone] at hcur

/-- The DbService handles a message of its entity service. -/
theorem Inv.dbsStep {x : Int} {committed sent : Prop} {L : Lane W}
    (h : Inv x committed sent L) (ops : Wcheck W) :
    Inv x committed sent (L.dbsStep ops) := by
  cases hto : L.toDbs with
  | nil =>
      have hsame : L.dbsStep ops = L := by simp [Lane.dbsStep, hto]
      rw [hsame]
      exact h
  | cons m rest =>
      rw [dbsStep_cons ops hto]
      generalize hd : L.dbs.act ops (.message () (.dbServiceMsg m)) = d
      have hlive : d.crashed = false → L.dbs.crashed = false := by
        intro hc
        rw [← hd] at hc
        exact DbService.live_of_act hc
      have hstep : d.crashed = false →
          DbService.MessageStep () (.dbServiceMsg m) L.dbs d := by
        intro hc
        have hl := hlive hc
        rw [← hd, DbService.act, DbService.andThen, if_neg (by simp [hl])]
        exact DbService.onMessage_step () _ hl
      have hpipe := pipeline_cons hto d
      obtain ⟨htxid, hkinds⟩ := h.dbsTxid m (by simp [hto])
      have hrest : ∀ m' ∈ rest, m'.txid = x ∧ (m'.cmd = kData ∨ m'.cmd = kCommit) :=
        fun m' hm' => h.dbsTxid m' (by simp [hto, hm'])
      rcases hkinds with hcmd | hcmd
      · have hkind : kindOfDbs m = some .data := by simp [kindOfDbs, hcmd]
        rw [hkind] at hpipe
        have hcommit : Kind.commit ∈ pipeline { L with dbs := d, toDbs := rest } ↔
            .commit ∈ pipeline L := by
          rw [hpipe]
          simp
        have hheld : d.crashed = false → (DbService.current x d).isSome = true := by
          intro hc
          rw [← htxid]
          exact DbService.current_of_data hcmd (hstep hc) hc
        refine ⟨h.esTxid, hrest, ?_, ?_, ?_⟩
        · intro hno
          obtain ⟨hfree, -⟩ := h.early hno
          refine ⟨fun hmem => hfree (hcommit.1 hmem), ?_⟩
          intro _
          cases hc : d.crashed with
          | true => exact Or.inl rfl
          | false => exact Or.inr (Or.inr (Or.inl (hheld hc)))
        · intro hc
          have hcov := h.covered (hlive hc)
          rw [hpipe] at hcov
          exact Covered.of_data hcov (hheld hc)
        · intro hc hor
          have hfresh := h.fresh (hlive hc) (hor.imp_left hcommit.1)
          exact (hfresh.message (hstep hc) (by simp [DbService.inputOf, hcmd]) hc).1
      · have hkind : kindOfDbs m = some .commit := by simp [kindOfDbs, hcmd]
        rw [hkind] at hpipe
        have hmem : Kind.commit ∈ pipeline L := by
          rw [hpipe]
          simp
        have hno : ∀ hc : d.crashed = false,
            Kind.commit ∉ pipeline { L with dbs := d, toDbs := rest } := by
          intro hc
          have hcov := h.covered (hlive hc)
          rw [hpipe] at hcov
          exact (Covered.of_commit hcov).2
        have hyes : ¬ ¬ committed := fun hnot => (h.early hnot).1 hmem
        refine ⟨h.esTxid, hrest, fun hnot => absurd hnot hyes, ?_, ?_⟩
        · intro hc
          exact covered_of_not_mem (hno hc) _
        · intro hc hor
          rcases hor with hor | hor
          · exact absurd hor (hno hc)
          · exact absurd hor hyes

theorem send_nil (L : Lane W) : L.send [] = L := by
  simp [send]

end Lane

end Grit
