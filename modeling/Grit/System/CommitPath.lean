import Grit.App.Basic
import Grit.Gtm.Basic
import Grit.System.Lane

/-!
# The way of a commit

One transaction of an application: statements and the commit go to entity services, each
of which passes them on to its DbService. Messages on one connection arrive in order,
those on different connections in any order. The application sends its statements over
one connection only but the commit over all of them.
-/

namespace Grit

open Cmd

/-- An application with connections to the entity services of the participants `P`. -/
structure CommitPath (P W : Type*) where
  app : App P
  lanes : P → Lane W

namespace CommitPath

variable {P W : Type*} [DecidableEq P]

/-- The application has got the id `x` and the participants of its transaction. -/
def init (appTxid x : Int) (list : List IpAndPort) (up : P → Bool) (w : P → W) :
    CommitPath P W :=
  { app := (App.init appTxid).onMessage (Gtm.txidReply x list)
    lanes := fun p => Lane.init (up p) (w p) }

/-- What can happen: the calls and callbacks of the application, an entity service or a
DbService handles its next message, a DbService handles a message of the GTM or the DBTL
or runs a task. -/
inductive Act (P : Type*) where
  | onESConnection (p : P)
  | add (cmd : Cmd) (str : String)
  | commit
  | es (p : P)
  | dbs (p : P)
  | dbtm (p : P) (m : DbtmMsg)
  | task (p : P) (i : Nat)

def sentTo (p : P) (es : List (AppEvent P)) : List ESMsg :=
  es.filterMap fun e =>
    match e with
    | .sendEs q m => if q = p then some m else none
    | _ => none

/-- The application goes to the state `a`; its new messages are on their way. -/
def setApp (a : App P) (s : CommitPath P W) : CommitPath P W :=
  { app := a
    lanes := fun p => (s.lanes p).send (sentTo p (a.out.drop s.app.out.length)) }

def setLane (p : P) (L : Lane W) (s : CommitPath P W) : CommitPath P W :=
  { s with lanes := Function.update s.lanes p L }

def step (tr : Translation) (ops : Wcheck W) (s : CommitPath P W) :
    Act P → CommitPath P W
  | .onESConnection p => s.setApp (s.app.whenLive (App.onESConnection p))
  | .add cmd str => s.setApp (s.app.whenLive (App.add cmd str))
  | .commit => s.setApp (s.app.whenLive App.commit)
  | .es p => s.setLane p ((s.lanes p).esStep tr)
  | .dbs p => s.setLane p ((s.lanes p).dbsStep ops)
  | .dbtm p m => s.setLane p ((s.lanes p).act ops (.message () (.dbtmMsg m)))
  | .task p i => s.setLane p ((s.lanes p).act ops (.task i))

def run (tr : Translation) (ops : Wcheck W) (s : CommitPath P W) (l : List (Act P)) :
    CommitPath P W := l.foldl (step tr ops) s

def isCommit : Act P → Bool
  | .commit => true
  | _ => false

def commits (l : List (Act P)) : Nat := l.countP isCommit

/-- A statement that its entity service accepts has been sent to `p`. -/
def hasStatement (p : P) (out : List (AppEvent P)) : Bool :=
  out.any fun e =>
    match e with
    | .sendEs q m => q == p && ES.accepts m.cmd
    | _ => false

/-- The application holds one connection at most, and a statement has been sent over
it. -/
def served (a : App P) : Bool :=
  match a.connList with
  | [] => true
  | [p] => hasStatement p a.out
  | _ => false

/-- The steps that are safe: a commit of an application that is `served`, and a statement
that is not sent as a commit, which the garbage in `cmd` could make of an unknown word. -/
def allowed (s : CommitPath P W) : Act P → Bool
  | .commit => s.app.crashed || served s.app
  | .add cmd str =>
      (App.statement cmd s.app.txid str.toList).all fun m => m.cmd != kCommit
  | _ => true

/-- The invariant of a run with `n` commits. -/
structure PathInv (x : Int) (n : Nat) (s : CommitPath P W) : Prop where
  txid : s.app.txid = x
  lanes : ∀ p, Lane.Inv x (0 < n) (hasStatement p s.app.out = true) (s.lanes p)

theorem hasStatement_append (p : P) (out es : List (AppEvent P)) :
    hasStatement p (out ++ es) = (hasStatement p out || hasStatement p es) := by
  simp [hasStatement]

theorem pathInv_init (appTxid x : Int) (list : List IpAndPort) (up : P → Bool)
    (w : P → W) : PathInv x 0 (init appTxid x list up w) := by
  constructor
  · rfl
  · intro p
    refine (Lane.inv_init x (up p) (w p)).weaken (by simp) ?_
    simp [init, App.init, App.onMessage, Gtm.txidReply, createAppMsg, App.connect2ES,
      hasStatement]

theorem PathInv.more {x : Int} {n n' : Nat} {s : CommitPath P W} (h : PathInv x n s)
    (hn : n ≤ n') : PathInv x n' s :=
  ⟨h.txid, fun p => (h.lanes p).weaken (fun hpos => Nat.lt_of_lt_of_le hpos hn) id⟩

/-- The application sends nothing. -/
theorem PathInv.quiet {x : Int} {n : Nat} {s : CommitPath P W} (h : PathInv x n s)
    {a : App P} (hout : a.out = s.app.out) (htxid : a.txid = s.app.txid) :
    PathInv x n (s.setApp a) := by
  have hnone : ∀ p, sentTo p (a.out.drop s.app.out.length) = [] := by
    intro p
    rw [hout, List.drop_length]
    rfl
  constructor
  · exact htxid.trans h.txid
  · intro p
    dsimp only [setApp]
    rw [hnone, Lane.send_nil, hout]
    exact h.lanes p

theorem PathInv.add {x : Int} {n : Nat} {s : CommitPath P W} (h : PathInv x n s)
    {cmd : Cmd} {str : String}
    (hcmd : ∀ m, App.statement cmd s.app.txid str.toList = some m → m.cmd ≠ kCommit) :
    PathInv x n (s.setApp (s.app.add cmd str)) := by
  unfold App.add
  cases hm : App.statement cmd s.app.txid str.toList with
  | none => exact h.quiet rfl rfl
  | some m =>
      cases hconn : s.app.connList with
      | nil => exact h.quiet rfl rfl
      | cons conn rest =>
          have htxid := (App.isStatement_of_statement hm).txid
          refine ⟨h.txid, ?_⟩
          intro p
          dsimp only [setApp]
          rw [List.drop_left, hasStatement_append]
          by_cases hp : conn = p
          · subst hp
            have hsent : sentTo conn [.sendEs conn m] = [m] := by simp [sentTo]
            rw [hsent]
            refine ((h.lanes conn).statement (htxid.trans h.txid) (hcmd m hm)).weaken id ?_
            simp [hasStatement]
          · have hsent : sentTo p [.sendEs conn m] = [] := by simp [sentTo, hp]
            rw [hsent, Lane.send_nil]
            refine (h.lanes p).weaken id ?_
            simp [hasStatement, hp]

theorem PathInv.commit {x : Int} {s : CommitPath P W} (h : PathInv x 0 s)
    (hserved : served s.app = true) : PathInv x 1 (s.setApp s.app.commit) := by
  refine ⟨h.txid, ?_⟩
  intro p
  dsimp only [setApp, App.commit]
  rw [List.drop_left]
  have hany : ∀ {sent sent' : Prop} {L : Lane W}, Lane.Inv x True sent L →
      Lane.Inv x (0 < 1) sent' L := by
    intro sent sent' L hL
    exact ⟨hL.esTxid, hL.dbsTxid, fun hno => absurd Nat.one_pos hno, hL.covered,
      fun hlive hor => hL.fresh hlive (hor.imp_right fun hno => absurd Nat.one_pos hno)⟩
  have hlane : Lane.Inv x True (hasStatement p s.app.out = true) (s.lanes p) :=
    (h.lanes p).weaken (fun _ => trivial) id
  unfold served at hserved
  split at hserved
  · rename_i hconn
    have hsent : sentTo p (([] : List P).map fun conn => .sendEs conn s.app.commitMsg) =
        [] := rfl
    rw [hconn, hsent, Lane.send_nil]
    exact hany hlane
  · rename_i q hconn
    rw [hconn]
    by_cases hq : q = p
    · subst hq
      have hsent : sentTo q ([q].map fun conn => .sendEs conn s.app.commitMsg) =
          [s.app.commitMsg] := by
        simp [sentTo]
      rw [hsent]
      have hearly : Lane.Inv x False True (s.lanes q) :=
        (h.lanes q).weaken (by simp) (fun _ => hserved)
      exact hany (hearly.commit h.txid rfl)
    · have hsent : sentTo p ([q].map fun conn => .sendEs conn s.app.commitMsg) = [] := by
        simp [sentTo, hq]
      rw [hsent, Lane.send_nil]
      exact hany hlane
  · exact absurd hserved (by simp)

theorem PathInv.setLane {x : Int} {n : Nat} {s : CommitPath P W} (h : PathInv x n s)
    {p : P} {L : Lane W}
    (hL : Lane.Inv x (0 < n) (hasStatement p s.app.out = true) L) :
    PathInv x n (s.setLane p L) := by
  refine ⟨h.txid, ?_⟩
  intro q
  dsimp only [CommitPath.setLane]
  by_cases hq : q = p
  · subst hq
    rw [Function.update_self]
    exact hL
  · rw [Function.update_of_ne hq]
    exact h.lanes q

theorem PathInv.step {tr : Translation} {ops : Wcheck W} {x : Int} {n : Nat}
    {s : CommitPath P W} (h : PathInv x n s) (a : Act P)
    (hn : n + (if isCommit a then 1 else 0) ≤ 1)
    (hallowed : allowed s a = true) :
    PathInv x (n + if isCommit a then 1 else 0) (step tr ops s a) := by
  have hdead : s.app.crashed = true → ∀ f, PathInv x n (s.setApp (s.app.whenLive f)) := by
    intro hc f
    rw [App.whenLive, if_pos hc]
    exact h.quiet rfl rfl
  have hlive : s.app.crashed = false → ∀ f : App P → App P, s.app.whenLive f = f s.app := by
    intro hc f
    rw [App.whenLive, if_neg (by simp [hc])]
  cases a with
  | onESConnection p =>
      cases hc : s.app.crashed with
      | true => exact hdead hc _
      | false =>
          dsimp only [CommitPath.step]
          rw [hlive hc]
          exact h.quiet rfl rfl
  | add cmd str =>
      cases hc : s.app.crashed with
      | true => exact hdead hc _
      | false =>
          dsimp only [CommitPath.step]
          rw [hlive hc]
          refine h.add ?_
          intro m hm
          simpa [allowed, hm] using hallowed
  | commit =>
      cases hc : s.app.crashed with
      | true => exact (hdead hc _).more (Nat.le_add_right _ _)
      | false =>
          dsimp only [CommitPath.step]
          rw [hlive hc]
          obtain rfl : n = 0 := by
            simp only [isCommit, if_true] at hn
            omega
          exact h.commit (by simpa [allowed, hc] using hallowed)
  | es p => exact h.setLane ((h.lanes p).esStep tr)
  | dbs p => exact h.setLane ((h.lanes p).dbsStep ops)
  | dbtm p m =>
      refine h.setLane ((h.lanes p).act DbService.live_of_act ?_)
      intro hfresh hc
      have hl := DbService.live_of_act hc
      rw [DbService.act, DbService.andThen, if_neg (by simp [hl])] at hc ⊢
      exact hfresh.message (DbService.onMessage_step () _ hl)
        (DbService.inputOf_dbtmMsg_ne_commit x m) hc
  | task p i =>
      refine h.setLane ((h.lanes p).act DbService.live_of_act ?_)
      intro hfresh hc
      have hl := DbService.live_of_act hc
      rw [DbService.act, DbService.andThen, if_neg (by simp [hl])] at hc ⊢
      exact hfresh.task (DbService.runTask_step ops i _) hc

omit [DecidableEq P] in
theorem commits_concat (l : List (Act P)) (a : Act P) :
    commits (l ++ [a]) = commits l + if isCommit a then 1 else 0 := by
  simp [commits, List.countP_singleton]

theorem pathInv_run (tr : Translation) (ops : Wcheck W) (appTxid x : Int)
    (list : List IpAndPort) (up : P → Bool) (w : P → W) (l : List (Act P))
    (honce : commits l ≤ 1)
    (hallowed : History.Each (fun pre a =>
      allowed (run tr ops (init appTxid x list up w) pre) a = true) l) :
    PathInv x (commits l) (run tr ops (init appTxid x list up w) l) := by
  revert honce
  refine History.foldl_invariant (I := fun l s => commits l ≤ 1 → PathInv x (commits l) s)
    _ l ?_ ?_ hallowed
  · intro _
    exact pathInv_init appTxid x list up w
  · intro pre a ih hlast honce
    rw [commits_concat] at honce ⊢
    exact (ih (Nat.le_of_add_right_le honce)).step a honce hlast

/-- Every commit that a DbService handles finds its transaction, if the application commits
once and then holds one connection at most, over which it has sent a statement, and no
statement goes out as a commit. -/
theorem commit_finds (tr : Translation) (ops : Wcheck W) (appTxid x : Int)
    (list : List IpAndPort) (up : P → Bool) (w : P → W) (l : List (Act P))
    (honce : commits l ≤ 1)
    (hallowed : History.Each (fun pre a =>
      allowed (run tr ops (init appTxid x list up w) pre) a = true) l) :
    History.Each (fun pre a => ∀ p, a = .dbs p →
      Lane.CommitFinds ((run tr ops (init appTxid x list up w) pre).lanes p)) l := by
  intro pre a post heq p _
  subst heq
  have hpre : commits pre ≤ 1 := by
    rw [commits, List.countP_append] at honce
    exact Nat.le_of_add_right_le honce
  have hinit := ((History.each_append _ pre (a :: post)).1 hallowed).1
  exact ((pathInv_run tr ops appTxid x list up w pre hpre hinit).lanes p).commitFinds

/-- A translation that sets both vectors of the message. -/
def bothSets : Translation where
  translate m := some (createDbServiceMsg kData m.txid false (some [])
    (some [createData m.key m.attr m.val]))
  isData := by
    intro m d h
    obtain rfl := Option.some.inj h
    exact ⟨rfl, rfl⟩

/-- One participant: a statement, the commit, and both reach the DbService. -/
def oneRun : List (Act Bool) :=
  [.onESConnection false, .add (.other 0) "add 1 k a v", .commit,
    .es false, .es false, .dbs false, .dbs false]

theorem commit_finds_one :
    (DbService.current 7 ((run bothSets Wcheck.contract
        (init 0 7 [⟨"a", 1⟩] (fun _ => true) fun _ => []) oneRun).lanes false).dbs).any
          (fun t => t.alreadyCommit) = true ∧
      History.Each (fun pre a => ∀ p, a = .dbs p →
        Lane.CommitFinds ((run bothSets Wcheck.contract
          (init 0 7 [⟨"a", 1⟩] (fun _ => true) fun _ => []) pre).lanes p)) oneRun :=
  ⟨by decide, commit_finds _ _ _ _ _ _ _ _ (by decide) (by decide)⟩

/-- Two participants: the statement goes to the first one only, the commit to both. -/
def twoRun : List (Act Bool) :=
  [.onESConnection false, .onESConnection true,
    .add (.other 0) "add 1 k a v", .commit, .es true]

/-- The next message of the second DbService is the commit, and the process has no entry
for the transaction. -/
theorem commit_misses :
    commits (twoRun ++ [.dbs true]) = 1 ∧
      ¬ Lane.CommitFinds ((run ES.translation Wcheck.contract
        (init 0 7 [⟨"a", 1⟩, ⟨"b", 2⟩] (fun _ => true) fun _ => []) twoRun).lanes true) := by
  refine ⟨by decide, ?_⟩
  intro h
  exact h (createDbServiceMsg kCommit 7 true) [] rfl rfl rfl rfl

end CommitPath

end Grit
