import Grit.System.Completion
import Grit.System.Pools

/-!
# Completion on the thread pools

The pools lose no wakeup, and the messages between the processes are accounted for. So the
participants of a transaction end alike on their thread pools, too, once no message is in flight
and the workers sleep, as long as the bodies of tasks do not overlap.
-/

namespace Grit

open Cmd DbService

namespace CondPool

variable {α : Type*}

end CondPool

namespace Sys

variable {A P C W : Type*} {s : Sys A P C W}

end Sys

namespace PooledSys

variable {A P C W : Type*}

/-- The tasks that ask for the lsn of `x` and that a worker holds or the pool has queued. -/
def asking (p : P) (x : Int) (s : PooledSys A P C W) : Nat :=
  ((s.dbsPool p).held ++ (s.dbsPool p).tasks).countP (asks x)

variable [DecidableEq P]

/-- In the run of `l` a commit of `x` is handled at `p` while the lsn of `x` is still asked for. -/
def CommittedInTime (ops : Wcheck W) (s : PooledSys A P C W) (p : P) (x : Int)
    (l : List (Act A P C)) : Prop :=
  ∃ pre conn m post, l = pre ++ .entityService p conn m :: post ∧ m.cmd = kCommit ∧
    m.txid = x ∧ 0 < asking p x (run ops s pre) + Sys.lsnsAway p x (run ops s pre).sys

variable {threads : P → Nat} {ops : Wcheck W} {s : PooledSys A P C W} {t : Sys A P C W}

/-- The worker of a pool tests `stop`, takes a task and runs it. -/
def turn (f : CondPool.Move → Act Unit Bool Unit) : List (Act Unit Bool Unit) :=
  [f (.notifyOne 0), f (.work 0), f (.work 0), f (.work 0)]

end PooledSys

end Grit
