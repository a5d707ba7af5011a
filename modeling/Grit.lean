import Grit.Library.Runs
import Grit.Library.Stores
import Grit.Message.Basic
import Grit.Library.Collections
import Grit.Hash.Mhash
import Grit.Hash.Rehash
import Grit.Hash.Runs
import Grit.Hash.Exactness
import Grit.Hash.Wcheck
import Grit.DbService.State
import Grit.DbService.Dbtm
import Grit.DbService.OnMessage
import Grit.DbService.DbtmSpec
import Grit.Library.History
import Grit.Library.DeadlineQueue
import Grit.Library.Framing
import Grit.Library.Bytes
import Grit.Library.FlatReader
import Grit.Library.FlatBuilder
import Grit.Library.FlatTable
import Grit.Library.FlatObjects
import Grit.Library.FlatGrowth
import Grit.ThreadPool.Basic
import Grit.ThreadPool.Drain
import Grit.DbService.Calls
import Grit.DbService.MhashCheck
import Grit.DbService.Conflict
import Grit.DbService.Window
import Grit.DbService.Recovery
import Grit.DbService.SqlText
import Grit.Gtm.Basic
import Grit.Gtm.Step
import Grit.Gtm.Votes
import Grit.Gtm.Concurrency
import Grit.DbService.MessageSpec
import Grit.DbService.WellFormed
import Grit.DbService.CommitLsn
import Grit.Dbtl.Basic
import Grit.Dbtl.Log
import Grit.Dbtl.Replies
import Grit.Dbtl.Storage
import Grit.TimeWheel.Basic
import Grit.TimeWheel.Refinement
import Grit.TimeWheel.Session
import Grit.TimeWheel.Clock
import Grit.TimeWheel.Count
import Grit.TimeWheel.Drift
import Grit.LogPlayer.Basic
import Grit.Dbtl.Records
import Grit.LogPlayer.Order
import Grit.LogPlayer.Replay
import Grit.LogPlayer.Unanswered
import Grit.LogPlayer.Retries
import Grit.LogPlayer.Handover
import Grit.System.Basic
import Grit.System.Wiring
import Grit.DbService.Effect
import Grit.System.Agreement
import Grit.DbService.Pending
import Grit.DbService.Bound
import Grit.DbService.Token
import Grit.DbService.Custody
import Grit.System.Tokens
import Grit.System.Outcome
import Grit.System.Custody
import Grit.System.WriteSet
import Grit.System.Residue
import Grit.App.Basic
import Grit.App.Participants
import Grit.Gtm.Config
import Grit.EntityService.Basic
import Grit.EntityService.Statements
import Grit.EntityService.Results
import Grit.DbService.ReadWriteSet
import Grit.Message.Wire
import Grit.Message.RoundTrip
import Grit.Message.Size
import Grit.Message.Framing
import Grit.App.StartTran
import Grit.App.Scanner
import Grit.App.Statements
import Grit.App.Grammar
import Grit.DbService.Fresh
import Grit.System.Lane
import Grit.System.CommitPath
import Grit.System.Exclusion
import Grit.System.Unwritten
import Grit.LogPlayer.Quiescence
import Grit.LogPlayer.Retransmission
import Grit.ThreadPool.Condition
import Grit.ThreadPool.Shutdown
import Grit.Dbtl.Pooled
import Grit.DbService.Owed
import Grit.System.Live
import Grit.System.Completion
import Grit.System.Settling
import Grit.System.Queues
import Grit.System.Pools
import Grit.System.PoolCompletion
