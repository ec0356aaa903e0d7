import Delphi.Theory.Program
import Delphi.Theory.Pool
import Delphi.Theory.KvBucket
import Delphi.Theory.CasFold
import Delphi.Theory.Wrapped
import Delphi.Theory.Transactions
import Delphi.Theory.Overwrite
import Delphi.Theory.KeyedRows
import Delphi.Theory.Keyset
import Delphi.Theory.StreamSearch
import Delphi.Theory.Numeral
import Delphi.Theory.Deferred
import Delphi.Theory.Slices
import Delphi.Theory.Sessions
import Delphi.Theory.Erasure
import Delphi.Document.Events
import Delphi.Document.Fold
import Delphi.Document.EventStore
import Delphi.Document.UploadState
import Delphi.Document.Ports
import Delphi.Document.LogCalls
import Delphi.Document.Append
import Delphi.Document.AppendContract
import Delphi.Document.LogShape
import Delphi.Document.FoldSpec
import Delphi.Document.Writers
import Delphi.Document.Transition
import Delphi.Document.UploadRecord
import Delphi.Document.Worker
import Delphi.Document.WorkerPaths
import Delphi.Document.Deliveries
import Delphi.Document.Evidence
import Delphi.Document.Versions
import Delphi.Document.Answers
import Delphi.Document.Reclaim
import Delphi.Document.Subjects
import Delphi.Document.Projection
import Delphi.Document.Fields
import Delphi.Document.SuffixReplay
import Delphi.Document.Table
import Delphi.Document.PrefixFold
import Delphi.Document.Projector
import Delphi.Document.ProjectionStore
import Delphi.Document.Tracking
import Delphi.Document.Projectors
import Delphi.Document.Geometry
import Delphi.Document.Validation
import Delphi.Document.Service
import Delphi.Document.Preflight
import Delphi.Document.Parts
import Delphi.Document.Accepted
import Delphi.Document.Poison
import Delphi.Document.Serde
import Delphi.Document.Limits
import Delphi.Document.Cursor
import Delphi.Document.CursorSpelling
import Delphi.Document.Scanner
import Delphi.Document.Listing
import Delphi.Document.Deletion
import Delphi.Document.Platform
import Delphi.Document.KeySpace
import Delphi.Document.Effects
import Delphi.Document.WorkQueue
import Delphi.Document.Published
import Delphi.Document.Assembly
import Delphi.Document.PartListing
import Delphi.Document.StreamRead
import Delphi.Document.Migrate
import Delphi.Auth.Verifier
import Delphi.Document.HttpApi
import Delphi.Document.Tenants
import Delphi.Chat.Storage
import Delphi.Chat.Repository
import Delphi.Chat.Frame
import Delphi.Chat.History
import Delphi.Chat.Bus
import Delphi.Chat.Lock
import Delphi.Chat.LockPaths
import Delphi.Chat.LockRecord
import Delphi.Chat.EventStream
import Delphi.Chat.Realtime
import Delphi.Chat.Replay
import Delphi.Chat.InMemory
import Delphi.Chat.Turns
import Delphi.Chat.TurnPaths
import Delphi.Chat.TurnStream
import Delphi.Chat.Finality
import Delphi.Chat.Redelivery
import Delphi.Chat.TailCheck
import Delphi.Chat.Prompt
import Delphi.Chat.ReplayIndex
import Delphi.Chat.ReplayWriters
import Delphi.Chat.SocketHook
import Delphi.Chat.LiveView
