import OrbitRelay.Lib.Lts
import OrbitRelay.Lib.Table
import OrbitRelay.Lib.Budget
import OrbitRelay.Lib.Linearizable
import OrbitRelay.Lib.KeyedLog
import OrbitRelay.Lib.LossyQueue
import OrbitRelay.Lib.Text
import OrbitRelay.Lib.Paging
import OrbitRelay.Lib.Outcome
import OrbitRelay.Lib.Record
import OrbitRelay.Lib.Calendar
import OrbitRelay.Core
import OrbitRelay.Time
import OrbitRelay.Protocol
import OrbitRelay.Wire
import OrbitRelay.Decoding
import OrbitRelay.Node
import OrbitRelay.Storage.Record
import OrbitRelay.Encoding
import OrbitRelay.RoundTrip
import OrbitRelay.Storage.Query
import OrbitRelay.Storage.Memory
import OrbitRelay.Storage.Log
import OrbitRelay.Storage.Replay
import OrbitRelay.Storage.Windows
import OrbitRelay.Storage.Cursor
import OrbitRelay.Storage.Pages
import OrbitRelay.Storage.Converge
import OrbitRelay.Storage.CursorOrder
import OrbitRelay.Sync.Filter
import OrbitRelay.Sync.Subscription
import OrbitRelay.Sync.Bus
import OrbitRelay.Sync.Invariant
import OrbitRelay.Sync.Work
import OrbitRelay.Sync.Delivery
import OrbitRelay.Sync.Accounting
import OrbitRelay.Sync.Lag
import OrbitRelay.Sync.Reading
import OrbitRelay.Sync.Ending
import OrbitRelay.Sync.Isolation
import OrbitRelay.Sync.Registration
import OrbitRelay.Runtime.Handler
import OrbitRelay.Server.Pipeline
import OrbitRelay.Server.Progress
import OrbitRelay.Server.Durability
import OrbitRelay.Server.Handover
import OrbitRelay.Server.Fresh
import OrbitRelay.Server.Order
import OrbitRelay.Server.Failure
import OrbitRelay.Server.Retry
import OrbitRelay.Server.Ports
import OrbitRelay.Server.Work
import OrbitRelay.Server.Recovery
import OrbitRelay.Server.Lifecycle
import OrbitRelay.Server.Linearized
import OrbitRelay.Runtime.Execute
import OrbitRelay.Server.Bootstrap
import OrbitRelay.Server.Capacity
import OrbitRelay.Server.Shutdown
import OrbitRelay.Server.Exclusive
import OrbitRelay.Server.Interrupted
import OrbitRelay.Server.Cluster
import OrbitRelay.Server.Main
import OrbitRelay.Runtime.Lifecycle
import OrbitRelay.Runtime.Retirement
import OrbitRelay.Runtime.Provenance
import OrbitRelay.Runtime.Outcome
import OrbitRelay.Runtime.ExactlyOnce
import OrbitRelay.Runtime.Selectable
import OrbitRelay.Server.Drain
