import PlcGateway.Library.Base64
import PlcGateway.Library.Loop
import PlcGateway.Domain.Configuration
import PlcGateway.Runtime.DriverAgreement
import PlcGateway.Runtime.PollIsolation
import PlcGateway.Runtime.PollSummary
import PlcGateway.Runtime.Retry
import PlcGateway.Runtime.ReadingQueue
import PlcGateway.Runtime.QueueShutdown
import PlcGateway.Runtime.StopRequests
import PlcGateway.Persistence.SpoolMetrics
import PlcGateway.Protocols.NodeIsolation
import PlcGateway.Protocols.SessionOwnership
import PlcGateway.Persistence.SpoolConcurrency
import PlcGateway.Persistence.ExactlyOnce
import PlcGateway.Persistence.Readback
import PlcGateway.Persistence.BadResults
import PlcGateway.Persistence.FailingDatabase
import PlcGateway.Persistence.Drain
import PlcGateway.Persistence.Outages
import PlcGateway.Persistence.Conservation
import PlcGateway.Runtime.CycleCancellation
import PlcGateway.Runtime.RetrySemantics
import PlcGateway.Persistence.FlushInterval
import PlcGateway.App.Masking
import PlcGateway.App.Config
import PlcGateway.Library.Urls
import PlcGateway.App.Loading
import PlcGateway.App.References
import PlcGateway.App.Endpoints
import PlcGateway.App.Overrides
import PlcGateway.Library.Ledger
import PlcGateway.Runtime.WorkerCounters
import PlcGateway.Library.Backoff
import PlcGateway.Runtime.Backoff
import PlcGateway.Library.Channel
import PlcGateway.Runtime.QueueOrder
import PlcGateway.Library.Tables
import PlcGateway.Persistence.Integrity
import PlcGateway.Persistence.StoredPolls
import PlcGateway.Protocols.MockConfig
import PlcGateway.Protocols.MockDriver
import PlcGateway.Runtime.MockWorker
import PlcGateway.Runtime.Punctuality
import PlcGateway.Persistence.Delivery
import PlcGateway.Persistence.Settling
import PlcGateway.Persistence.DrainEnd
import PlcGateway.Persistence.Pipeline
import PlcGateway.Protocols.Registry
