import NatsClient.AdaptivePressure
import NatsClient.AdaptivePressure.Theorems
import NatsClient.Auth
import NatsClient.Auth.Theorems
import NatsClient.Backpressure
import NatsClient.Builders
import NatsClient.Builders.Theorems
import NatsClient.Compress
import NatsClient.Compress.Theorems
import NatsClient.Consumer
import NatsClient.ConsumerFilter
import NatsClient.ConsumerFilter.Theorems
import NatsClient.ConsumerManager
import NatsClient.ConsumerManager.Start
import NatsClient.ConsumerManager.Theorems
import NatsClient.Dlq
import NatsClient.Dlq.Copies
import NatsClient.Dlq.Redelivery
import NatsClient.Dlq.Redrive
import NatsClient.Dlq.Redrive.Exact
import NatsClient.Dlq.Redrive.Ids
import NatsClient.Dlq.Redrive.Resume
import NatsClient.Dlq.Redrive.Strip
import NatsClient.Dlq.Redrive.Theorems
import NatsClient.Dlq.Redrive.Typed
import NatsClient.Dlq.Redrive.Walk
import NatsClient.Dlq.Theorems
import NatsClient.Dlq.Undecodable
import NatsClient.Exchange
import NatsClient.Exchange.Theorems
import NatsClient.FlightRecorder
import NatsClient.FlightRecorder.Theorems
import NatsClient.GoError
import NatsClient.Graduate
import NatsClient.Graduate.Canary
import NatsClient.Graduate.Exact
import NatsClient.Graduate.Handler
import NatsClient.Graduate.InFlight
import NatsClient.Graduate.Moves
import NatsClient.Graduate.Promotion
import NatsClient.Graduate.Theorems
import NatsClient.Graduate.Track
import NatsClient.Graduate.Windows
import NatsClient.Header
import NatsClient.Idempotency
import NatsClient.Idempotency.Moves
import NatsClient.Idempotency.Orphans
import NatsClient.Idempotency.Theorems
import NatsClient.Incident
import NatsClient.Incident.Theorems
import NatsClient.Incidents
import NatsClient.Incidents.Index
import NatsClient.Incidents.Local
import NatsClient.Incidents.Window
import NatsClient.KeyValue
import NatsClient.KeyValue.Theorems
import NatsClient.Lib.Backoff
import NatsClient.Lib.Budget
import NatsClient.Lib.Counting
import NatsClient.Lib.Exclusion
import NatsClient.Lib.Fairness
import NatsClient.Lib.Loop
import NatsClient.Lib.Machine
import NatsClient.Lib.Parties
import NatsClient.Lib.Patching
import NatsClient.Lib.Publication
import NatsClient.Lib.Ring
import NatsClient.Lib.Sharing
import NatsClient.Lib.Signed
import NatsClient.Lib.Utf8
import NatsClient.Lib.Words
import NatsClient.Listeners
import NatsClient.Listeners.Linear
import NatsClient.Listeners.Progress
import NatsClient.Listeners.Theorems
import NatsClient.Msg
import NatsClient.ObjectStore
import NatsClient.ObjectStore.Theorems
import NatsClient.Outbox
import NatsClient.Outbox.Blocking
import NatsClient.Outbox.Theorems
import NatsClient.Page
import NatsClient.Page.Theorems
import NatsClient.Process
import NatsClient.Process.Batch
import NatsClient.Process.Theorems
import NatsClient.Publish
import NatsClient.Publish.Async
import NatsClient.Publish.Theorems
import NatsClient.Pull
import NatsClient.Pull.Calls
import NatsClient.Pull.Fates
import NatsClient.Pull.Moves
import NatsClient.Pull.Progress
import NatsClient.Pull.Strategies
import NatsClient.Pull.Theorems
import NatsClient.Pull.Waiting
import NatsClient.PullV2
import NatsClient.PullV2.Idle
import NatsClient.PullV2.Moves
import NatsClient.PullV2.Theorems
import NatsClient.Push
import NatsClient.Push.Theorems
import NatsClient.Reconnect
import NatsClient.Replay
import NatsClient.Replay.Complete
import NatsClient.Replay.Range
import NatsClient.Replay.Range.ByTime
import NatsClient.Replay.Range.Theorems
import NatsClient.Replay.Range.Top
import NatsClient.Replay.Seek
import NatsClient.Replay.Seek.Bounds
import NatsClient.Replay.Seek.Recreate
import NatsClient.Replay.Seek.Settings
import NatsClient.Replay.Seek.SideCar
import NatsClient.Replay.Seek.Start
import NatsClient.Replay.Seek.Theorems
import NatsClient.Replay.Seek.Window
import NatsClient.Replay.Sound
import NatsClient.Replay.Successor
import NatsClient.Replay.Theorems
import NatsClient.Setup
import NatsClient.Setup.Patches
import NatsClient.Setup.Scale
import NatsClient.Setup.Theorems
import NatsClient.Shadow
import NatsClient.Shadow.Theorems
import NatsClient.Shard
import NatsClient.Shard.Theorems
import NatsClient.Shutdown
import NatsClient.Shutdown.Pool
import NatsClient.Shutdown.Progress
import NatsClient.Shutdown.Theorems
import NatsClient.SlowConsumer
import NatsClient.SlowConsumer.Theorems
import NatsClient.SoftLiveness
import NatsClient.SoftLiveness.Theorems
import NatsClient.Supervise
import NatsClient.Supervise.Backoff
import NatsClient.Supervise.Budget
import NatsClient.Supervise.Moves
import NatsClient.Supervise.Theorems
import NatsClient.Supervisor
import NatsClient.Supervisor.Backoff
import NatsClient.Supervisor.Runs
import NatsClient.Supervisor.Theorems
import NatsClient.Text
import NatsClient.Validate
import NatsClient.Validate.Bytes
import NatsClient.Validate.Keys
import NatsClient.Validate.Subject
import NatsClient.Validate.Text
import NatsClient.WorkerPool
import NatsClient.WorkerPool.Accounting
import NatsClient.WorkerPool.Clients
import NatsClient.WorkerPool.Invariants
import NatsClient.WorkerPool.Liveness
import NatsClient.WorkerPool.Moves
import NatsClient.WorkerPool.Stranded
import NatsClient.WorkerPool.Tally
import NatsClient.WorkerPool.Theorems
import NatsClient.WorkerPool.Wakeup
