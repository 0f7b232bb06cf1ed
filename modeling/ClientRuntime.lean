import ClientRuntime.Instant
import ClientRuntime.Text.Record
import ClientRuntime.Text.Shortest
import ClientRuntime.Json.Record
import ClientRuntime.Attributes
import ClientRuntime.Property
import ClientRuntime.Fiber.Control
import ClientRuntime.Lens
import ClientRuntime.Clock
import ClientRuntime.Log
import ClientRuntime.Random
import ClientRuntime.Trace.Scope
import ClientRuntime.Simulation.Spans
import ClientRuntime.Json.Printer
import ClientRuntime.Retry.Error
import ClientRuntime.Retry.Outcome
import ClientRuntime.Cache.Expiring
import ClientRuntime.Version
import ClientRuntime.Report.Retry
import ClientRuntime.Report.Config
import ClientRuntime.Simulation.Caches
import ClientRuntime.Report.Masked
import ClientRuntime.Simulation.Executions
import ClientRuntime.Simulation.Retries
import ClientRuntime.Simulation.Policies
import ClientRuntime.Proofs.Retry.Tokens
import ClientRuntime.Proofs.Operation.Account
import ClientRuntime.Proofs.Bucket.Conservation
import ClientRuntime.Proofs.Bucket.Wakeups
import ClientRuntime.Proofs.Cache.Lookups
import ClientRuntime.Proofs.Cache.Sweeping
import ClientRuntime.Proofs.Trace.Programs
import ClientRuntime.Proofs.Operation.Cancellation
import ClientRuntime.Proofs.Bucket.Refills
import ClientRuntime.Proofs.Float.Error
import ClientRuntime.Proofs.Bucket.Accrual
import ClientRuntime.Proofs.Bucket.Waiting
import ClientRuntime.Proofs.Operation.Beginnings
import ClientRuntime.Proofs.Operation.Counted
import ClientRuntime.Proofs.Operation.Attempts
import ClientRuntime.Proofs.Fiber.Blind
import ClientRuntime.Proofs.Trace.Untraced
import ClientRuntime.Proofs.Retry.Unseeing
import ClientRuntime.Proofs.Operation.Noted
import ClientRuntime.Proofs.Operation.Unseeing
import ClientRuntime.Proofs.Operation.Idle
import ClientRuntime.Proofs.Operation.Isolation
import ClientRuntime.Proofs.Cache.Fruitless
import ClientRuntime.Proofs.Retry.Single
import ClientRuntime.Proofs.Bucket.Granting
import ClientRuntime.Proofs.Bucket.Monotone
import ClientRuntime.Proofs.Bucket.Looks
import ClientRuntime.Proofs.Backoff.Overflow
import ClientRuntime.Proofs.Retry.Written
import ClientRuntime.Proofs.Trace.Scopes
import ClientRuntime.Proofs.Trace.Closings
import ClientRuntime.Proofs.Trace.Transparent
import ClientRuntime.Proofs.Trace.Rendered
import ClientRuntime.Proofs.Cache.Pacing
import ClientRuntime.Proofs.Clock
import ClientRuntime.Proofs.Property
import ClientRuntime.Proofs.Retry.Settings
