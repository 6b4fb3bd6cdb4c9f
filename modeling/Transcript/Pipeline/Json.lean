import Transcript.Json.Decode
import Transcript.Message.Json
import Transcript.Pipeline.Pool

/-!
# Pools as JSON

The section of a configuration on jobs, and the stats of a pool.
-/

namespace Transcript

open Json

namespace PoolConfig

/-- The JSON form of the section on jobs. -/
def encode (c : PoolConfig) : Value :=
  .object
    [("async_worker_count", .count c.workers), ("summary_queue_size", .count c.queueSize),
      ("per_job_timeout_secs", .count c.jobTimeout), ("shutdown_grace_secs", .count c.grace)]

/-- The record of the section on jobs. -/
def shape : Shape PoolConfig where
  fields :=
    [.of "async_worker_count" Decoder.count, .of "summary_queue_size" Decoder.count,
      .of "per_job_timeout_secs" Decoder.count, .of "shutdown_grace_secs" Decoder.count]
  leading := 0
  build given := do
    let usual : PoolConfig := {}
    let workers ← given.withDefault "async_worker_count" usual.workers Decoder.count
    let queueSize ← given.withDefault "summary_queue_size" usual.queueSize Decoder.count
    let jobTimeout ← given.withDefault "per_job_timeout_secs" usual.jobTimeout Decoder.count
    let grace ← given.withDefault "shutdown_grace_secs" usual.grace Decoder.count
    return { workers, queueSize, jobTimeout, grace }

/-- Reads the section on jobs. -/
def decode : Decoder PoolConfig := shape.decode

end PoolConfig

namespace PoolStats

/-- The JSON form of the stats. -/
def encode (s : PoolStats) : Value :=
  .object [("enqueued", .count s.enqueued), ("dropped", .count s.dropped),
    ("succeeded", .count s.succeeded), ("failed", .count s.failed),
    ("timed_out", .count s.timedOut), ("abandoned", .count s.abandoned), ("usage", s.usage.encode)]

end PoolStats

end Transcript
