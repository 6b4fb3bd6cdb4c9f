import Transcript.Json.Value
import Transcript.Time.Span

/-!
# Failures

What can go wrong, and how it is reported. None of it ends a conversation: whoever asks gets the
failure as an answer.
-/

namespace Transcript

/-- A configuration that cannot be used. -/
inductive ConfigFault where
  /-- There are no workers. -/
  | noWorkers
  /-- The queue has no room. -/
  | noQueue
  /-- Jobs have no time. -/
  | noTimeout
  /-- There is a model to ask but nothing that could run the workers. -/
  | noRuntime
deriving DecidableEq, Repr

/-- The report of a configuration that cannot be used. -/
def ConfigFault.message : ConfigFault → String
  | .noWorkers => "scheduler.async_worker_count must be at least 1"
  | .noQueue => "scheduler.summary_queue_size must be at least 1"
  | .noTimeout => "scheduler.per_job_timeout_secs must be at least 1"
  | .noRuntime => "a summarizer requires a running tokio runtime"

/-- Why the operating system refuses to read or write. -/
inductive SystemFault where
  /-- There is no such file. -/
  | notFound
  /-- A directory stands where a file should. -/
  | isDirectory
  /-- A file stands where a directory on the way should. -/
  | notDirectory
  /-- A file stands where the new directory should. -/
  | alreadyExists
  /-- A name or a whole path has too many bytes. -/
  | nameTooLong
  /-- The file may not be read. -/
  | permissionDenied
  /-- The device does not do its work. -/
  | deviceFailed
  /-- The bytes of the file are no text. -/
  | notText
deriving DecidableEq, Repr

/-- The report of the operating system. -/
def SystemFault.message : SystemFault → String
  | .notFound => "No such file or directory (os error 2)"
  | .isDirectory => "Is a directory (os error 21)"
  | .notDirectory => "Not a directory (os error 20)"
  | .alreadyExists => "File exists (os error 17)"
  | .nameTooLong => "File name too long (os error 36)"
  | .permissionDenied => "Permission denied (os error 13)"
  | .deviceFailed => "Input/output error (os error 5)"
  | .notText => "stream did not contain valid UTF-8"

/-- What can go wrong. -/
inductive Failure where
  /-- A range of messages that are not there. -/
  | range (start stop length : Nat)
  /-- The queue had no room for a job, which was dropped. The scope of the job is named. -/
  | queueFull (scope : String)
  /-- The pool takes no jobs any more. -/
  | closed
  /-- A job took longer than it may. -/
  | timedOut (after : Span)
  /-- A job went wrong. -/
  | jobFailed (reason : String)
  /-- A summary was asked for and there is no model to ask. -/
  | noSummarizer
  /-- A template, here named, without a place for the conversation. -/
  | invalidTemplate (name : String)
  /-- A configuration that cannot be used. -/
  | invalidConfig (fault : ConfigFault)
  /-- The store of summaries did not load or store one. -/
  | store (reason : String)
  /-- The operating system refused. -/
  | system (fault : SystemFault)
  /-- A text that should have been the JSON form of something. -/
  | json (fault : Json.Fault)
deriving DecidableEq, Repr

/-- The report of a failure. -/
def Failure.message : Failure → String
  | .range start stop length =>
    "invalid message range [" ++ toString start ++ ", " ++ toString stop ++ ") for " ++
      toString length ++ " messages"
  | .queueFull scope => "summary queue full, dropped job for " ++ scope
  | .closed => "summary scheduler is closed"
  | .timedOut after => "summary job timed out after " ++ after.text
  | .jobFailed reason => "summary job failed: " ++ reason
  | .noSummarizer => "no summarizer configured"
  | .invalidTemplate name =>
    "invalid prompt template: " ++ name ++ " must contain \x7bconversation_text\x7d"
  | .invalidConfig fault => "invalid configuration: " ++ fault.message
  | .store reason => "summary store error: " ++ reason
  | .system fault => fault.message
  | .json fault => fault.word

end Transcript
