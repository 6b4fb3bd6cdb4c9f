import Transcript.Time.Timestamp

/-!
# What is known about a scope

A `TriggerState` counts what has happened in a scope since the last attempt to sum it up. It is all
that the decision about the next attempt goes by.
-/

namespace Transcript

/-- What has happened in a scope since the last attempt to sum it up. -/
structure TriggerState where
  /-- The number of events. -/
  events : Nat := 0
  /-- The tokens of those events. Their sum is taken to fit a machine word. -/
  tokens : Nat := 0
  /-- The last attempt, or else the first event. -/
  windowStart : Option Timestamp := none
  /-- The latest event, which may be older than the last attempt. -/
  lastEvent : Option Timestamp := none
  /-- The number of jobs that are waiting or running. -/
  inFlight : Nat := 0
deriving DecidableEq, Repr

namespace TriggerState

/-- The span from the start of the window to the latest event. -/
def elapsed (s : TriggerState) : Span :=
  match s.windowStart, s.lastEvent with
  | some start, some last => start.spanTo last
  | _, _ => {}

/-- The state after an event. -/
def record (s : TriggerState) (tokens : Nat) (time : Timestamp) : TriggerState :=
  { s with
    events := s.events + 1
    tokens := s.tokens + tokens
    windowStart := some (s.windowStart.getD time)
    lastEvent := some time }

/-- The state after an attempt to sum the scope up. -/
def reset (s : TriggerState) (now : Timestamp) : TriggerState :=
  { s with events := 0, tokens := 0, windowStart := some now }

/-- Whether a further job may start. An exclusive one has to be alone. -/
def admits (s : TriggerState) (exclusive : Bool) : Bool := !(exclusive && 0 < s.inFlight)

/-- The state with one more job. -/
def beginJob (s : TriggerState) : TriggerState := { s with inFlight := s.inFlight + 1 }

/-- The state with one job less. -/
def endJob (s : TriggerState) : TriggerState := { s with inFlight := s.inFlight - 1 }

end TriggerState

end Transcript
