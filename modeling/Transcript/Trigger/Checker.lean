import Transcript.Trigger.State

/-!
# Checkers

A checker decides from what is known about a scope whether the time has come to sum it up.
-/

namespace Transcript

/-- A way to decide whether a scope is to be summed up. -/
abbrev Checker := TriggerState → Bool

namespace Checker

/-- More events than the threshold. -/
def events (threshold : Nat) : Checker := fun s => threshold < s.events

/-- More tokens than the threshold, which has to be above zero. -/
def tokens (threshold : Nat) : Checker := fun s => 0 < threshold && threshold < s.tokens

/-- A longer window than the interval, which must not be empty. -/
def time (interval : Span) : Checker := fun s =>
  0 < interval.nanoseconds && interval.nanoseconds < s.elapsed.nanoseconds

/-- What one of the checkers finds. Without any it is never time. -/
def any (checkers : List Checker) : Checker := fun s => checkers.any (· s)

/-- What all of the checkers find. Without any it is never time. -/
def all (checkers : List Checker) : Checker := fun s => !checkers.isEmpty && checkers.all (· s)

end Checker

end Transcript
