import Transcript.Time.Span

/-!
# Points in time

A `Timestamp` counts seconds since the start of 1970 in universal time, and nanoseconds within the
second. A leap second has no number of its own: it lengthens the second in front of it, whose
nanoseconds then run up to twice `nanosPerSecond`.
-/

namespace Transcript

/-- The nanoseconds of a second. -/
def nanosPerSecond : Nat := 1000000000

/-- The seconds of a day. -/
def secondsPerDay : Nat := 86400

/-- A point in time. -/
structure Timestamp where
  /-- The whole seconds since the start of 1970. -/
  seconds : Int
  /-- The nanoseconds within the second, or within it and the leap second behind it. -/
  nanos : Nat := 0
deriving DecidableEq, Repr

namespace Timestamp

/-- Whether the point lies in a leap second. -/
def isLeap (t : Timestamp) : Bool := nanosPerSecond ≤ t.nanos

/-- The whole seconds since the start of the day. -/
def timeOfDay (t : Timestamp) : Nat := (t.seconds % secondsPerDay).toNat

/--
The seconds that a leap second puts between two points. It is noticed if its time of day lies
between the times of day of the two.
-/
def leapBetween (earlier later : Timestamp) : Int :=
  if earlier.timeOfDay < later.timeOfDay && earlier.isLeap then 1
  else if later.timeOfDay < earlier.timeOfDay && later.isLeap then -1
  else 0

/-- The nanoseconds from one point to another, less than zero if it comes before. -/
def nanosTo (earlier later : Timestamp) : Int :=
  (later.seconds - earlier.seconds + leapBetween earlier later) * nanosPerSecond +
    (later.nanos - earlier.nanos)

/-- The span from one point to another, which is empty if that comes before. -/
def spanTo (earlier later : Timestamp) : Span := ⟨(earlier.nanosTo later).toNat⟩

/-- The point that comes a number of nanoseconds later, when there is no leap second on the way. -/
def addNanos (t : Timestamp) (n : Nat) : Timestamp :=
  ⟨t.seconds + ((t.nanos + n) / nanosPerSecond : Nat), (t.nanos + n) % nanosPerSecond⟩

/-- The point that comes so much later. A leap second is left behind as if it had been none. -/
def add (t : Timestamp) (s : Span) : Timestamp :=
  if t.isLeap then
    if t.nanos + s.nanoseconds < 2 * nanosPerSecond then { t with nanos := t.nanos + s.nanoseconds }
    else addNanos { t with nanos := t.nanos - nanosPerSecond } s.nanoseconds
  else t.addNanos s.nanoseconds

end Timestamp

end Transcript
