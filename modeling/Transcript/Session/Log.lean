import Transcript.Arithmetic
import Transcript.Session.Event
import Transcript.Session.Key
import Transcript.Table

/-!
# Session logs

A `Session` is the row of events of one conversation. Events are only ever added, at its end, and
are numbered from 1 without gaps. A `SessionLog` holds the sessions that are going on.
-/

namespace Transcript

/-- The events of a session, in the order in which they came. -/
structure Session where
  /-- The events. -/
  events : List Event := []
  /-- The number of the last event, or 0 if there is none. -/
  lastId : Nat := 0

namespace Session

/-- The session with one more event, which gets the next number. -/
def append (s : Session) (e : Event) : Session :=
  let id := s.lastId + 1
  ⟨s.events ++ [{ e with id }], id⟩

/-- The number of the event at a position. Beyond the last event there is none. -/
def idAt (s : Session) (i : Nat) : Nat :=
  match s.events[i]? with
  | some e => e.id
  | none => 0

/-- The position of the first event with a number above the boundary. Numbers grow with
positions. -/
def positionAfter (s : Session) (boundary : Nat) : Nat :=
  firstTrue 0 s.events.length fun i => boundary < s.idAt i

/-- The events that the filter lets through and that have a number above the boundary, if one is
given. -/
def eventsAfter (s : Session) (filter : String) (boundary : Option Nat) : List Event :=
  (s.events.drop (s.positionAfter (boundary.getD 0))).filter (·.isWithin filter)

end Session

/-- The sessions that are going on. -/
structure SessionLog where
  /-- The session of each key. -/
  sessions : Table SessionKey Session := ∅

namespace SessionLog

/-- The session of a key, which has no events if nothing is known about it. -/
def session (log : SessionLog) (key : SessionKey) : Session := (log.sessions.find? key).getD {}

/-- The events of a session. -/
def events (log : SessionLog) (key : SessionKey) : List Event := (log.session key).events

/-- The number that the next event of a session gets. -/
def nextId (log : SessionLog) (key : SessionKey) : Nat := (log.session key).lastId + 1

/-- The log with one more event of a session. -/
def append (log : SessionLog) (key : SessionKey) (e : Event) : SessionLog :=
  ⟨log.sessions.insert key ((log.session key).append e)⟩

/-- The events of a session that the filter lets through and that come after the boundary. -/
def eventsAfter (log : SessionLog) (key : SessionKey) (filter : String) (boundary : Option Nat) :
    List Event :=
  (log.session key).eventsAfter filter boundary

/-- Whether the filter lets any event of a session through. The newest events are tried first. -/
def hasEvents (log : SessionLog) (key : SessionKey) (filter : String) : Bool :=
  (log.events key).reverse.any (·.isWithin filter)

/-- The log without a session. -/
def remove (log : SessionLog) (key : SessionKey) : SessionLog := ⟨log.sessions.erase key⟩

/-- Whether the log holds the session. -/
def contains (log : SessionLog) (key : SessionKey) : Bool := log.sessions.contains key

/-- The number of sessions. -/
def size (log : SessionLog) : Nat := log.sessions.size

end SessionLog

end Transcript
