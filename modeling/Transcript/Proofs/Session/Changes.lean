import Mathlib.Data.List.DropRight
import Transcript.Proofs.Session.Numbering

/-!
# What becomes of a log

A log is changed by events that come in and by the removal of sessions. Whatever the changes were, a
session holds the events that have come in since it was last removed, with the numbers from 1 on
(`LogChange.session_log_of`). So the search for the events behind a boundary finds what a look at
every event would find (`LogChange.log_holds_what_arrived`).
-/

namespace Transcript

namespace SessionLog

variable {log : SessionLog}

/-- The events behind a boundary are those of the scope with higher numbers, or all of the scope if
there is no boundary. -/
theorem IsNumbered.events_after_eq_filter (h : log.IsNumbered) (key : SessionKey) (filter : String)
    (boundary : Option Nat) :
    log.eventsAfter key filter boundary =
      (log.events key).filter fun e => boundary.all (· < e.id) && e.isWithin filter := by
  refine (h.events_after_eq ⟨key, filter⟩ boundary).trans ?_
  rw [inScope, List.filter_filter]
  refine List.filter_congr fun e he => ?_
  cases boundary with
  | none =>
      have hpos : 0 < e.id := ((h key).id_bounds he).1
      simp [hpos]
  | some boundary => rfl

/-- The newest events are tried first, but what counts is whether there is any in the scope. -/
theorem has_events_iff (log : SessionLog) (key : SessionKey) (filter : String) :
    log.hasEvents key filter = true ↔ (log.events key).filter (·.isWithin filter) ≠ [] := by
  rw [hasEvents, List.any_reverse, List.any_eq_true, ne_eq, List.filter_eq_nil_iff]
  simp

end SessionLog

/-- A change of a log. -/
inductive LogChange where
  /-- An event of a session comes in. -/
  | append (key : SessionKey) (e : Event)
  /-- A session is removed. -/
  | remove (key : SessionKey)
deriving DecidableEq

namespace LogChange

/-- The session that is changed. -/
def key : LogChange → SessionKey
  | .append key _ => key
  | .remove key => key

/-- The log after a change. -/
def after (log : SessionLog) : LogChange → SessionLog
  | .append key e => log.append key e
  | .remove key => log.remove key

/-- The log that comes of changes, when there were no sessions at first. -/
def logOf (changes : List LogChange) : SessionLog := changes.foldl after {}

/-- The event that comes in for a session. -/
def event? (key : SessionKey) : LogChange → Option Event
  | .append other e => if other = key then some e else none
  | .remove _ => none

/-- The events that have come in for a session since it was last removed, in the order of their
arrival. -/
def arrived (key : SessionKey) (changes : List LogChange) : List Event :=
  (changes.rtakeWhile (· ≠ .remove key)).filterMap (event? key)

/-- The events with the numbers from 1 on. -/
def numbered (es : List Event) : List Event := es.mapIdx fun i e => { e with id := i + 1 }

/-- The next event gets the next number. -/
theorem numbered_concat (es : List Event) (e : Event) :
    numbered (es ++ [e]) = numbered es ++ [{ e with id := es.length + 1 }] :=
  List.mapIdx_concat

/-- What has arrived after one more change. -/
theorem arrived_concat (key : SessionKey) (changes : List LogChange) (change : LogChange) :
    arrived key (changes ++ [change]) =
      if change = .remove key then [] else arrived key changes ++ (change.event? key).toList := by
  unfold arrived
  rw [List.rtakeWhile_concat]
  by_cases h : change = .remove key
  · simp [h]
  · cases hevent : change.event? key <;> simp [h, hevent]

/-- Only the session of a change is changed. -/
theorem find_after_of_ne (log : SessionLog) {change : LogChange} {key : SessionKey}
    (h : key ≠ change.key) : (change.after log).sessions.find? key = log.sessions.find? key := by
  cases change with
  | append other e => exact (Table.find_insert _ _ _ _).trans (if_neg h)
  | remove other => exact (Table.find_erase _ _ _).trans (if_neg h)

/-- A session holds the events that have come in since it was last removed. -/
theorem session_log_of (changes : List LogChange) (key : SessionKey) :
    (logOf changes).session key =
      { events := numbered (arrived key changes), lastId := (arrived key changes).length } := by
  induction changes using List.reverseRecOn with
  | nil => rfl
  | append_singleton changes change ih =>
      have hlog : logOf (changes ++ [change]) = change.after (logOf changes) := List.foldl_concat ..
      rw [hlog, arrived_concat]
      cases change with
      | append other e =>
          show ((logOf changes).append other e).session key = _
          rw [SessionLog.session_append]
          by_cases hkey : key = other
          · subst hkey
            simp [ih, event?, Session.append, numbered_concat]
          · simp [hkey, Ne.symm hkey, ih, event?]
      | remove other =>
          show ((logOf changes).remove other).session key = _
          rw [SessionLog.session_remove]
          by_cases hkey : key = other
          · subst hkey
            simp [numbered]
          · simp [hkey, Ne.symm hkey, ih, event?]

/-- A change keeps the numbering. -/
theorem is_numbered_after {log : SessionLog} (h : log.IsNumbered) (change : LogChange) :
    (change.after log).IsNumbered := by
  cases change with
  | append key e => exact h.append key e
  | remove key => exact h.remove key

/-- Whatever the changes, events are numbered from one on. -/
theorem is_numbered_log_of (changes : List LogChange) : (logOf changes).IsNumbered :=
  List.foldlRecOn changes after SessionLog.is_numbered_empty fun _ h change _ =>
    is_numbered_after h change

/-- Whatever the changes of a log were: each session holds the events that have come in since it was
last removed, numbered from 1 on, and the number of a new event is the number of events that there
are then. The events behind a boundary are those of the scope with higher numbers, or all of the
scope without a boundary, and whether there are any is told beforehand. A change leaves the other
sessions alone. -/
theorem log_holds_what_arrived (changes : List LogChange) :
    let log := logOf changes
    (∀ key, log.events key = numbered (arrived key changes)) ∧
    (∀ key i e, (log.events key)[i]? = some e → e.id = i + 1) ∧
    (∀ key e, log.nextId key = ((log.append key e).events key).length) ∧
    (∀ key filter boundary, log.eventsAfter key filter boundary =
      (log.events key).filter fun e => boundary.all (· < e.id) && e.isWithin filter) ∧
    (∀ key filter, log.hasEvents key filter = true ↔ log.eventsAfter key filter none ≠ []) ∧
    ∀ (change : LogChange) (key : SessionKey), key ≠ change.key →
      (change.after log).sessions.find? key = log.sessions.find? key := by
  intro log
  have hnumbered : log.IsNumbered := is_numbered_log_of changes
  refine ⟨fun key => ?_, fun key i e he => (hnumbered key).id_get he, fun key e => ?_,
    hnumbered.events_after_eq_filter, fun key filter => ?_, fun _ _ => find_after_of_ne log⟩
  · exact congrArg Session.events (session_log_of changes key)
  · have hlast : log.nextId key = (log.session key).events.length + 1 :=
      congrArg (· + 1) (hnumbered key).last_eq
    rw [hlast, SessionLog.events, SessionLog.session_append, if_pos rfl, Session.append,
      List.length_append, List.length_singleton]
  · rw [log.has_events_iff, hnumbered.events_after_eq_filter]
    rfl

/-- A session that comes into being again after its removal starts with the number 1, and its
removal leaves the other session alone. -/
theorem log_holds_what_arrived_reused_key :
    let desk : SessionKey := ⟨"app", "user", "desk"⟩
    let lamp : SessionKey := ⟨"app", "user", "lamp"⟩
    let saying (text : String) : Event :=
      { author := "user", message := .user text, timestamp := ⟨0, 0⟩ }
    let log := logOf [.append desk (saying "x"), .append lamp (saying "y"), .remove desk,
      .append desk (saying "z")]
    log.events desk = [{ saying "z" with id := 1 }] ∧ log.eventsAfter desk "" (some 1) = [] ∧
      lamp ≠ desk ∧ (log.remove desk).sessions.find? lamp = log.sessions.find? lamp := by
  intro desk lamp saying log
  obtain ⟨hevents, -, -, hafter, -, hothers⟩ := log_holds_what_arrived
    [.append desk (saying "x"), .append lamp (saying "y"), .remove desk, .append desk (saying "z")]
  have hdesk : log.events desk = [{ saying "z" with id := 1 }] := (hevents desk).trans rfl
  have hne : lamp ≠ desk := by decide
  refine ⟨hdesk, ?_, hne, hothers (.remove desk) lamp hne⟩
  rw [hafter, hdesk]
  rfl

end LogChange

end Transcript
