import Transcript.Session.Key
import Transcript.Table
import Transcript.Trigger.State

/-!
# Trigger states by scope

A `TriggerTable` keeps the state of every scope that something has happened in. A scope that nothing
is known about has the initial state.
-/

namespace Transcript

/-- The states of the scopes that something has happened in. -/
structure TriggerTable where
  /-- The state of each scope. -/
  states : Table Scope TriggerState := ∅

namespace TriggerTable

/-- The state of a scope. -/
def snapshot (t : TriggerTable) (scope : Scope) : TriggerState := (t.states.find? scope).getD {}

/-- The table after an event in a scope. -/
def record (t : TriggerTable) (scope : Scope) (tokens : Nat) (time : Timestamp) : TriggerTable :=
  ⟨t.states.insert scope ((t.snapshot scope).record tokens time)⟩

/-- The table after an attempt to sum a scope up. An unknown scope stays unknown. -/
def reset (t : TriggerTable) (scope : Scope) (now : Timestamp) : TriggerTable :=
  ⟨t.states.modify scope (·.reset now)⟩

/-- The table after the start of a job, or the same table if the job may not start. -/
def beginJob (t : TriggerTable) (scope : Scope) (exclusive : Bool) : TriggerTable :=
  if (t.snapshot scope).admits exclusive then ⟨t.states.insert scope (t.snapshot scope).beginJob⟩
  else t

/-- The table after the end of a job. An unknown scope stays unknown. -/
def endJob (t : TriggerTable) (scope : Scope) : TriggerTable :=
  ⟨t.states.modify scope TriggerState.endJob⟩

/-- The table without the scopes of a session. -/
def forget (t : TriggerTable) (session : SessionKey) : TriggerTable :=
  ⟨t.states.filter fun scope => scope.session ≠ session⟩

/-- The number of known scopes. -/
def size (t : TriggerTable) : Nat := t.states.size

/-- The number of scopes that are known of a session. -/
def forgotten (t : TriggerTable) (session : SessionKey) : Nat := t.size - (t.forget session).size

end TriggerTable

end Transcript
