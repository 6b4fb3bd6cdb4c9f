import Transcript.Arithmetic
import Transcript.Trigger.Table

/-!
# Trigger counters

The states of many scopes are spread over a few tables, so that whoever changes one scope keeps
only those out who need the same table. Which table a scope belongs to is left open: any
`place : Scope → Nat` will do, and none of the answers depends on it.
-/

namespace Transcript

/-- The number of tables. -/
def shardCount : Nat := 16

/-- A number for a scope, which goes by the characters of its name. -/
def Scope.place (s : Scope) : Nat := sumOver Char.toNat s.text.toList

/-- The states of all scopes, where `place` tells which table a scope belongs to. -/
structure TriggerCounters (place : Scope → Nat) where
  /-- The tables. -/
  shards : Vector TriggerTable shardCount := .replicate shardCount {}

namespace TriggerCounters

variable {place : Scope → Nat}

/-- The number of the table that a scope belongs to. -/
def shardOf (place : Scope → Nat) (scope : Scope) : Fin shardCount :=
  ⟨place scope % shardCount, Nat.mod_lt _ (by decide)⟩

/-- The table that a scope belongs to. -/
def shard (c : TriggerCounters place) (scope : Scope) : TriggerTable :=
  c.shards[shardOf place scope]

/-- The counters with the table that a scope belongs to changed. -/
def onShard (c : TriggerCounters place) (scope : Scope) (f : TriggerTable → TriggerTable) :
    TriggerCounters place :=
  ⟨c.shards.set (shardOf place scope) (f (c.shard scope))⟩

/-- The state of a scope. -/
def snapshot (c : TriggerCounters place) (scope : Scope) : TriggerState :=
  (c.shard scope).snapshot scope

/-- The counters after an event in a scope. -/
def record (c : TriggerCounters place) (scope : Scope) (tokens : Nat) (time : Timestamp) :
    TriggerCounters place :=
  c.onShard scope (·.record scope tokens time)

/-- The counters after an attempt to sum a scope up. -/
def reset (c : TriggerCounters place) (scope : Scope) (now : Timestamp) : TriggerCounters place :=
  c.onShard scope (·.reset scope now)

/-- Whether a further job of a scope may start. -/
def admits (c : TriggerCounters place) (scope : Scope) (exclusive : Bool) : Bool :=
  (c.snapshot scope).admits exclusive

/-- The counters after the start of a job, or the same counters if the job may not start. -/
def beginJob (c : TriggerCounters place) (scope : Scope) (exclusive : Bool) :
    TriggerCounters place :=
  c.onShard scope (·.beginJob scope exclusive)

/-- The counters after the end of a job. -/
def endJob (c : TriggerCounters place) (scope : Scope) : TriggerCounters place :=
  c.onShard scope (·.endJob scope)

/-- The counters without the scopes of a session. -/
def forget (c : TriggerCounters place) (session : SessionKey) : TriggerCounters place :=
  ⟨c.shards.map (·.forget session)⟩

/-- The number of known scopes. -/
def size (c : TriggerCounters place) : Nat := sumOver TriggerTable.size c.shards.toList

/-- The number of scopes that are known of a session. -/
def forgotten (c : TriggerCounters place) (session : SessionKey) : Nat :=
  sumOver (·.forgotten session) c.shards.toList

end TriggerCounters

end Transcript
