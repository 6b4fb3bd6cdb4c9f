import Transcript.Proofs.Table
import Transcript.Trigger.Counters

/-!
# What the counters know about a scope

Here every operation on trigger counters is told by what is known about a scope afterwards. Each of
them changes the scopes that it is about and no other, and the tables that the scopes are spread
over play no part in it.
-/

namespace Transcript

namespace TriggerTable

variable (t : TriggerTable) (scope other : Scope)

/-- An event counts for its own scope only. -/
theorem snapshot_record (tokens : Nat) (time : Timestamp) :
    (t.record scope tokens time).snapshot other =
      if other = scope then (t.snapshot scope).record tokens time else t.snapshot other := by
  unfold record snapshot
  rw [Table.find_insert]
  split <;> rfl

/-- An attempt to sum up counts for a scope only if something is known about it. -/
theorem snapshot_reset (now : Timestamp) :
    (t.reset scope now).snapshot other =
      if other = scope ∧ t.states.contains scope then (t.snapshot scope).reset now
      else t.snapshot other := by
  unfold reset snapshot Table.contains
  rw [Table.find_modify]
  by_cases hscope : other = scope
  · subst hscope
    cases hfound : t.states.find? other with
    | none => simp
    | some s => simp
  · simp [hscope]

/-- A job that may start counts for its own scope only. -/
theorem snapshot_begin_job (exclusive : Bool) :
    (t.beginJob scope exclusive).snapshot other =
      if other = scope ∧ (t.snapshot scope).admits exclusive then (t.snapshot scope).beginJob
      else t.snapshot other := by
  unfold beginJob
  by_cases hadmits : (t.snapshot scope).admits exclusive = true
  · rw [if_pos hadmits]
    simp only [hadmits, and_true]
    unfold snapshot
    rw [Table.find_insert]
    split <;> rfl
  · simp [hadmits]

/-- A scope that nothing is known about has no jobs to end, and the count stays at zero. -/
theorem snapshot_end_job :
    (t.endJob scope).snapshot other =
      if other = scope then (t.snapshot scope).endJob else t.snapshot other := by
  unfold endJob snapshot
  rw [Table.find_modify]
  by_cases hscope : other = scope
  · subst hscope
    cases t.states.find? other with
    | none => simp [TriggerState.endJob]
    | some s => simp
  · simp [hscope]

/-- Of a session that is over nothing is known. -/
theorem snapshot_forget (session : SessionKey) :
    (t.forget session).snapshot other =
      if other.session = session then {} else t.snapshot other := by
  unfold forget snapshot
  rw [Table.find_filter]
  by_cases hsession : other.session = session
  · simp [hsession]
  · simp [hsession]

end TriggerTable

namespace TriggerCounters

variable {place : Scope → Nat} (c : TriggerCounters place) (scope other : Scope)

/-- Only the table of the scope is changed. -/
theorem shard_on_shard (f : TriggerTable → TriggerTable) :
    (c.onShard scope f).shard other =
      if shardOf place other = shardOf place scope then f (c.shard scope) else c.shard other := by
  show (c.shards.set (shardOf place scope).val (f (c.shard scope)))[(shardOf place other).val] = _
  rw [Vector.getElem_set]
  simp only [Fin.ext_iff, eq_comm]
  rfl

/-- Scopes of one table have the same table. -/
theorem shard_congr {scope other : Scope} (hplace : shardOf place other = shardOf place scope) :
    c.shard other = c.shard scope :=
  congrArg c.shards.get hplace

/-- A change of one scope in its table is a change of that scope only, among all tables. -/
theorem snapshot_on_shard {f : TriggerTable → TriggerTable}
    (hf : ∀ other, other ≠ scope → (f (c.shard scope)).snapshot other =
      (c.shard scope).snapshot other) :
    (c.onShard scope f).snapshot other =
      if other = scope then (f (c.shard scope)).snapshot scope else c.snapshot other := by
  unfold snapshot
  rw [shard_on_shard]
  by_cases hscope : other = scope
  · subst hscope
    simp
  · rw [if_neg hscope]
    split
    · -- The other scope is in the same table, which knows about it what it knew before.
      rename_i hplace
      rw [hf other hscope, c.shard_congr hplace]
    · rfl

/-- An event counts for its own scope only. -/
theorem snapshot_record (tokens : Nat) (time : Timestamp) :
    (c.record scope tokens time).snapshot other =
      if other = scope then (c.snapshot scope).record tokens time else c.snapshot other := by
  unfold record
  rw [snapshot_on_shard]
  · rw [TriggerTable.snapshot_record, if_pos rfl]
    rfl
  · intro other hne
    rw [TriggerTable.snapshot_record, if_neg hne]

/-- An attempt is noted for its own scope, if that is known. -/
theorem snapshot_reset (now : Timestamp) :
    (c.reset scope now).snapshot other =
      if other = scope ∧ (c.shard scope).states.contains scope then (c.snapshot scope).reset now
      else c.snapshot other := by
  unfold reset
  rw [snapshot_on_shard]
  · rw [TriggerTable.snapshot_reset]
    by_cases hscope : other = scope
    · subst hscope
      simp [snapshot]
    · simp [hscope]
  · intro other hne
    rw [TriggerTable.snapshot_reset, if_neg (fun h => hne h.1)]

/-- A job that may start counts for its own scope only. -/
theorem snapshot_begin_job (exclusive : Bool) :
    (c.beginJob scope exclusive).snapshot other =
      if other = scope ∧ c.admits scope exclusive then (c.snapshot scope).beginJob
      else c.snapshot other := by
  unfold beginJob
  rw [snapshot_on_shard]
  · rw [TriggerTable.snapshot_begin_job]
    by_cases hscope : other = scope
    · subst hscope
      simp [snapshot, admits]
    · simp [hscope]
  · intro other hne
    rw [TriggerTable.snapshot_begin_job, if_neg (fun h => hne h.1)]

/-- The end of a job counts for its own scope only. -/
theorem snapshot_end_job :
    (c.endJob scope).snapshot other =
      if other = scope then (c.snapshot scope).endJob else c.snapshot other := by
  unfold endJob
  rw [snapshot_on_shard]
  · rw [TriggerTable.snapshot_end_job, if_pos rfl]
    rfl
  · intro other hne
    rw [TriggerTable.snapshot_end_job, if_neg hne]

/-- A job that is taken off the count as soon as it has been counted has changed nothing. -/
theorem snapshot_end_begin_job {exclusive : Bool} (hadmits : c.admits scope exclusive = true) :
    ((c.beginJob scope exclusive).endJob scope).snapshot other = c.snapshot other := by
  rw [snapshot_end_job, snapshot_begin_job, snapshot_begin_job]
  by_cases hscope : other = scope
  · subst hscope
    simp [hadmits, TriggerState.beginJob, TriggerState.endJob]
  · simp [hscope]

/-- A session is forgotten in all tables. -/
theorem snapshot_forget (session : SessionKey) :
    (c.forget session).snapshot other =
      if other.session = session then {} else c.snapshot other := by
  have hshard : (c.forget session).shard other = (c.shard other).forget session :=
    Vector.getElem_map _ _
  unfold snapshot
  rw [hshard, TriggerTable.snapshot_forget]

/-! ## Known scopes -/

/-- Whether anything is known about a scope. -/
def knows (c : TriggerCounters place) (scope : Scope) : Bool :=
  (c.shard scope).states.contains scope

/-- Which scopes are known is a matter of each table. -/
theorem knows_on_shard {f : TriggerTable → TriggerTable}
    (hf : (f (c.shard scope)).states.contains other = (c.shard scope).states.contains other) :
    (c.onShard scope f).knows other = c.knows other := by
  unfold knows
  rw [shard_on_shard]
  split
  · rename_i hplace
    rw [hf, c.shard_congr hplace]
  · rfl

@[simp] theorem knows_reset (now : Timestamp) : (c.reset scope now).knows other = c.knows other :=
  c.knows_on_shard scope other (Table.contains_modify _ _ _ _)

@[simp] theorem knows_end_job : (c.endJob scope).knows other = c.knows other :=
  c.knows_on_shard scope other (Table.contains_modify _ _ _ _)

/-- A scope that nothing is known about is in its initial state. -/
theorem snapshot_of_not_known (hscope : c.knows scope = false) : c.snapshot scope = {} := by
  have hnone : (c.shard scope).states.find? scope = none := by
    rwa [knows, Table.contains, Option.isSome_eq_false_iff, Option.isNone_iff_eq_none] at hscope
  unfold snapshot TriggerTable.snapshot
  rw [hnone, Option.getD_none]

/-! ## Jobs in flight -/

/-- The number of jobs of a scope that are counted as waiting or running. -/
def inFlight (c : TriggerCounters place) (scope : Scope) : Nat := (c.snapshot scope).inFlight

/-- A scope admits a further job, unless the job is to be alone and another is counted. -/
theorem admits_iff (exclusive : Bool) :
    c.admits scope exclusive = true ↔ exclusive = false ∨ c.inFlight scope = 0 := by
  unfold admits TriggerState.admits inFlight
  cases exclusive with
  | false => simp
  | true => simp

/-- A job that may start does so whether it has to be alone or not. -/
theorem begin_job_eq {exclusive : Bool} (hadmits : c.admits scope exclusive = true) :
    c.beginJob scope exclusive = c.beginJob scope false := by
  have htable : (c.shard scope).beginJob scope exclusive = (c.shard scope).beginJob scope false :=
    (if_pos hadmits).trans (if_pos rfl).symm
  unfold beginJob onShard
  dsimp only
  rw [htable]

/-- At first no scope has jobs. -/
@[simp] theorem in_flight_empty : ({} : TriggerCounters place).inFlight scope = 0 := by
  unfold inFlight snapshot shard
  rw [Fin.getElem_fin, Vector.getElem_replicate]
  rfl

/-- An event makes no job. -/
@[simp] theorem in_flight_record (tokens : Nat) (time : Timestamp) :
    (c.record scope tokens time).inFlight other = c.inFlight other := by
  unfold inFlight
  rw [snapshot_record]
  split
  · rename_i hscope
    rw [hscope]
    rfl
  · rfl

/-- Nor does an attempt to sum up. -/
@[simp] theorem in_flight_reset (now : Timestamp) :
    (c.reset scope now).inFlight other = c.inFlight other := by
  unfold inFlight
  rw [snapshot_reset]
  split
  · rename_i hscope
    rw [hscope.1]
    rfl
  · rfl

/-- A job that may start is one job more. -/
theorem in_flight_begin_job {exclusive : Bool} (hadmits : c.admits scope exclusive = true) :
    (c.beginJob scope exclusive).inFlight other =
      c.inFlight other + if other = scope then 1 else 0 := by
  unfold inFlight
  rw [snapshot_begin_job]
  by_cases hscope : other = scope
  · subst hscope
    simp [hadmits, TriggerState.beginJob]
  · simp [hscope]

/-- A job that ends is one job less, if there are any. -/
theorem in_flight_end_job :
    (c.endJob scope).inFlight other = c.inFlight other - if other = scope then 1 else 0 := by
  unfold inFlight
  rw [snapshot_end_job]
  by_cases hscope : other = scope
  · subst hscope
    simp [TriggerState.endJob]
  · simp [hscope]

/-- What is known about a scope after one of its jobs has ended, which may be tracked or not. -/
theorem snapshot_job_over (tracked : Bool) (now : Timestamp) :
    (if tracked then (c.reset scope now).endJob scope else c.reset scope now).snapshot other =
      if other = scope ∧ c.knows scope then
        { c.snapshot scope with
          events := 0
          tokens := 0
          windowStart := some now
          inFlight := c.inFlight scope - if tracked then 1 else 0 }
      else c.snapshot other := by
  have hreset := c.snapshot_reset scope other now
  cases tracked with
  | false => exact hreset
  | true =>
      simp only [if_true, snapshot_end_job]
      by_cases hscope : other = scope
      · subst hscope
        cases hknown : c.knows other with
        | true =>
            rw [if_pos rfl, hreset, if_pos ⟨rfl, hknown⟩]
            simp [TriggerState.endJob, TriggerState.reset, inFlight]
        | false =>
            -- Nothing is known of the scope, so no job is counted that could be taken off.
            have hunknown : (c.reset other now).knows other = false := by rw [knows_reset, hknown]
            rw [if_pos rfl, snapshot_of_not_known _ _ hunknown, snapshot_of_not_known _ _ hknown]
            simp [TriggerState.endJob]
      · rw [if_neg hscope, hreset]
        simp [hscope]

/-- A session that is over has no jobs. -/
theorem in_flight_forget (session : SessionKey) :
    (c.forget session).inFlight other =
      if other.session = session then 0 else c.inFlight other := by
  unfold inFlight
  rw [snapshot_forget]
  split <;> rfl

end TriggerCounters

end Transcript
