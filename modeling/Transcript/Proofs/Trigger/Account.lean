import Transcript.Proofs.Trigger.Counters

/-!
# The account of a scope

The account of a scope is its state without the number of its jobs, and a scope that nothing is
known about has none. Every operation on trigger counters is told here by the accounts afterwards.
The jobs of a scope have little to do with its account: when one is counted the scope becomes known,
and when one is taken off the count nothing changes.
-/

namespace Transcript

namespace TriggerState

variable (s : TriggerState)

/-- The state without the number of its jobs. -/
def withoutJobs (s : TriggerState) : TriggerState := { s with inFlight := 0 }

@[simp] theorem without_jobs_record (tokens : Nat) (time : Timestamp) :
    (s.record tokens time).withoutJobs = s.withoutJobs.record tokens time := rfl

@[simp] theorem without_jobs_begin_job : s.beginJob.withoutJobs = s.withoutJobs := rfl

end TriggerState

namespace TriggerCounters

variable {place : Scope → Nat} (c : TriggerCounters place) (scope other : Scope)

/-- What is known about a scope, if anything is. -/
def entry (c : TriggerCounters place) (scope : Scope) : Option TriggerState :=
  (c.shard scope).states.find? scope

/-- What is known about a scope apart from its jobs. -/
def account (c : TriggerCounters place) (scope : Scope) : Option TriggerState :=
  (c.entry scope).map TriggerState.withoutJobs

/-- The state of a scope apart from its jobs is what its account says. -/
theorem snapshot_without_jobs : (c.snapshot scope).withoutJobs = (c.account scope).getD {} := by
  show ((c.entry scope).getD {}).withoutJobs = ((c.entry scope).map _).getD {}
  cases c.entry scope <;> rfl

/-- A change of one scope in its table is a change of that scope only, among all tables. -/
theorem entry_on_shard {f : TriggerTable → TriggerTable}
    (hf : ∀ other, other ≠ scope →
      (f (c.shard scope)).states.find? other = (c.shard scope).states.find? other) :
    (c.onShard scope f).entry other =
      if other = scope then (f (c.shard scope)).states.find? scope else c.entry other := by
  unfold entry
  rw [shard_on_shard]
  by_cases hscope : other = scope
  · subst hscope
    simp
  · rw [if_neg hscope]
    split
    · rename_i hplace
      rw [hf other hscope, c.shard_congr hplace]
    · rfl

/-- An event counts for its own scope only. -/
theorem account_record (tokens : Nat) (time : Timestamp) :
    (c.record scope tokens time).account other =
      if other = scope then some (((c.account other).getD {}).record tokens time)
      else c.account other := by
  unfold account record
  rw [entry_on_shard]
  · split
    · rename_i hscope
      subst hscope
      show ((Table.insert _ _ _).find? other).map _ = _
      rw [Table.find_insert, if_pos rfl, Option.map_some, TriggerState.without_jobs_record]
      exact congrArg (fun s : TriggerState => some (s.record tokens time))
        (c.snapshot_without_jobs other)
    · rfl
  · intro other hne
    exact (Table.find_insert _ _ _ _).trans (if_neg hne)

/-- An attempt to sum up counts for a scope only if something is known about it. -/
theorem account_reset (now : Timestamp) :
    (c.reset scope now).account other =
      if other = scope then (c.account other).map (·.reset now) else c.account other := by
  unfold account reset
  rw [entry_on_shard]
  · split
    · rename_i hscope
      subst hscope
      show ((Table.modify _ _ _).find? other).map _ = _
      rw [Table.find_modify, if_pos rfl, Option.map_map, Option.map_map]
      rfl
    · rfl
  · intro other hne
    exact (Table.find_modify _ _ _ _).trans (if_neg hne)

/-- A scope is known as soon as it has a job. -/
theorem account_begin_job {exclusive : Bool} (hadmits : c.admits scope exclusive = true) :
    (c.beginJob scope exclusive).account other =
      if other = scope then some ((c.account other).getD {}) else c.account other := by
  have htable : (c.shard scope).beginJob scope exclusive =
      ⟨(c.shard scope).states.insert scope (c.snapshot scope).beginJob⟩ := if_pos hadmits
  unfold account beginJob
  rw [entry_on_shard]
  · split
    · rename_i hscope
      subst hscope
      rw [htable, Table.find_insert, if_pos rfl, Option.map_some,
        TriggerState.without_jobs_begin_job]
      exact congrArg some (c.snapshot_without_jobs other)
    · rfl
  · intro other hne
    rw [htable]
    exact (Table.find_insert _ _ _ _).trans (if_neg hne)

/-- The end of a job leaves all accounts as they are. -/
@[simp] theorem account_end_job : (c.endJob scope).account other = c.account other := by
  unfold account endJob
  rw [entry_on_shard]
  · split
    · rename_i hscope
      subst hscope
      show ((Table.modify _ _ _).find? other).map _ = _
      rw [Table.find_modify, if_pos rfl, Option.map_map]
      rfl
    · rfl
  · intro other hne
    exact (Table.find_modify _ _ _ _).trans (if_neg hne)

/-- A session is forgotten with all its scopes. -/
theorem account_forget (session : SessionKey) :
    (c.forget session).account other =
      if other.session = session then none else c.account other := by
  have hshard : (c.forget session).shard other = (c.shard other).forget session :=
    Vector.getElem_map _ _
  unfold account entry
  rw [hshard]
  show ((Table.filter _ _).find? other).map _ = _
  rw [Table.find_filter]
  by_cases hsession : other.session = session
  · simp [hsession]
  · simp [hsession]

/-- In the beginning nothing is known about any scope. -/
@[simp] theorem account_empty : ({} : TriggerCounters place).account scope = none := by
  unfold account entry shard
  rw [Fin.getElem_fin, Vector.getElem_replicate]
  rfl

end TriggerCounters

end Transcript
