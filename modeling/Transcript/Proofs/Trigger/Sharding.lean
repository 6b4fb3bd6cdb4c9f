import Mathlib.Algebra.BigOperators.Fin
import Mathlib.Algebra.Order.Group.Nat
import Transcript.Proofs.Trigger.Account

/-!
# One table for all scopes

Trigger counters are one table of all scopes, dealt out by a number that each scope has
(`TriggerTable.spread`). An operation on the one table and dealing out may change places
(`TriggerKeeper.step_spread`), and nobody who asks can tell the tables from the one
(`TriggerKeeper.answer_spread`), so whatever is done with the counters might have been done with one
table (`TriggerCounters.shards_act_as_one_table`).
-/

namespace Transcript

/-! ## What can be asked of trigger states -/

/-- Who keeps trigger states, by what can be done with them. -/
class TriggerKeeper (σ : Type) where
  empty : σ
  record : σ → Scope → Nat → Timestamp → σ
  reset : σ → Scope → Timestamp → σ
  beginJob : σ → Scope → Bool → σ
  endJob : σ → Scope → σ
  forget : σ → SessionKey → σ
  /-- The state of a scope. -/
  snapshot : σ → Scope → TriggerState
  /-- The number of scopes that are known of a session. -/
  forgotten : σ → SessionKey → Nat
  /-- The number of known scopes. -/
  size : σ → Nat

instance : TriggerKeeper TriggerTable where
  empty := {}
  record := TriggerTable.record
  reset := TriggerTable.reset
  beginJob := TriggerTable.beginJob
  endJob := TriggerTable.endJob
  forget := TriggerTable.forget
  snapshot := TriggerTable.snapshot
  forgotten := TriggerTable.forgotten
  size := TriggerTable.size

instance {place : Scope → Nat} : TriggerKeeper (TriggerCounters place) where
  empty := {}
  record := TriggerCounters.record
  reset := TriggerCounters.reset
  beginJob := TriggerCounters.beginJob
  endJob := TriggerCounters.endJob
  forget := TriggerCounters.forget
  snapshot := TriggerCounters.snapshot
  forgotten := TriggerCounters.forgotten
  size := TriggerCounters.size

/-- A request to a keeper of trigger states. -/
inductive TriggerCall where
  /-- An event has happened in a scope. -/
  | record (scope : Scope) (tokens : Nat) (time : Timestamp)
  /-- There was an attempt to sum a scope up. -/
  | reset (scope : Scope) (now : Timestamp)
  /-- A job of a scope wants to start. -/
  | beginJob (scope : Scope) (exclusive : Bool)
  /-- A job of a scope has ended. -/
  | endJob (scope : Scope)
  /-- A session is over. -/
  | forget (session : SessionKey)
  /-- Somebody wants to know the state of a scope. -/
  | snapshot (scope : Scope)

/-- The scope that a request is about, if it is about one. -/
def TriggerCall.scope? : TriggerCall → Option Scope
  | .record scope _ _ | .reset scope _ | .beginJob scope _ | .endJob scope | .snapshot scope =>
      some scope
  | .forget _ => none

/-- The answer to a request. -/
inductive TriggerAnswer where
  /-- The state of the scope. -/
  | state (s : TriggerState)
  /-- Whether the job may start. -/
  | admitted (yes : Bool)
  /-- How many scopes are known no longer. -/
  | removed (scopes : Nat)
  /-- The request is done. -/
  | done
deriving DecidableEq

namespace TriggerKeeper

variable {σ : Type} [TriggerKeeper σ]

/-- The keeper after a request. -/
def step (s : σ) : TriggerCall → σ
  | .record scope tokens time => record s scope tokens time
  | .reset scope now => reset s scope now
  | .beginJob scope exclusive => beginJob s scope exclusive
  | .endJob scope => endJob s scope
  | .forget session => forget s session
  | .snapshot _ => s

/-- The answer of the keeper to a request. An event is answered with the state after it. -/
def answer (s : σ) : TriggerCall → TriggerAnswer
  | .record scope tokens time => .state (snapshot (record s scope tokens time) scope)
  | .beginJob scope exclusive => .admitted ((snapshot s scope).admits exclusive)
  | .forget session => .removed (forgotten s session)
  | .snapshot scope => .state (snapshot s scope)
  | .reset _ _ | .endJob _ => .done

/-- The keeper after some requests. -/
def after (s : σ) (calls : List TriggerCall) : σ := calls.foldl step s

theorem after_cons (s : σ) (call : TriggerCall) (calls : List TriggerCall) :
    after s (call :: calls) = after (step s call) calls := rfl

/-- The answers to some requests, each with the number of scopes that are known after it. -/
def answers (s : σ) : List TriggerCall → List (TriggerAnswer × Nat)
  | [] => []
  | call :: calls => (answer s call, size (step s call)) :: answers (step s call) calls

end TriggerKeeper

/-! ## Dealing out -/

/-- The sum over a list that is given place by place. -/
theorem sum_over_of_fn {α : Type} {n : Nat} (f : α → Nat) (g : Fin n → α) :
    sumOver f (List.ofFn g) = ∑ i, f (g i) := by
  induction n with
  | zero => rfl
  | succ n ih => rw [List.ofFn_succ, sumOver, ih, Fin.sum_univ_succ]

/-- What is dealt out to parts is in one of them. -/
theorem sum_length_filter {α : Type} {n : Nat} (part : α → Fin n) (xs : List α) :
    ∑ i, (xs.filter fun x => part x = i).length = xs.length := by
  induction xs with
  | nil => simp
  | cons x xs ih =>
      have hstep (i : Fin n) : ((x :: xs).filter fun x => part x = i).length =
          (xs.filter fun x => part x = i).length + if part x = i then 1 else 0 := by
        rw [List.filter_cons]
        split <;> simp_all
      rw [Finset.sum_congr rfl fun i _ => hstep i, Finset.sum_add_distrib, ih, List.length_cons]
      simp

namespace TriggerTable

variable (place : Scope → Nat) (t : TriggerTable)

/-- The part of the table that has the number `i`. -/
def part (t : TriggerTable) (i : Fin shardCount) : TriggerTable :=
  ⟨t.states.filter fun scope => TriggerCounters.shardOf place scope = i⟩

/-- The table, dealt out to the tables of trigger counters. -/
def spread (t : TriggerTable) : TriggerCounters place := ⟨.ofFn (t.part place)⟩

variable (scope : Scope) (i : Fin shardCount)

/-- A scope is found in the part that it falls to, and in no other. -/
theorem find_part :
    (t.part place i).states.find? scope =
      if TriggerCounters.shardOf place scope = i then t.states.find? scope else none := by
  unfold part
  rw [Table.find_filter]
  simp

/-- The part that a scope belongs to knows as much about it as the table. -/
theorem snapshot_part :
    (t.part place (TriggerCounters.shardOf place scope)).snapshot scope = t.snapshot scope := by
  unfold snapshot
  rw [find_part, if_pos rfl]

/-- An operation on one scope is one on the part that the scope belongs to. -/
theorem part_insert (s : TriggerState) :
    TriggerTable.part place ⟨t.states.insert scope s⟩ i =
      if TriggerCounters.shardOf place scope = i then ⟨(t.part place i).states.insert scope s⟩
      else t.part place i := by
  unfold part
  rw [Table.filter_insert]
  by_cases hi : TriggerCounters.shardOf place scope = i <;> simp [hi]

/-- What is changed about a scope is changed in its part. -/
theorem part_modify (f : TriggerState → TriggerState) :
    TriggerTable.part place ⟨t.states.modify scope f⟩ i =
      if TriggerCounters.shardOf place scope = i then ⟨(t.part place i).states.modify scope f⟩
      else t.part place i := by
  have hpart : TriggerTable.part place ⟨t.states.modify scope f⟩ i =
      ⟨(t.part place i).states.modify scope f⟩ := by
    unfold part
    rw [Table.filter_modify]
  rw [hpart]
  split
  · rfl
  · -- The part does not have the scope, so nothing is changed in it.
    rename_i hi
    have habsent : (t.part place i).states.contains scope = false := by
      unfold part
      rw [Table.contains_filter]
      simp [hi]
    rw [Table.modify_eq_self habsent]

/-- Each part forgets a session on its own. -/
theorem part_forget (session : SessionKey) :
    (t.forget session).part place i = (t.part place i).forget session := by
  unfold forget part
  rw [Table.filter_comm]

/-- The parts have all the scopes of the table. -/
theorem sum_size_part : ∑ i, (t.part place i).size = t.size := by
  have hsize (i : Fin shardCount) : (t.part place i).size =
      (t.states.entries.filter fun e => TriggerCounters.shardOf place e.1 = i).length := rfl
  rw [Finset.sum_congr rfl fun i _ => hsize i, sum_length_filter]
  rfl

/-- No scope comes to be known when a session is forgotten. -/
theorem size_forget_le (session : SessionKey) : (t.forget session).size ≤ t.size :=
  List.length_filter_le _ _

/-! ## The tables of the counters -/

/-- A table that is dealt out has its parts as tables. -/
theorem shards_spread : (t.spread place).shards[i] = t.part place i :=
  Vector.getElem_ofFn _

/-- A scope falls to one of them. -/
@[simp] theorem shard_spread :
    (t.spread place).shard scope = t.part place (TriggerCounters.shardOf place scope) :=
  t.shards_spread place _

/-- The state of a scope is the same when the table is dealt out. -/
@[simp] theorem snapshot_spread : (t.spread place).snapshot scope = t.snapshot scope := by
  unfold TriggerCounters.snapshot
  rw [shard_spread, snapshot_part]

/-- So is the entry of a scope. -/
@[simp] theorem entry_spread : (t.spread place).entry scope = t.states.find? scope := by
  unfold TriggerCounters.entry
  rw [shard_spread, find_part, if_pos rfl]

/-- Without entries all tables are empty. -/
theorem spread_empty : ({} : TriggerTable).spread place = {} := by
  refine congrArg TriggerCounters.mk (Vector.ext fun i hi => ?_)
  rw [Vector.getElem_ofFn, Vector.getElem_replicate]
  rfl

/-- So is the number of scopes. -/
@[simp] theorem size_spread : (t.spread place).size = t.size := by
  unfold TriggerCounters.size spread
  rw [Vector.toList_ofFn, sum_over_of_fn, sum_size_part]

/-- So is the number of scopes that are known of a session. -/
@[simp] theorem forgotten_spread (session : SessionKey) :
    (t.spread place).forgotten session = t.forgotten session := by
  unfold TriggerCounters.forgotten spread
  rw [Vector.toList_ofFn, sum_over_of_fn]
  unfold forgotten
  rw [Finset.sum_tsub_distrib _ fun i _ => size_forget_le _ session, sum_size_part]
  simp only [← part_forget, sum_size_part]

/-- An operation on one scope of the table is one on the table of the counters that has the
scope. -/
theorem spread_on_shard {f : TriggerTable → TriggerTable} {t' : TriggerTable}
    (hf : ∀ i, t'.part place i =
      if TriggerCounters.shardOf place scope = i then f (t.part place i) else t.part place i) :
    (t.spread place).onShard scope f = t'.spread place := by
  unfold TriggerCounters.onShard
  rw [shard_spread]
  refine congrArg TriggerCounters.mk (Vector.ext fun i hi => ?_)
  unfold spread
  rw [Vector.getElem_set, Vector.getElem_ofFn, Vector.getElem_ofFn, hf]
  by_cases hscope : TriggerCounters.shardOf place scope = ⟨i, hi⟩
  · rw [if_pos hscope, if_pos (congrArg Fin.val hscope), hscope]
  · have hne : (TriggerCounters.shardOf place scope).val ≠ i := fun h => hscope (Fin.ext h)
    rw [if_neg hscope, if_neg hne]

/-! ## Operations -/

/-- Events may be counted before or after the table is dealt out. -/
theorem spread_record (tokens : Nat) (time : Timestamp) :
    (t.spread place).record scope tokens time = (t.record scope tokens time).spread place := by
  unfold TriggerCounters.record
  refine t.spread_on_shard place scope fun i => ?_
  unfold record
  rw [part_insert]
  split
  · rename_i hi
    rw [← hi, snapshot_part]
  · rfl

/-- So it is with attempts to sum up. -/
theorem spread_reset (now : Timestamp) :
    (t.spread place).reset scope now = (t.reset scope now).spread place := by
  unfold TriggerCounters.reset
  exact t.spread_on_shard place scope fun i => t.part_modify place scope i _

/-- So it is with jobs that want to start. -/
theorem spread_begin_job (exclusive : Bool) :
    (t.spread place).beginJob scope exclusive = (t.beginJob scope exclusive).spread place := by
  unfold TriggerCounters.beginJob
  refine t.spread_on_shard place scope fun i => ?_
  by_cases hi : TriggerCounters.shardOf place scope = i
  · subst hi
    unfold beginJob
    rw [if_pos rfl, snapshot_part]
    split
    · rw [part_insert, if_pos rfl]
    · rfl
  · unfold beginJob
    rw [if_neg hi]
    split
    · rw [part_insert, if_neg hi]
    · rfl

/-- So it is with jobs that have ended. -/
theorem spread_end_job : (t.spread place).endJob scope = (t.endJob scope).spread place := by
  unfold TriggerCounters.endJob
  exact t.spread_on_shard place scope fun i => t.part_modify place scope i _

/-- So it is with sessions that are over. -/
theorem spread_forget (session : SessionKey) :
    (t.spread place).forget session = (t.forget session).spread place := by
  unfold TriggerCounters.forget spread
  refine congrArg TriggerCounters.mk (Vector.ext fun i hi => ?_)
  simp only [Vector.getElem_map, Vector.getElem_ofFn, part_forget]

end TriggerTable

namespace TriggerKeeper

open TriggerTable

variable (place : Scope → Nat) (t : TriggerTable)

/-- To deal a table out and to do something with it may change places. -/
theorem step_spread (call : TriggerCall) :
    step (t.spread place) call = (step t call).spread place := by
  cases call with
  | record scope tokens time => exact t.spread_record place scope tokens time
  | reset scope now => exact t.spread_reset place scope now
  | beginJob scope exclusive => exact t.spread_begin_job place scope exclusive
  | endJob scope => exact t.spread_end_job place scope
  | forget session => exact t.spread_forget place session
  | snapshot scope => rfl

/-- Nobody who asks can tell whether the table has been dealt out. -/
theorem answer_spread (call : TriggerCall) : answer (t.spread place) call = answer t call := by
  cases call with
  | record scope tokens time =>
      show TriggerAnswer.state (((t.spread place).record scope tokens time).snapshot scope) =
        .state ((t.record scope tokens time).snapshot scope)
      rw [spread_record, snapshot_spread]
  | beginJob scope exclusive =>
      show TriggerAnswer.admitted (((t.spread place).snapshot scope).admits exclusive) =
        .admitted ((t.snapshot scope).admits exclusive)
      rw [snapshot_spread]
  | forget session =>
      show TriggerAnswer.removed ((t.spread place).forgotten session) =
        .removed (t.forgotten session)
      rw [forgotten_spread]
  | snapshot scope =>
      show TriggerAnswer.state ((t.spread place).snapshot scope) = .state (t.snapshot scope)
      rw [snapshot_spread]
  | reset scope now => rfl
  | endJob scope => rfl

/-- The same holds for any requests after each other. -/
theorem after_spread (calls : List TriggerCall) :
    after (t.spread place) calls = (after t calls).spread place := by
  induction calls generalizing t with
  | nil => rfl
  | cons call calls ih =>
      rw [after_cons, after_cons, step_spread, ih]

/-- Nor can anybody tell by the answers to some requests. -/
theorem answers_spread (calls : List TriggerCall) :
    answers (t.spread place) calls = answers t calls := by
  induction calls generalizing t with
  | nil => rfl
  | cons call calls ih =>
      have hsize : size ((step t call).spread place) = size (step t call) := size_spread place _
      rw [answers, answers, answer_spread, step_spread, ih, hsize]

end TriggerKeeper

/-! ## Other scopes -/

open TriggerKeeper

variable {call : TriggerCall} {scope other : Scope}

/-- A request about one scope leaves what a table knows about the others. -/
theorem TriggerTable.find_step (t : TriggerTable) (hcall : call.scope? = some scope)
    (hother : other ≠ scope) : (step t call).states.find? other = t.states.find? other := by
  cases call with
  | record s tokens time =>
      obtain rfl : s = scope := Option.some.inj hcall
      exact (Table.find_insert _ _ _ _).trans (if_neg hother)
  | reset s now | endJob s =>
      obtain rfl : s = scope := Option.some.inj hcall
      exact (Table.find_modify _ _ _ _).trans (if_neg hother)
  | beginJob s exclusive =>
      obtain rfl : s = scope := Option.some.inj hcall
      show (t.beginJob s exclusive).states.find? other = _
      unfold TriggerTable.beginJob
      split
      · exact (Table.find_insert _ _ _ _).trans (if_neg hother)
      · rfl
  | forget session => cases hcall
  | snapshot s => rfl

namespace TriggerCounters

variable {place : Scope → Nat} (c : TriggerCounters place)

/-- And so it does among many tables. -/
theorem entry_step (hcall : call.scope? = some scope) (hother : other ≠ scope) :
    (step c call).entry other = c.entry other := by
  -- Every operation on a scope is one on the table of the scope.
  have htable {call : TriggerCall} (hcall : call.scope? = some scope) :
      (c.onShard scope (step · call)).entry other = c.entry other :=
    (c.entry_on_shard scope other fun _ h => (c.shard scope).find_step hcall h).trans
      (if_neg hother)
  cases call with
  | record s tokens time | reset s now | endJob s | beginJob s exclusive =>
      obtain rfl : s = scope := Option.some.inj hcall
      have hstep := htable hcall
      exact hstep
  | forget session => cases hcall
  | snapshot s => rfl

/-- A session is forgotten in every table, wherever its scopes are, and no other scope with it. -/
theorem find_forget (session : SessionKey) (i : Fin shardCount) (scope : Scope) :
    (c.forget session).shards[i].states.find? scope =
      if scope.session = session then none else c.shards[i].states.find? scope := by
  have hshard : (c.forget session).shards[i] = c.shards[i].forget session := Vector.getElem_map _ _
  rw [hshard, TriggerTable.forget, Table.find_filter]
  by_cases hsession : scope.session = session <;> simp [hsession]

/-- Whatever number the scopes are given, and whatever is done with trigger counters, they act as
one table of all scopes. Every request has the same answer and leaves as many known scopes as there,
and in the end they say the same about every scope and every session. A request about one scope
leaves what is known about the others, and to forget a session is to take its scopes, and only
those, out of every table that has one. -/
theorem shards_act_as_one_table (place : Scope → Nat) (calls : List TriggerCall) :
    let c : TriggerCounters place := after empty calls
    let t : TriggerTable := after empty calls
    answers (empty : TriggerCounters place) calls = answers (empty : TriggerTable) calls ∧
      c.size = t.size ∧
      (∀ scope, c.snapshot scope = t.snapshot scope ∧ c.entry scope = t.states.find? scope) ∧
      (∀ session, c.forgotten session = t.forgotten session) ∧
      (∀ call scope other, call.scope? = some scope → other ≠ scope →
        (step c call).entry other = c.entry other) ∧
      ∀ session (i : Fin shardCount) scope,
        (c.forget session).shards[i].states.find? scope =
          if scope.session = session then none else c.shards[i].states.find? scope := by
  intro c t
  have hempty : (empty : TriggerCounters place) = (empty : TriggerTable).spread place :=
    (TriggerTable.spread_empty place).symm
  have hc : c = t.spread place :=
    (congrArg (after · calls) hempty).trans (after_spread place _ calls)
  refine ⟨?_, ?_, fun scope => ⟨?_, ?_⟩, fun session => ?_, ?_, c.find_forget⟩
  · rw [hempty, answers_spread]
  · rw [hc, TriggerTable.size_spread]
  · rw [hc, TriggerTable.snapshot_spread]
  · rw [hc, TriggerTable.entry_spread]
  · rw [hc, TriggerTable.forgotten_spread]
  · exact fun call scope other hcall hother => c.entry_step hcall hother

end TriggerCounters

end Transcript
