import Transcript.Proofs.Table
import Transcript.Store.Memory

/-!
# Calls of a store

What a sequence of calls is answered by any store, and what it stores there: the calls that are
answered by a failure store nothing. The store in memory answers every call by what was stored last
(`MemoryStore.load_after_calls`).
-/

namespace Transcript

/-- A call of a store. -/
inductive StoreCall where
  /-- The summary of a scope is asked for. -/
  | load (scope : Scope)
  /-- The summary of a scope is replaced. -/
  | store (scope : Scope) (summary : Summary)

namespace StoreCall

/-- The scope that a call is for. -/
def scope : StoreCall → Scope
  | .load scope => scope
  | .store scope _ => scope

/-- What a call is answered. -/
inductive Answer where
  /-- What was found, or why it could not be looked for. -/
  | loaded (found : Except Failure (Option Summary))
  /-- That a summary is stored, or why it is not. -/
  | stored (done : Except Failure Unit)

section

variable {σ : Type} [SummaryStore σ]

/-- What a store answers. -/
def answer (s : σ) : StoreCall → Answer
  | .load scope => .loaded (SummaryStore.load s scope)
  | .store scope summary => .stored (SummaryStore.store s scope summary).1

/-- The store after a call. -/
def after (s : σ) : StoreCall → σ
  | .load _ => s
  | .store scope summary => (SummaryStore.store s scope summary).2

/-- The store after calls. -/
def afterAll (s : σ) (calls : List StoreCall) : σ := calls.foldl after s

/-- What a call stores, which is nothing if it fails. -/
def kept (s : σ) : StoreCall → List (Scope × Summary)
  | .load _ => []
  | .store scope summary =>
    match (SummaryStore.store s scope summary).1 with
    | .ok () => [(scope, summary)]
    | .error _ => []

/-- What calls store, in order. -/
def keptAll (s : σ) : List StoreCall → List (Scope × Summary)
  | [] => []
  | call :: calls => call.kept s ++ keptAll (call.after s) calls

/-- Only what a call is to store is stored. -/
theorem mem_kept {s : σ} {call : StoreCall} {entry : Scope × Summary} (h : entry ∈ call.kept s) :
    call = .store entry.1 entry.2 := by
  cases call with
  | load scope => exact absurd h List.not_mem_nil
  | store scope summary =>
      simp only [kept] at h
      split at h
      · rw [List.mem_singleton.1 h]
      · exact absurd h List.not_mem_nil

/-- Only what the calls are to store is stored. -/
theorem mem_kept_all {s : σ} {calls : List StoreCall} {entry : Scope × Summary}
    (h : entry ∈ keptAll s calls) : .store entry.1 entry.2 ∈ calls := by
  induction calls generalizing s with
  | nil => exact absurd h List.not_mem_nil
  | cons call calls ih =>
      rcases List.mem_append.1 h with hcall | hcalls
      · exact mem_kept hcall ▸ List.mem_cons_self
      · exact List.mem_cons_of_mem _ (ih hcalls)

end

end StoreCall

/-! ## The last summary -/

/-- The last summary that was stored for a scope of some kind. -/
def lastWhere (p : Scope → Bool) (entries : List (Scope × Summary)) : Option Summary :=
  (entries.filter fun entry => p entry.1).getLast?.map Prod.snd

/-- The last summary that was stored for a scope. -/
def lastFor (scope : Scope) (entries : List (Scope × Summary)) : Option Summary :=
  lastWhere (fun other => other = scope) entries

section

variable {p q : Scope → Bool} {entries : List (Scope × Summary)} {summary : Summary}

/-- What was stored later comes first. -/
theorem last_where_append (p : Scope → Bool) (entries more : List (Scope × Summary)) :
    lastWhere p (entries ++ more) = (lastWhere p more).or (lastWhere p entries) := by
  rw [lastWhere, List.filter_append, List.getLast?_append, Option.map_or, lastWhere, lastWhere]

/-- The same for a single scope. -/
theorem last_for_append (scope : Scope) (entries more : List (Scope × Summary)) :
    lastFor scope (entries ++ more) = (lastFor scope more).or (lastFor scope entries) :=
  last_where_append _ entries more

/-- It only matters which of the scopes are of the kind. -/
theorem last_where_congr (h : ∀ entry ∈ entries, p entry.1 = q entry.1) :
    lastWhere p entries = lastWhere q entries := by
  rw [lastWhere, lastWhere, List.filter_congr h]

/-- The last summary that was stored was stored for some scope of the kind. -/
theorem exists_of_last_where (h : lastWhere p entries = some summary) :
    ∃ scope, (scope, summary) ∈ entries ∧ p scope = true := by
  obtain ⟨entry, hlast, rfl⟩ := Option.map_eq_some_iff.1 h
  obtain ⟨hmem, hp⟩ := List.mem_filter.1 (List.mem_of_getLast? hlast)
  exact ⟨entry.1, hmem, hp⟩

/-- There is none if nothing was stored for a scope of the kind. -/
theorem last_where_eq_none_iff :
    lastWhere p entries = none ↔ ∀ entry ∈ entries, p entry.1 = false := by
  simp [lastWhere]

end

/-! ## The store in memory -/

namespace MemoryStore

open StoreCall

/-- After calls the store in memory has what was stored last, or else what it had. -/
theorem find_after_all (s : MemoryStore) (calls : List StoreCall) (scope : Scope) :
    (afterAll s calls).summaries.find? scope =
      (lastFor scope (keptAll s calls)).or (s.summaries.find? scope) := by
  induction calls generalizing s with
  | nil => rfl
  | cons call calls ih =>
      show (afterAll (call.after s) calls).summaries.find? scope = _
      -- The later calls go first, and then this one.
      rw [ih, keptAll, last_for_append, Option.or_assoc]
      congr 1
      cases call with
      | load other => rfl
      | store other summary =>
          show (s.summaries.insert other summary).find? scope = _
          rw [Table.find_insert]
          by_cases h : scope = other
          · simp [h, lastFor, lastWhere, kept, SummaryStore.store]
          · simp [h, Ne.symm h, lastFor, lastWhere, kept, SummaryStore.store]

/-- So it finds what was stored last. -/
theorem load_after_calls (calls : List StoreCall) (scope : Scope) :
    SummaryStore.load (afterAll ({} : MemoryStore) calls) scope =
      .ok (lastFor scope (keptAll ({} : MemoryStore) calls)) := by
  show Except.ok ((afterAll ({} : MemoryStore) calls).summaries.find? scope) = _
  rw [find_after_all]
  exact congrArg Except.ok (Option.or_none ..)

end MemoryStore

end Transcript
