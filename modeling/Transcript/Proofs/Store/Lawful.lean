import Transcript.Proofs.Table
import Transcript.Store.Memory

/-!
# Stores that keep one summary for each scope

A `LawfulStore` tells what it keeps when it can be asked at all, and a call to store a summary
changes nothing but the one scope it is for. Whether a call that fails has had its effect is left
open, so stores over a network are lawful as well. In an `AtomicStore` it has none.
-/

namespace Transcript

/-- What can be relied on in a store that keeps one summary for each scope, its `content`. What is
loaded is what is kept. A call to store a summary leaves its scope as it is or replaces what was
kept, and changes no other scope. -/
class LawfulStore (σ : Type) [SummaryStore σ] where
  content : σ → Scope → Option Summary
  load_ok : ∀ {s : σ} {scope : Scope} {found : Option Summary},
    SummaryStore.load s scope = .ok found → content s scope = found
  content_store : ∀ (s : σ) (scope : Scope) (summary : Summary),
    content (SummaryStore.store s scope summary).2 scope = content s scope ∨
      content (SummaryStore.store s scope summary).2 scope = some summary
  content_store_of_ne : ∀ (s : σ) {scope other : Scope} (summary : Summary), other ≠ scope →
    content (SummaryStore.store s scope summary).2 other = content s other

/-- What can be relied on if a call to store a summary has its whole effect or fails without any. -/
class AtomicStore (σ : Type) [SummaryStore σ] extends LawfulStore σ where
  content_store_ok : ∀ {s s' : σ} {scope : Scope} {summary : Summary},
    SummaryStore.store s scope summary = (.ok (), s') → content s' scope = some summary
  content_store_error : ∀ {s s' : σ} {scope : Scope} {summary : Summary} {f : Failure},
    SummaryStore.store s scope summary = (.error f, s') → content s' scope = content s scope

/-- A call that fails changes no scope. -/
theorem AtomicStore.content_eq_of_error {σ : Type} [SummaryStore σ] [AtomicStore σ] {s s' : σ}
    {scope : Scope} {summary : Summary} {f : Failure}
    (h : SummaryStore.store s scope summary = (.error f, s')) (other : Scope) :
    LawfulStore.content s' other = LawfulStore.content s other := by
  by_cases hscope : other = scope
  · rw [hscope]
    exact content_store_error h
  · have hother := LawfulStore.content_store_of_ne s summary hscope
    rwa [h] at hother

/-- The store in memory keeps what was stored last. -/
instance : LawfulStore MemoryStore where
  content s scope := s.summaries.find? scope
  load_ok h := Except.ok.inj h
  content_store s scope summary := by
    right
    show (s.summaries.insert scope summary).find? scope = some summary
    rw [Table.find_insert, if_pos rfl]
  content_store_of_ne s scope other summary hne := by
    show (s.summaries.insert scope summary).find? other = s.summaries.find? other
    rw [Table.find_insert, if_neg hne]

/-- It never fails. -/
instance : AtomicStore MemoryStore where
  content_store_ok h := by
    obtain ⟨-, rfl⟩ := Prod.mk.inj h
    show (Table.insert _ _ _).find? _ = _
    rw [Table.find_insert, if_pos rfl]
  content_store_error h := nomatch congrArg Prod.fst h

end Transcript
