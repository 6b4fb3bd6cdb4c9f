import Transcript.Summary.Basic
import Transcript.Table

/-!
# A store in memory

A `MemoryStore` keeps one summary for each scope, and never fails.
-/

namespace Transcript

/-- The latest summary of each scope. -/
structure MemoryStore where
  /-- The summaries. -/
  summaries : Table Scope Summary := ∅

namespace MemoryStore

/-- The number of summaries. -/
def size (s : MemoryStore) : Nat := s.summaries.size

instance : SummaryStore MemoryStore where
  load s scope := .ok (s.summaries.find? scope)
  store s scope summary := (.ok (), ⟨s.summaries.insert scope summary⟩)

end MemoryStore

end Transcript
