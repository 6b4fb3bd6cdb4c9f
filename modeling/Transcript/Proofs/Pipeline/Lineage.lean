import Transcript.Proofs.Pipeline.Chronicle

/-!
# The batches behind a summary

A job goes on from the summary that it has loaded, which goes on from another one, and so forth,
back to what was stored before the pipeline was set up. The batches along this chain are the
`Lineage` of a summary. Their boundaries grow from the first batch to the last, without a gap:
`Lineage.exists_covering` finds a batch for every number that has come to be covered.
-/

namespace Transcript

/-- The batches lead from what was stored at first up to the summary, each of them from the summary
that its job had loaded. It takes no batches to stay with what was stored at first. -/
inductive Lineage (base : Option Summary) (rendered : List Batch) (scope : Scope) :
    Option Summary → List Batch → Prop where
  | start : Lineage base rendered scope base []
  | next {s : Summary} {b : Batch} {earlier : List Batch} (hb : b ∈ rendered)
      (hscope : b.scope = scope) (hboundary : s.coveredUntil = b.boundary)
      (hprevious : Lineage base rendered scope b.previous earlier) :
      Lineage base rendered scope (some s) (b :: earlier)

namespace Lineage

variable {base summary : Option Summary} {rendered rendered' batches : List Batch} {scope : Scope}

/-- Further prompts leave a lineage as it is. -/
theorem mono (h : Lineage base rendered scope summary batches) (hsub : rendered ⊆ rendered') :
    Lineage base rendered' scope summary batches := by
  induction h with
  | start => exact .start
  | next hb hscope hboundary _ ih => exact .next (hsub hb) hscope hboundary ih

/-- The batches were rendered for the scope. -/
theorem mem_rendered (h : Lineage base rendered scope summary batches) :
    ∀ b ∈ batches, b ∈ rendered ∧ b.scope = scope := by
  induction h with
  | start => simp
  | next hb hscope _ _ ih =>
      intro x hx
      rcases List.mem_cons.1 hx with rfl | hearlier
      · exact ⟨hb, hscope⟩
      · exact ih x hearlier

/-- No batch goes beyond the summary. -/
theorem boundary_le (h : Lineage base rendered scope summary batches)
    (hafter : ∀ b ∈ rendered, b.after < b.boundary) :
    ∀ b ∈ batches, b.boundary ≤ coverage summary := by
  induction h with
  | start => simp
  | @next s b earlier hb _ hboundary _ ih =>
      intro x hx
      rcases List.mem_cons.1 hx with rfl | hearlier
      · exact Nat.le_of_eq hboundary.symm
      · -- What came before ends where `b` begins.
        have hle : x.boundary ≤ b.after := ih x hearlier
        have hlt := hafter b hb
        show x.boundary ≤ s.coveredUntil
        omega

/-- The summary goes at least as far as what was stored at first. -/
theorem base_le (h : Lineage base rendered scope summary batches)
    (hafter : ∀ b ∈ rendered, b.after < b.boundary) : coverage base ≤ coverage summary := by
  induction h with
  | start => exact Nat.le_refl _
  | @next s b _ hb _ hboundary _ ih =>
      have hle : coverage base ≤ b.after := ih
      have hlt := hafter b hb
      show coverage base ≤ s.coveredUntil
      omega

/-- Every number that has come to be covered falls to one of the batches. -/
theorem exists_covering (h : Lineage base rendered scope summary batches) {id : Nat}
    (hbase : coverage base < id) (hle : id ≤ coverage summary) :
    ∃ b ∈ batches, b.after < id ∧ id ≤ b.boundary := by
  induction h with
  | start =>
      exact absurd hle (Nat.not_le.2 hbase)
  | @next s b earlier _ _ hboundary _ ih =>
      -- What the latest batch does not have was covered before it.
      by_cases hafter : b.after < id
      · exact ⟨b, List.mem_cons_self, hafter, hboundary ▸ hle⟩
      · obtain ⟨x, hx, hcover⟩ := ih (Nat.le_of_not_lt hafter)
        exact ⟨x, List.mem_cons_of_mem b hx, hcover⟩

end Lineage

/-! ## What is folded -/

/-- What is folded comes from one of the batches. -/
theorem mem_folded {e : Event} {batches : List Batch} :
    e ∈ folded batches ↔ ∃ b ∈ batches, e ∈ b.events := by
  induction batches with
  | nil => simp [folded]
  | cons b earlier ih =>
      rw [folded, List.mem_append, ih]
      simp only [List.mem_cons, exists_eq_or_imp]
      exact Or.comm

/-- If what is folded has no duplicates, every event comes from one batch only. -/
theorem count_batches_eq_one {batches : List Batch} (hnodup : (folded batches).Nodup) {e : Event}
    (he : e ∈ folded batches) : batches.countP (e ∈ ·.events) = 1 := by
  induction batches with
  | nil => simp [folded] at he
  | cons b earlier ih =>
      obtain ⟨hearlier, -, hdisjoint⟩ := List.nodup_append.1 hnodup
      rcases List.mem_append.1 he with hold | hnew
      · have hnot : e ∉ b.events := fun hb => hdisjoint e hold e hb rfl
        rw [List.countP_cons_of_neg (by simpa using hnot)]
        exact ih hearlier hold
      · have hnone : earlier.countP (e ∈ ·.events) = 0 := by
          rw [List.countP_eq_zero]
          intro x hx hmem
          exact hdisjoint e (mem_folded.2 ⟨x, hx, by simpa using hmem⟩) e hnew rfl
        rw [List.countP_cons_of_pos (by simpa using hnew), hnone]

end Transcript
