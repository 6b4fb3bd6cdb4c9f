import Mathlib.Data.Nat.Find
import Transcript.Arithmetic

/-!
# What bisection finds

Bisection asks about few numbers, but what it finds is what a search that tries one number after
another would find. For a property that fails below a point and holds from there on, that is
`first_true_eq`, beside the definition. Here the same is stated for a property that stops to hold,
which is how the largest number of messages is found that a budget takes.
-/

namespace Transcript

/-- The largest of the first numbers with a property is where the property stops to hold, if it
holds of every number below one that has it. -/
theorem find_greatest_iff {p : Nat → Prop} [DecidablePred p] {n : Nat} (hzero : p 0)
    (hmono : ∀ i j, i ≤ j → j ≤ n → p j → p i) {i : Nat} (hi : i ≤ n) :
    i ≤ Nat.findGreatest p n ↔ p i := by
  constructor
  · intro hle
    exact hmono i _ hle (Nat.findGreatest_le n) (Nat.findGreatest_spec (Nat.zero_le n) hzero)
  · intro h
    exact Nat.le_findGreatest hi h

/-- Bisection for the first number whose successor lacks the property finds the last number that
has it. -/
theorem first_true_eq_find_greatest (start n : Nat) {p : Nat → Prop} [DecidablePred p]
    (hzero : p 0) (hmono : ∀ i j, i ≤ j → j ≤ n → p j → p i) {q : Nat → Bool}
    (hq : ∀ i, i < n → (q (start + i) = true ↔ ¬ p (i + 1))) :
    firstTrue start (start + n) q = start + Nat.findGreatest p n := by
  have hle : Nat.findGreatest p n ≤ n := Nat.findGreatest_le n
  refine first_true_eq (Nat.le_add_right _ _) (Nat.add_le_add_left hle _) ?_ ?_
  · intro i hi hlt
    obtain ⟨j, rfl⟩ := Nat.exists_eq_add_of_le hi
    have hp : p (j + 1) := (find_greatest_iff hzero hmono (by omega)).1 (by omega)
    rw [← Bool.not_eq_true, hq j (by omega)]
    exact not_not_intro hp
  · intro i hi hlt
    obtain ⟨j, rfl⟩ := Nat.exists_eq_add_of_le (Nat.le_trans (Nat.le_add_right _ _) hi)
    rw [hq j (by omega)]
    intro hp
    have hfound := (find_greatest_iff hzero hmono (by omega)).2 hp
    omega

end Transcript
