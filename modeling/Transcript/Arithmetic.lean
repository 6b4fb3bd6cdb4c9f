/-!
# Sums and bisection

`sumOver f xs` adds up what `f` says of the elements of `xs`. `firstTrue` searches for the place
where a property starts to hold, by halving what is left. It asks about few numbers, but what it
finds is what a search that tries one number after another would find: where the property fails
below a point and holds from there on, the point is found (`first_true_eq`).
-/

namespace Transcript

/-! ## Sums -/

section Sums

variable {α : Type}

/-- The sum of what a function says of the elements. -/
def sumOver (f : α → Nat) : List α → Nat
  | [] => 0
  | x :: xs => f x + sumOver f xs

/-- The sum over two lists, one behind the other, is the sum of their sums. -/
theorem sum_over_append (f : α → Nat) (xs ys : List α) :
    sumOver f (xs ++ ys) = sumOver f xs + sumOver f ys := by
  induction xs with
  | nil => simp [sumOver]
  | cons x xs ih => simp [sumOver, ih, Nat.add_assoc]

end Sums

/-! ## Bisection -/

/--
The least number from `lo` to `hi` that has the property. It is taken for granted that `hi` has it,
and that a number that follows one with the property has it as well.
-/
def firstTrue (lo hi : Nat) (p : Nat → Bool) : Nat :=
  if lo < hi then
    let mid := lo + (hi - lo) / 2
    if p mid then firstTrue lo mid p else firstTrue (mid + 1) hi p
  else lo
termination_by hi - lo

/-- Bisection finds the point from which on the property holds. -/
theorem first_true_eq {lo hi point : Nat} {p : Nat → Bool} (hlo : lo ≤ point) (hhi : point ≤ hi)
    (hbelow : ∀ i, lo ≤ i → i < point → p i = false)
    (habove : ∀ i, point ≤ i → i < hi → p i = true) : firstTrue lo hi p = point := by
  fun_induction firstTrue lo hi p with
  | case1 lo hi hlt mid hmid ih =>
      have hle : point ≤ mid := by
        refine Nat.le_of_not_lt fun hgt => ?_
        rw [hbelow mid (by omega) (by omega)] at hmid
        exact Bool.noConfusion hmid
      exact ih hlo hle hbelow fun i hi hlt => habove i hi (by omega)
  | case2 lo hi hlt mid hmid ih =>
      have hgt : mid < point :=
        Nat.lt_of_not_le fun hle => hmid (habove mid (by omega) (by omega))
      exact ih hgt hhi (fun i hi hlt => hbelow i (by omega) hlt) habove
  | case3 lo hi hge => omega

end Transcript
