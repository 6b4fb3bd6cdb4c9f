import Mathlib.Data.List.Basic
import Transcript.Tailoring.Strategy
import Transcript.Tokens

/-!
# What rows of messages cost

The costs of the first messages say what every row in between costs. `prefix_sums_get` reads them
off, and `cost_between_eq` is what a strategy makes of them.
-/

namespace Transcript

namespace TokenCounter

variable (cost : TokenCounter)

/-- No messages cost nothing. -/
@[simp] theorem total_nil : total cost [] = 0 := rfl

/-- The cost of two lists, one behind the other, is the sum of their costs. -/
@[simp] theorem total_append (xs ys : List Message) :
    total cost (xs ++ ys) = total cost xs + total cost ys :=
  sum_over_append cost xs ys

/-- A longer row costs no less. -/
theorem total_le_of_prefix {xs ys : List Message} (h : xs <+: ys) :
    total cost xs ≤ total cost ys := by
  obtain ⟨rest, rfl⟩ := h
  rw [total_append]
  exact Nat.le_add_right _ _

/-- A row that reaches further back costs no less. -/
theorem total_le_of_suffix {xs ys : List Message} (h : xs <:+ ys) :
    total cost xs ≤ total cost ys := by
  obtain ⟨rest, rfl⟩ := h
  rw [total_append]
  exact Nat.le_add_left _ _

/-- The cost of a row between two positions is what the later sum has more than the earlier. -/
theorem total_between (messages : List Message) {start stop : Nat} (h : start ≤ stop) :
    total cost (messages.take stop) =
      total cost (messages.take start) + total cost ((messages.take stop).drop start) := by
  have hsplit := List.take_append_drop start (messages.take stop)
  rw [List.take_take, Nat.min_eq_left h] at hsplit
  rw [← total_append, hsplit]

/-- Each sum is the cost of the messages up to its place, with what comes before. -/
theorem prefix_sums_go_get (before i : Nat) (messages : List Message) (h : i ≤ messages.length) :
    (prefixSums.go cost before messages)[i]? =
      some (before + total cost (messages.take i)) := by
  induction messages generalizing before i with
  | nil =>
      obtain rfl : i = 0 := by simpa using h
      simp [prefixSums.go]
  | cons m ms ih =>
      cases i with
      | zero => simp [prefixSums.go]
      | succ i =>
          have hlen : i ≤ ms.length := by simpa using h
          show (prefixSums.go cost (before + cost m) ms)[i]? = _
          rw [ih (before + cost m) i hlen, List.take_succ_cons]
          simp [total, sumOver, Nat.add_assoc]

/-- The sums hold the costs of the first messages. -/
theorem prefix_sums_get {messages : List Message} {i : Nat} (h : i ≤ messages.length) :
    (cost.prefixSums messages)[i]? = some (total cost (messages.take i)) := by
  rw [prefixSums, prefix_sums_go_get cost 0 i messages h, Nat.zero_add]

end TokenCounter

namespace Strategy

open TokenCounter

variable (cost : TokenCounter)

/-- The difference of two sums is the cost of the messages between. -/
theorem cost_between_eq {messages : List Message} {start stop : Nat} (hle : start ≤ stop)
    (hstop : stop ≤ messages.length) :
    costBetween (cost.prefixSums messages) start stop =
      total cost ((messages.take stop).drop start) := by
  have hstart : start ≤ messages.length := Nat.le_trans hle hstop
  unfold costBetween
  rw [List.getD_eq_getElem?_getD, List.getD_eq_getElem?_getD, prefix_sums_get cost hstart,
    prefix_sums_get cost hstop, Option.getD_some, Option.getD_some, total_between cost messages hle]
  omega

end Strategy

end Transcript
