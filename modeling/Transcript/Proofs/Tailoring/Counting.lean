import Transcript.Proofs.Tailoring.Checked

/-!
# Counting ranges of messages

What a range of messages costs is told in two ways: by adding up the costs in the range, and by
subtracting two of the sums that tailoring goes by. `TokenCounter.counts_agree_with_sums` shows that
the two are the same wherever there is such a range, and that a range that is not there is refused.
The sums never decrease, so nothing is subtracted that is not there, and the last of them is the
estimate of all messages. In machine numbers no sum breaks its limit as long as that estimate does
not.
-/

namespace Transcript

namespace Checked

/-- The cost of a row of messages, added up from the front. -/
def total (limit : Nat) (cost : TokenCounter) (messages : List Message) : Option Nat :=
  (messages.map cost).foldlM (add limit) 0

/-- The cost of the messages from `start` up to `stop`, which have to be there. -/
def countRange (limit : Nat) (cost : TokenCounter) (messages : List Message) (start stop : Nat) :
    Option (Except Failure Nat) :=
  if stop ≤ start ∨ messages.length < stop then
    some (.error (.range start stop messages.length))
  else do
    let range ← slice messages start stop
    let sum ← total limit cost range
    some (.ok sum)

section Totals

variable {limit : Nat} {cost : TokenCounter} {messages : List Message}

/-- Adding up breaks no limit that the sum keeps. -/
theorem foldl_add_eq {before : Nat} (h : before + cost.total messages ≤ limit) :
    (messages.map cost).foldlM (add limit) before = some (before + cost.total messages) := by
  induction messages generalizing before with
  | nil => rfl
  | cons m ms ih =>
      have hsplit : cost.total (m :: ms) = cost m + cost.total ms := rfl
      rw [hsplit, ← Nat.add_assoc] at h ⊢
      rw [List.map_cons, List.foldlM_cons, add_eq (Nat.le_trans (Nat.le_add_right _ _) h)]
      exact ih h

/-- A total within the limit is added up. -/
theorem total_eq (h : cost.total messages ≤ limit) :
    total limit cost messages = some (cost.total messages) := by
  rw [total, foldl_add_eq (by rwa [Nat.zero_add]), Nat.zero_add]

/-- If the cost of all messages keeps the limit, no range breaks it. -/
theorem count_range_eq (h : cost.total messages ≤ limit) (start stop : Nat) :
    countRange limit cost messages start stop = some (cost.countRange messages start stop) := by
  unfold countRange TokenCounter.countRange
  by_cases hrange : start < stop ∧ stop ≤ messages.length
  · have hslice : slice messages start stop = some ((messages.take stop).drop start) :=
      slice_eq (Nat.le_of_lt hrange.1) hrange.2
    have hsum : total limit cost ((messages.take stop).drop start) = _ :=
      total_eq (Nat.le_trans (total_slice_le cost messages start stop) h)
    rw [if_neg (by omega), if_pos hrange, hslice, Option.bind_eq_bind, Option.bind_some, hsum]
    rfl
  · rw [if_pos (by omega), if_neg hrange]

end Totals

end Checked

namespace TokenCounter

variable {cost : TokenCounter} {messages : List Message} {start stop : Nat}

/-! ## The sums -/

/-- There is a sum before each message, and one behind the last. -/
theorem prefix_sums_go_length (cost : TokenCounter) (before : Nat) (messages : List Message) :
    (prefixSums.go cost before messages).length = messages.length + 1 := by
  induction messages generalizing before with
  | nil => rfl
  | cons m ms ih => rw [prefixSums.go, List.length_cons, ih, List.length_cons]

/-- There is a sum for every number of first messages. -/
theorem prefix_sums_length (cost : TokenCounter) (messages : List Message) :
    (cost.prefixSums messages).length = messages.length + 1 :=
  prefix_sums_go_length cost 0 messages

/-- The sums never decrease. -/
theorem prefix_sums_sorted (cost : TokenCounter) (messages : List Message) :
    (cost.prefixSums messages).Pairwise (· ≤ ·) := by
  have hget : ∀ i (h : i < (cost.prefixSums messages).length),
      (cost.prefixSums messages)[i] = cost.total (messages.take i) := by
    intro i h
    have hle : i ≤ messages.length := by
      rw [prefix_sums_length] at h
      exact Nat.le_of_lt_succ h
    exact Option.some.inj ((List.getElem?_eq_getElem h).symm.trans (prefix_sums_get cost hle))
  rw [List.pairwise_iff_getElem]
  intro i j hi hj hlt
  rw [hget i hi, hget j hj]
  exact total_le_of_prefix cost (List.take_prefix_take_left (Nat.le_of_lt hlt))

/-! ## The ranges -/

/-- The count of a range is the cost of its messages. -/
theorem count_range_eq_total (hlt : start < stop) (hstop : stop ≤ messages.length) :
    cost.countRange messages start stop = .ok (cost.total ((messages.take stop).drop start)) :=
  if_pos ⟨hlt, hstop⟩

/-- A range is refused exactly if it is empty, turned round, or reaches behind the last message. -/
theorem count_range_eq_error_iff {failure : Failure} :
    cost.countRange messages start stop = .error failure ↔
      ¬ (start < stop ∧ stop ≤ messages.length) ∧
        failure = .range start stop messages.length := by
  by_cases hrange : start < stop ∧ stop ≤ messages.length
  · rw [count_range_eq_total hrange.1 hrange.2]
    exact iff_of_false (fun h => nomatch h) fun h => h.1 hrange
  · rw [countRange, if_neg hrange, Except.error.injEq]
    exact ⟨fun h => ⟨hrange, h.symm⟩, fun h => h.2.symm⟩

/-- The later sum has as much more than the earlier one as the messages between cost. -/
theorem count_range_eq_sub (hlt : start < stop) (hstop : stop ≤ messages.length) :
    ∃ lower upper, (cost.prefixSums messages)[start]? = some lower ∧
      (cost.prefixSums messages)[stop]? = some upper ∧ lower ≤ upper ∧
      cost.countRange messages start stop = .ok (upper - lower) := by
  have hstart : start ≤ messages.length := Nat.le_trans (Nat.le_of_lt hlt) hstop
  have hsplit := total_between cost messages (Nat.le_of_lt hlt)
  refine ⟨_, _, prefix_sums_get cost hstart, prefix_sums_get cost hstop, ?_, ?_⟩
  · exact hsplit ▸ Nat.le_add_right _ _
  · rw [count_range_eq_total hlt hstop, hsplit, Nat.add_sub_cancel_left]

/-- The costs of two ranges that meet are together that of the range of both. -/
theorem count_range_add {mid : Nat} (hfirst : start < mid) (hsecond : mid < stop)
    (hstop : stop ≤ messages.length) :
    ∃ first second, cost.countRange messages start mid = .ok first ∧
      cost.countRange messages mid stop = .ok second ∧
      cost.countRange messages start stop = .ok (first + second) := by
  have hmid : mid ≤ messages.length := Nat.le_trans (Nat.le_of_lt hsecond) hstop
  refine ⟨_, _, count_range_eq_total hfirst hmid, count_range_eq_total hsecond hstop, ?_⟩
  have hleft := total_between cost messages (Nat.le_of_lt hfirst)
  have hright := total_between cost messages (Nat.le_of_lt hsecond)
  have hboth := total_between cost messages (Nat.le_of_lt (Nat.lt_trans hfirst hsecond))
  rw [count_range_eq_total (Nat.lt_trans hfirst hsecond) hstop]
  congr 1
  omega

/-- If the estimate of all messages is a machine number, then counting a range, adding up the sums
and the estimate itself break no limit. A count is refused exactly where there is no such range, and
else it is the difference of the two sums that belong to its ends. There is one sum more than there
are messages, they never decrease, and they lead from nothing to the estimate. The counts of ranges
that meet add up. -/
theorem counts_agree_with_sums (limit : Nat) (cost : TokenCounter) (messages : List Message)
    (hlimit : cost.total messages ≤ limit) :
    let sums := cost.prefixSums messages
    let count := cost.countRange messages
    ((∀ start stop,
        Checked.countRange limit cost messages start stop = some (count start stop)) ∧
      Checked.prefixSums limit cost 0 messages = some sums ∧
      Checked.total limit cost messages = some (cost.total messages)) ∧
    (∀ start stop failure, count start stop = .error failure ↔
      ¬ (start < stop ∧ stop ≤ messages.length) ∧
        failure = .range start stop messages.length) ∧
    (∀ start stop, start < stop → stop ≤ messages.length →
      ∃ lower upper, sums[start]? = some lower ∧ sums[stop]? = some upper ∧ lower ≤ upper ∧
        count start stop = .ok (upper - lower)) ∧
    (sums.length = messages.length + 1 ∧ sums.Pairwise (· ≤ ·) ∧ sums[0]? = some 0 ∧
      sums[messages.length]? = some (cost.total messages)) ∧
    ∀ start mid stop, start < mid → mid < stop → stop ≤ messages.length →
      ∃ first second, count start mid = .ok first ∧ count mid stop = .ok second ∧
        count start stop = .ok (first + second) := by
  have hfirst := prefix_sums_get cost (Nat.zero_le messages.length)
  have hlast := prefix_sums_get cost (Nat.le_refl messages.length)
  rw [List.take_zero, total_nil] at hfirst
  rw [List.take_length] at hlast
  refine ⟨⟨?_, ?_, ?_⟩, ?_, ?_, ⟨?_, ?_, hfirst, hlast⟩, ?_⟩
  · exact Checked.count_range_eq hlimit
  · exact Checked.prefix_sums_eq (by omega)
  · exact Checked.total_eq hlimit
  · exact fun _ _ _ => count_range_eq_error_iff
  · exact fun _ _ => count_range_eq_sub
  · exact prefix_sums_length cost messages
  · exact prefix_sums_sorted cost messages
  · exact fun _ _ _ => count_range_add

/-- Three messages whose estimate is the largest machine number. -/
theorem counts_agree_with_sums_at_limit :
    let messages : List Message := [.user "aaaa", .user "bbbbbbbb", .user "cccccccccccc"]
    standard.total messages ≤ 6 ∧ standard.prefixSums messages = [0, 1, 3, 6] ∧
      Checked.countRange 6 standard messages 0 3 = some (.ok 6) ∧
      standard.countRange messages 1 3 = .ok (2 + 3) ∧
      standard.countRange messages 2 1 = .error (.range 2 1 3) ∧
      standard.countRange messages 0 4 = .error (.range 0 4 3) := by
  intro messages
  have hlimit : standard.total messages ≤ 6 := by decide
  obtain ⟨⟨hcount, -, -⟩, herror, -, -, hadd⟩ := counts_agree_with_sums 6 standard messages hlimit
  obtain ⟨first, second, hfirst, hsecond, hboth⟩ :=
    hadd 1 2 3 (by decide) (by decide) (by decide)
  have htwo : standard.countRange messages 1 2 = .ok 2 := by decide
  have hthree : standard.countRange messages 2 3 = .ok 3 := by decide
  obtain rfl := Except.ok.inj (hfirst.symm.trans htwo)
  obtain rfl := Except.ok.inj (hsecond.symm.trans hthree)
  refine ⟨hlimit, by decide, (hcount 0 3).trans (by decide), hboth, ?_, ?_⟩
  · exact (herror 2 1 _).2 ⟨by decide, rfl⟩
  · exact (herror 0 4 _).2 ⟨by decide, rfl⟩

end TokenCounter

end Transcript
