import Transcript.Proofs.Bisection
import Transcript.Proofs.Tailoring.Costs
import Transcript.Proofs.Tailoring.Segments
import Transcript.Tailoring.Basic

/-!
# Which messages tailoring selects

What a strategy keeps can be said without sums and without bisection: of all numbers of messages
that the strategy could keep, it keeps the largest that the rest of the budget takes.
`Tailor.selection` says it that way, and `Tailor.cut_apply` shows that the cut leaves the same
messages. What tailoring gives are these messages without the tool results that follow the head
(`Tailor.tailor_eq_drop_while`).
-/

namespace Transcript

namespace Strategy

/-- The messages of the middle that a strategy keeps if it keeps `k` of them. -/
def keep (strategy : Strategy) (middle : List Message) (k : Nat) : List Message :=
  match strategy with
  | .headOut => middle.drop (middle.length - k)
  | .tailOut => middle.take k
  | .middleOut => middle.take ((k + 1) / 2) ++ middle.drop (middle.length - k / 2)

/-- The largest number of messages that a strategy can keep for so many tokens. Every number is
tried, from all messages down. -/
def room (strategy : Strategy) (cost : TokenCounter) (middle : List Message) (tokens : Nat) : Nat :=
  Nat.findGreatest (fun k => cost.total (strategy.keep middle k) ≤ tokens) middle.length

/-- The cut that leaves `k` messages of the middle. -/
def keptCut (strategy : Strategy) (head tailStart k : Nat) : Cut :=
  match strategy with
  | .headOut => ⟨head, tailStart - k⟩
  | .tailOut => ⟨head + k, tailStart⟩
  | .middleOut => centreCut head tailStart k

variable {cost : TokenCounter} {middle messages : List Message} {tokens : Nat}

/-- To keep no message costs nothing. -/
theorem keep_zero (strategy : Strategy) (middle : List Message) : strategy.keep middle 0 = [] := by
  cases strategy <;> simp [keep]

/-- To keep every message is to keep the middle. -/
theorem keep_length (strategy : Strategy) (middle : List Message) :
    strategy.keep middle middle.length = middle := by
  cases strategy with
  | headOut => simp [keep]
  | tailOut => simp [keep]
  | middleOut =>
      have h : middle.length - middle.length / 2 = (middle.length + 1) / 2 := by omega
      rw [keep, h, List.take_append_drop]

/-- To keep more messages costs no less. -/
theorem total_keep_le (strategy : Strategy) {j k : Nat} (h : j ≤ k) :
    cost.total (strategy.keep middle j) ≤ cost.total (strategy.keep middle k) := by
  cases strategy with
  | headOut =>
      exact TokenCounter.total_le_of_suffix cost (List.drop_suffix_drop_left _ (by omega))
  | tailOut => exact TokenCounter.total_le_of_prefix cost (List.take_prefix_take_left h)
  | middleOut =>
      have hfront : cost.total (middle.take ((j + 1) / 2)) ≤
          cost.total (middle.take ((k + 1) / 2)) :=
        TokenCounter.total_le_of_prefix cost (List.take_prefix_take_left (by omega))
      have hback : cost.total (middle.drop (middle.length - j / 2)) ≤
          cost.total (middle.drop (middle.length - k / 2)) :=
        TokenCounter.total_le_of_suffix cost (List.drop_suffix_drop_left _ (by omega))
      simp only [keep, TokenCounter.total_append]
      omega

/-- To keep some messages costs no more than to keep all of them. -/
theorem total_keep_le_total (strategy : Strategy) {k : Nat} (hk : k ≤ middle.length) :
    cost.total (strategy.keep middle k) ≤ cost.total middle := by
  have h : cost.total (strategy.keep middle k) ≤
      cost.total (strategy.keep middle middle.length) := total_keep_le strategy hk
  rwa [keep_length] at h

/-- There is no room for more than the middle. -/
theorem room_le (strategy : Strategy) : strategy.room cost middle tokens ≤ middle.length :=
  Nat.findGreatest_le _

/-- So many messages fit exactly if they are no more than the largest number that does. -/
theorem le_room_iff (strategy : Strategy) {k : Nat} (hk : k ≤ middle.length) :
    k ≤ strategy.room cost middle tokens ↔ cost.total (strategy.keep middle k) ≤ tokens := by
  refine find_greatest_iff (p := fun k => cost.total (strategy.keep middle k) ≤ tokens) ?_ ?_ hk
  · simp [keep_zero]
  · intro i j hij _ hj
    exact Nat.le_trans (total_keep_le strategy hij) hj

/-- If the whole middle fits, all of it is kept. -/
theorem room_eq_length (strategy : Strategy) (h : cost.total middle ≤ tokens) :
    strategy.room cost middle tokens = middle.length := by
  have hfit : cost.total (strategy.keep middle middle.length) ≤ tokens := by
    rwa [keep_length]
  exact Nat.le_antisymm (room_le strategy) ((le_room_iff strategy (Nat.le_refl _)).2 hfit)

/-- Bisection for the first number of messages after which one more does not fit finds the largest
number that does. -/
theorem first_true_eq_room (strategy : Strategy) (start : Nat) {stop : Nat}
    (hstop : stop = start + middle.length) {q : Nat → Bool}
    (hq : ∀ i, i < middle.length →
      (q (start + i) = true ↔ tokens < cost.total (strategy.keep middle (i + 1)))) :
    firstTrue start stop q = start + strategy.room cost middle tokens := by
  subst hstop
  refine first_true_eq_find_greatest start middle.length ?_ ?_ ?_
  · simp [keep_zero]
  · intro i j hij _ hj
    exact Nat.le_trans (total_keep_le strategy hij) hj
  · intro i hi
    rw [hq i hi, Nat.not_le]

/-! ## Costs of the middle by the sums

Here `messages` is the conversation, and its middle reaches from `head` up to `tailStart`. -/

section Sums

variable {head tailStart : Nat}

/-- The messages from the head to the tail, by their number. -/
theorem length_between (head : Nat) (htail : tailStart ≤ messages.length) :
    ((messages.take tailStart).drop head).length = tailStart - head := by
  rw [List.length_drop, List.length_take, Nat.min_eq_left htail]

/-- The sums tell the cost of the first messages of the middle. -/
theorem cost_between_front (htail : tailStart ≤ messages.length) {k : Nat}
    (hk : head + k ≤ tailStart) :
    costBetween (cost.prefixSums messages) head (head + k) =
      cost.total (((messages.take tailStart).drop head).take k) := by
  rw [cost_between_eq cost (Nat.le_add_right _ _) (Nat.le_trans hk htail), List.take_drop,
    List.take_take, Nat.min_eq_left hk]

/-- The sums tell the cost of the last messages of the middle. -/
theorem cost_between_back (head : Nat) (htail : tailStart ≤ messages.length) {k : Nat}
    (hk : head + k ≤ tailStart) :
    costBetween (cost.prefixSums messages) (tailStart - k) tailStart =
      cost.total (((messages.take tailStart).drop head).drop (tailStart - head - k)) := by
  have hstart : head + (tailStart - head - k) = tailStart - k := by omega
  rw [cost_between_eq cost (Nat.sub_le _ _) htail, List.drop_drop, hstart]

/-- The sums tell the cost of what a cut leaves of the middle. -/
theorem kept_cost_eq (htail : tailStart ≤ messages.length) {k : Nat} (hk : head + k ≤ tailStart) :
    keptCost (cost.prefixSums messages) head tailStart (centreCut head tailStart k) =
      cost.total (keep .middleOut ((messages.take tailStart).drop head) k) := by
  rw [keptCost, centreCut, cost_between_front htail (by omega),
    cost_between_back head htail (by omega), keep, TokenCounter.total_append,
    length_between head htail]

/-- The last messages that fit are found where an exhaustive search finds them. -/
theorem head_search_eq (hhead : head ≤ tailStart) (htail : tailStart ≤ messages.length) :
    firstTrue head tailStart
        (fun m => costBetween (cost.prefixSums messages) m tailStart ≤ tokens) =
      tailStart - room .headOut cost ((messages.take tailStart).drop head) tokens := by
  have hlen := length_between head htail
  have hroom : room .headOut cost ((messages.take tailStart).drop head) tokens ≤
      tailStart - head := hlen ▸ room_le .headOut
  have hfit : ∀ k, head + k ≤ tailStart →
      (k ≤ room .headOut cost ((messages.take tailStart).drop head) tokens ↔
        costBetween (cost.prefixSums messages) (tailStart - k) tailStart ≤ tokens) := by
    intro k hk
    rw [le_room_iff .headOut (by omega), cost_between_back head htail hk, keep, hlen]
  generalize room .headOut cost ((messages.take tailStart).drop head) tokens = k at hroom hfit
  refine first_true_eq (by omega) (by omega) ?_ ?_
  · intro i hi hlt
    have hnot := mt (hfit (tailStart - i) (by omega)).2 (by omega)
    rw [show tailStart - (tailStart - i) = i by omega] at hnot
    exact decide_eq_false hnot
  · intro i hi hlt
    have hcost := (hfit (tailStart - i) (by omega)).1 (by omega)
    rw [show tailStart - (tailStart - i) = i by omega] at hcost
    exact decide_eq_true hcost

/-- The first messages that fit are found where an exhaustive search finds them. -/
theorem tail_search_eq (hhead : head ≤ tailStart) (htail : tailStart ≤ messages.length) :
    firstTrue head tailStart (fun m => m == tailStart ||
        tokens < costBetween (cost.prefixSums messages) head (m + 1)) =
      head + room .tailOut cost ((messages.take tailStart).drop head) tokens := by
  have hlen := length_between head htail
  refine first_true_eq_room .tailOut head (by omega) ?_
  intro i hi
  rw [Nat.add_assoc, cost_between_front htail (by omega), keep, Bool.or_eq_true, beq_iff_eq,
    decide_eq_true_iff]
  omega

/-- The outermost messages that fit are found where an exhaustive search finds them. -/
theorem middle_search_eq (hhead : head ≤ tailStart) (htail : tailStart ≤ messages.length) :
    firstTrue 0 (tailStart - head) (fun k => k == tailStart - head || tokens <
        keptCost (cost.prefixSums messages) head tailStart (centreCut head tailStart (k + 1))) =
      room .middleOut cost ((messages.take tailStart).drop head) tokens := by
  have hlen := length_between head htail
  refine Eq.trans (first_true_eq_room .middleOut 0 (by omega) ?_) (Nat.zero_add _)
  intro i hi
  rw [Nat.zero_add, kept_cost_eq htail (by omega), Bool.or_eq_true, beq_iff_eq,
    decide_eq_true_iff]
  omega

/-- Every strategy cuts where an exhaustive search would. -/
theorem cut_eq (strategy : Strategy) (hhead : head ≤ tailStart)
    (htail : tailStart ≤ messages.length) :
    strategy.cut (cost.prefixSums messages) head tailStart tokens =
      strategy.keptCut head tailStart
        (strategy.room cost ((messages.take tailStart).drop head) tokens) := by
  cases strategy with
  | headOut => exact congrArg (Cut.mk head) (head_search_eq hhead htail)
  | tailOut => exact congrArg (Cut.mk · tailStart) (tail_search_eq hhead htail)
  | middleOut => exact congrArg (centreCut head tailStart) (middle_search_eq hhead htail)

/-- The messages up to a position of the middle. -/
theorem take_eq_append (messages : List Message) {k : Nat} (hk : head + k ≤ tailStart) :
    messages.take (head + k) =
      messages.take head ++ ((messages.take tailStart).drop head).take k := by
  rw [List.take_add, List.drop_take, List.take_take, Nat.min_eq_left (by omega)]

/-- The messages from a position of the middle on. -/
theorem drop_eq_append (htail : tailStart ≤ messages.length) {k : Nat} (hk : head + k ≤ tailStart) :
    messages.drop (tailStart - k) =
      ((messages.take tailStart).drop head).drop (tailStart - head - k) ++
        messages.drop tailStart := by
  have hle : tailStart - k ≤ (messages.take tailStart).length := by
    rw [List.length_take]
    omega
  have hstart : head + (tailStart - head - k) = tailStart - k := by omega
  rw [List.drop_drop, hstart, ← List.drop_append_of_le_length hle, List.take_append_drop]

/-- What a cut leaves is the head, what is kept of the middle, and the tail. -/
theorem kept_cut_apply (strategy : Strategy) (htail : tailStart ≤ messages.length) {k : Nat}
    (hk : head + k ≤ tailStart) :
    (strategy.keptCut head tailStart k).apply messages =
      messages.take head ++
        (strategy.keep ((messages.take tailStart).drop head) k ++ messages.drop tailStart) := by
  have hlen := length_between head htail
  cases strategy with
  | headOut => rw [keptCut, Cut.apply, keep, hlen, drop_eq_append htail hk]
  | tailOut => rw [keptCut, Cut.apply, keep, take_eq_append messages hk, List.append_assoc]
  | middleOut =>
      have hleft : head + (k + 1) / 2 ≤ tailStart := by omega
      have hright : head + k / 2 ≤ tailStart := by omega
      rw [keptCut, centreCut, Cut.apply, keep, hlen, take_eq_append messages hleft,
        drop_eq_append htail hright, List.append_assoc, List.append_assoc]

end Sums

end Strategy

namespace Tailor

open Segments

/-- What the messages cost that are always kept. -/
def preserved (t : Tailor) (messages : List Message) : Nat :=
  t.cost.total (front messages) + t.cost.total (back messages)

/-- The messages of the middle that are kept for a budget. -/
def kept (t : Tailor) (messages : List Message) (budget : Nat) : List Message :=
  if budget < t.preserved messages then []
  else
    t.strategy.keep (middle messages)
      (t.strategy.room t.cost (middle messages) (budget - t.preserved messages))

/-- The messages that are selected for a budget: the head, what is kept of the middle, and the
tail. -/
def selection (t : Tailor) (messages : List Message) (budget : Nat) : List Message :=
  front messages ++ (t.kept messages budget ++ back messages)

variable {t : Tailor} {messages : List Message} {budget : Nat}

/-- The cost of a conversation is that of its three parts. -/
theorem total_parts (t : Tailor) (messages : List Message) :
    t.cost.total messages =
      t.preserved messages + t.cost.total (middle messages) := by
  have hparts := congrArg t.cost.total (parts_append messages)
  rw [TokenCounter.total_append, TokenCounter.total_append] at hparts
  unfold preserved
  omega

/-- The sums tell what the messages cost that are always kept. -/
theorem preserved_eq (t : Tailor) (messages : List Message) :
    Strategy.costBetween (t.cost.prefixSums messages) 0 (Segments.of messages).head +
        Strategy.costBetween (t.cost.prefixSums messages) (tailStart messages) messages.length =
      t.preserved messages := by
  rw [Strategy.cost_between_eq t.cost (Nat.zero_le _) (head_le_length messages),
    Strategy.cost_between_eq t.cost (tail_start_le_length messages) (Nat.le_refl _),
    List.drop_zero, List.take_length]
  rfl

/-- The cut leaves the selected messages. -/
theorem cut_apply (t : Tailor) (messages : List Message) (budget : Nat) :
    (t.cut messages budget).apply messages = t.selection messages budget := by
  have hhead := head_le_tail_start messages
  have htail := tail_start_le_length messages
  have hcut : t.cut messages budget =
      if budget < t.preserved messages then ⟨(Segments.of messages).head, tailStart messages⟩
      else t.strategy.cut (t.cost.prefixSums messages) (Segments.of messages).head
        (tailStart messages) (budget - t.preserved messages) := by
    rw [← preserved_eq]
    rfl
  rw [hcut, selection, kept]
  split
  · rfl
  · rw [Strategy.cut_eq t.strategy hhead htail, Strategy.kept_cut_apply t.strategy htail]
    · rfl
    · have hroom : t.strategy.room t.cost (middle messages) (budget - t.preserved messages) ≤
          (middle messages).length := Strategy.room_le t.strategy
      rw [middle_length] at hroom
      unfold middle at hroom
      omega

/-- Tailoring keeps the selected messages, but for the tool results that follow the head. -/
theorem tailor_eq_drop_while (t : Tailor) (messages : List Message) (budget : Nat) :
    t.tailor messages budget =
      front messages ++
        (t.kept messages budget ++ back messages).dropWhile Message.isToolResult := by
  rw [tailor, cut_apply, selection, dropOrphans, ← front_length messages, List.take_left,
    List.drop_left]

end Tailor

end Transcript
