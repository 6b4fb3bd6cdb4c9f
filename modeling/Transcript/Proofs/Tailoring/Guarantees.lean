import Transcript.Proofs.Tailoring.Selection

/-!
# What a caller of tailoring can count on

Tailoring takes messages out and does nothing else to them (`Tailor.tailor_sublist`). The head comes
first and the last turn comes last, and what is kept costs no more than the budget, unless the two
cost more by themselves (`Tailor.tailor_guarantees`). A larger budget takes out fewer messages,
never others (`Tailor.tailor_sublist_of_le`).
-/

namespace Transcript

section DropWhile

variable {α : Type} {p : α → Bool}

/-- The first element that stays is one that is not to be dropped. -/
theorem head_drop_while_eq_false {xs : List α} {x : α} (hx : (xs.dropWhile p).head? = some x) :
    p x = false := by
  have hall := List.head?_dropWhile_not p xs
  rw [hx] at hall
  simpa using hall

/-- What is dropped from the front of a shorter list is dropped from the front of a longer one, and
what stays of the longer one is more. -/
theorem drop_while_sublist_drop_while {xs ys : List α} (h : xs.Sublist ys) :
    (xs.dropWhile p).Sublist (ys.dropWhile p) := by
  induction h with
  | slnil => exact .slnil
  | cons y hrest ih =>
      rw [List.dropWhile_cons]
      split
      · exact ih
      · -- The longer list is kept from `y` on, with all that the shorter one has.
        exact ((List.dropWhile_sublist p).trans hrest).cons y
  | cons_cons x hrest ih =>
      rw [List.dropWhile_cons, List.dropWhile_cons]
      split
      · exact ih
      · exact hrest.cons_cons x

/-- Of two lists in a row, the second is reached by dropping only if all of the first is dropped. -/
theorem exists_drop_suffix_drop_while (xs ys : List α) :
    ∃ k ≤ (ys.takeWhile p).length, ys.drop k <:+ (xs ++ ys).dropWhile p := by
  rw [List.dropWhile_append]
  split
  · refine ⟨(ys.takeWhile p).length, Nat.le_refl _, ?_⟩
    have hsplit : ys.drop (ys.takeWhile p).length = ys.dropWhile p := by
      nth_rewrite 2 [← List.takeWhile_append_dropWhile (p := p) (l := ys)]
      exact List.drop_left
    exact hsplit ▸ List.suffix_rfl
  · exact ⟨0, Nat.zero_le _, List.suffix_append _ _⟩

end DropWhile

namespace TokenCounter

/-- Messages that are taken out cost nothing any more. -/
theorem total_le_of_sublist (cost : TokenCounter) {xs ys : List Message} (h : xs.Sublist ys) :
    total cost xs ≤ total cost ys := by
  induction h with
  | slnil => exact Nat.le_refl _
  | cons y _ ih => exact Nat.le_trans ih (Nat.le_add_left _ _)
  | cons_cons x _ ih => exact Nat.add_le_add_left ih _

end TokenCounter

namespace Strategy

variable {cost : TokenCounter} {middle : List Message}

/-- To keep more messages is to keep the same ones and others. -/
theorem keep_sublist_keep (strategy : Strategy) (middle : List Message) {j k : Nat} (h : j ≤ k) :
    (strategy.keep middle j).Sublist (strategy.keep middle k) := by
  cases strategy with
  | headOut => exact (List.drop_suffix_drop_left middle (by omega)).sublist
  | tailOut => exact (List.take_prefix_take_left h).sublist
  | middleOut =>
      have hfront : middle.take ((j + 1) / 2) <+: middle.take ((k + 1) / 2) :=
        List.take_prefix_take_left (by omega)
      have hback : middle.drop (middle.length - j / 2) <:+ middle.drop (middle.length - k / 2) :=
        List.drop_suffix_drop_left middle (by omega)
      exact hfront.sublist.append hback.sublist

/-- What is kept is part of the middle. -/
theorem keep_sublist (strategy : Strategy) {k : Nat} (hk : k ≤ middle.length) :
    (strategy.keep middle k).Sublist middle := by
  have h := strategy.keep_sublist_keep middle hk
  rwa [keep_length] at h

/-- More tokens have room for more messages. -/
theorem room_le_room (strategy : Strategy) {few many : Nat} (h : few ≤ many) :
    strategy.room cost middle few ≤ strategy.room cost middle many := by
  have hle : strategy.room cost middle few ≤ middle.length := room_le strategy
  have hfits : cost.total (strategy.keep middle (strategy.room cost middle few)) ≤ few :=
    (le_room_iff strategy hle).1 (Nat.le_refl _)
  exact (le_room_iff strategy hle).2 (Nat.le_trans hfits h)

/-- The messages that are kept fit. -/
theorem total_keep_room_le (strategy : Strategy) (tokens : Nat) :
    cost.total (strategy.keep middle (strategy.room cost middle tokens)) ≤ tokens :=
  (le_room_iff strategy (room_le strategy)).1 (Nat.le_refl _)

end Strategy

namespace Tailor

open Segments

variable (t : Tailor) (messages : List Message)

/-- What is kept of the middle keeps its order. -/
theorem kept_sublist_middle (budget : Nat) :
    (t.kept messages budget).Sublist (middle messages) := by
  unfold kept
  split
  · exact List.nil_sublist _
  · exact t.strategy.keep_sublist (Strategy.room_le t.strategy)

/-- What is kept of the middle takes no more than what the head and the tail have left of the
budget. -/
theorem total_kept_le (budget : Nat) :
    t.cost.total (t.kept messages budget) ≤ budget - t.preserved messages := by
  unfold kept
  split
  · exact Nat.zero_le _
  · exact t.strategy.total_keep_room_le _

/-- What is kept of the middle for a budget is also kept for a larger one. -/
theorem kept_sublist_kept {small large : Nat} (h : small ≤ large) :
    (t.kept messages small).Sublist (t.kept messages large) := by
  unfold kept
  split
  · exact List.nil_sublist _
  · rename_i hsmall
    rw [if_neg (by omega)]
    exact t.strategy.keep_sublist_keep _ (t.strategy.room_le_room (by omega))

/-- Tailoring takes messages out and leaves the others in their order. -/
theorem tailor_sublist (budget : Nat) : (t.tailor messages budget).Sublist messages := by
  have hrest : ((t.kept messages budget ++ back messages).dropWhile Message.isToolResult).Sublist
      (middle messages ++ back messages) :=
    (List.dropWhile_sublist _).trans ((t.kept_sublist_middle messages budget).append_right _)
  have hall := hrest.append_left (front messages)
  rwa [parts_append, ← tailor_eq_drop_while] at hall

/-- The head and the tail are beyond the budget's reach, and the rest is within it. -/
theorem total_tailor_le (budget : Nat) :
    t.cost.total (t.tailor messages budget) ≤ max budget (t.preserved messages) := by
  have hrest : t.cost.total ((t.kept messages budget ++ back messages).dropWhile
      Message.isToolResult) ≤ t.cost.total (t.kept messages budget ++ back messages) :=
    t.cost.total_le_of_sublist (List.dropWhile_sublist _)
  have hkept := t.total_kept_le messages budget
  rw [TokenCounter.total_append] at hrest
  rw [tailor_eq_drop_while, TokenCounter.total_append]
  unfold preserved at hkept ⊢
  omega

/-- What tailoring gives is a part of the conversation, in its order. It starts with the head.
Behind the head it ends with the last turn, of which no more than leading tool results can be
missing, and nothing is missing if it starts otherwise. The first message behind the head is no tool
result. The cost stays within the budget, unless the head and the last turn by themselves cost
more. -/
theorem tailor_guarantees (budget : Nat) :
    (t.tailor messages budget).Sublist messages ∧
      (∃ rest, t.tailor messages budget = front messages ++ rest ∧
        ((∀ m ∈ (back messages).head?, m.isToolResult = false) → back messages <:+ rest) ∧
        ∃ k ≤ ((back messages).takeWhile Message.isToolResult).length,
          (back messages).drop k <:+ rest) ∧
      (∀ m ∈ (t.tailor messages budget)[(Segments.of messages).head]?, m.isToolResult = false) ∧
      t.cost.total (t.tailor messages budget) ≤
        max budget (t.cost.total (front messages) + t.cost.total (back messages)) := by
  have htailor := t.tailor_eq_drop_while messages budget
  obtain ⟨k, hk, hsuffix⟩ := exists_drop_suffix_drop_while (p := Message.isToolResult)
    (t.kept messages budget) (back messages)
  refine ⟨t.tailor_sublist messages budget, ⟨_, htailor, fun hhead => ?_, k, hk, hsuffix⟩, ?_,
    t.total_tailor_le messages budget⟩
  · -- A last turn that does not start with a tool result has no leading run of them.
    have hnone : (back messages).takeWhile Message.isToolResult = [] := by
      cases hback : back messages with
      | nil => rfl
      | cons m ms =>
          rw [hback] at hhead
          rw [List.takeWhile_cons, hhead m rfl]
          rfl
    rw [hnone, List.length_nil, Nat.le_zero] at hk
    rwa [hk, List.drop_zero] at hsuffix
  · intro m hm
    rw [htailor, ← front_length, List.getElem?_append_right (Nat.le_refl _), Nat.sub_self,
      ← List.head?_eq_getElem?] at hm
    exact head_drop_while_eq_false hm

/-- A last turn that starts with a tool result, behind a system message, loses it if nothing of the
middle is kept. -/
theorem tailor_guarantees_interrupted_turn :
    let t : Tailor := { strategy := .tailOut, cost := fun _ => 10 }
    let messages : List Message :=
      [.system "s", .user "u1", .calling [⟨"c1", "read", "{}"⟩], .system "n", .toolResult "c1" "t1",
        .assistant "a1"]
    back messages = [.toolResult "c1" "t1", .assistant "a1"] ∧
      t.tailor messages 20 = [.system "s", .assistant "a1"] ∧
      (∃ k ≤ 1, (back messages).drop k <:+ [.assistant "a1"]) ∧
      t.cost.total (t.tailor messages 20) ≤ 30 := by
  intro t messages
  have htailor : t.tailor messages 20 = [.system "s", .assistant "a1"] :=
    (t.tailor_eq_drop_while messages 20).trans (by decide)
  obtain ⟨-, ⟨rest, hrest, -, k, hk, hsuffix⟩, -, hcost⟩ := t.tailor_guarantees messages 20
  have hsame : rest = [.assistant "a1"] := by
    rw [htailor] at hrest
    exact (List.cons.inj hrest).2.symm
  rw [hsame] at hsuffix
  exact ⟨by decide, htailor, ⟨k, hk, hsuffix⟩, hcost⟩

/-- Whatever is kept for a budget is kept for every larger budget. -/
theorem tailor_sublist_of_le {small large : Nat} (h : small ≤ large) :
    (t.tailor messages small).Sublist (t.tailor messages large) := by
  rw [tailor_eq_drop_while, tailor_eq_drop_while]
  exact (drop_while_sublist_drop_while
    ((t.kept_sublist_kept messages h).append_right _)).append_left _

/-- With one token more a message of the middle stays, and with it the tool result that follows
it. -/
theorem tailor_sublist_of_le_with_call :
    let t : Tailor := { strategy := .headOut, cost := fun _ => 10 }
    let messages : List Message :=
      [.system "s", .user "u1", .calling [⟨"c1", "read", "{}"⟩], .toolResult "c1" "t1", .user "u2"]
    39 ≤ 40 ∧ t.tailor messages 39 = [.system "s", .user "u2"] ∧
      t.tailor messages 40 =
        [.system "s", .calling [⟨"c1", "read", "{}"⟩], .toolResult "c1" "t1", .user "u2"] ∧
      (t.tailor messages 39).Sublist (t.tailor messages 40) := by
  intro t messages
  have hsmall : t.tailor messages 39 = [.system "s", .user "u2"] :=
    (t.tailor_eq_drop_while messages 39).trans (by decide)
  have hlarge : t.tailor messages 40 =
      [.system "s", .calling [⟨"c1", "read", "{}"⟩], .toolResult "c1" "t1", .user "u2"] :=
    (t.tailor_eq_drop_while messages 40).trans (by decide)
  exact ⟨by decide, hsmall, hlarge, t.tailor_sublist_of_le messages (by decide)⟩

end Tailor

end Transcript
