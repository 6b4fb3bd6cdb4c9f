import Transcript.Proofs.Tailoring.Selection

/-!
# Tailoring with checked arithmetic

Machine numbers do not go below zero, sums have a limit, and a row of messages has only so many
positions. Here tailoring is done once more, position by position, and stops without a result as
soon as one of these bounds is broken. `tailor_eq_reference` shows that no bound is ever broken, as
long as the cost of all messages is a machine number, and says what the result is.
-/

namespace Transcript

namespace Checked

/-- Subtraction of machine numbers. -/
def sub (a b : Nat) : Option Nat := if b ≤ a then some (a - b) else none

/-- Addition of machine numbers, none of which is above the limit. -/
def add (limit a b : Nat) : Option Nat := if a + b ≤ limit then some (a + b) else none

/-- The elements from `start` up to `stop`. -/
def slice {α : Type} (xs : List α) (start stop : Nat) : Option (List α) :=
  if start ≤ stop ∧ stop ≤ xs.length then some ((xs.take stop).drop start) else none

/-- The list without the elements from `start` up to `stop`. -/
def drain {α : Type} (xs : List α) (start stop : Nat) : Option (List α) :=
  if start ≤ stop ∧ stop ≤ xs.length then some (xs.take start ++ xs.drop stop) else none

/-- A difference that there is is the one of natural numbers. -/
theorem sub_eq_some {a b c : Nat} (h : sub a b = some c) : c = a - b := by
  unfold sub at h
  split at h
  · exact (Option.some.inj h).symm
  · exact absurd h (by simp)

/-- The least number from `lo` to `hi` that has the property, for a property that may break a
bound. -/
def firstTrue (lo hi : Nat) (p : Nat → Option Bool) : Option Nat :=
  if lo < hi then
    match _ : sub hi lo with
    | none => none
    | some gap =>
      let mid := lo + gap / 2
      match p mid with
      | none => none
      | some true => firstTrue lo mid p
      | some false => firstTrue (mid + 1) hi p
  else some lo
termination_by hi - lo
decreasing_by
  all_goals
    have hgap : gap = hi - lo := sub_eq_some (by assumption)
    omega

/-- The sums of the costs of the first messages, behind the sum of what comes before. -/
def prefixSums (limit : Nat) (cost : TokenCounter) (before : Nat) :
    List Message → Option (List Nat)
  | [] => some [before]
  | m :: ms => do
    let sum ← add limit before (cost m)
    let sums ← prefixSums limit cost sum ms
    some (before :: sums)

/-- The start of the last turn. Of the messages from position `head` on, the last ones have been
passed by, and `count` are left. -/
def turnStart (messages : List Message) (head : Nat) : (count : Nat) → Option Nat
  | 0 => some head
  | count + 1 => do
    let m ← messages[head + count]?
    match m.role with
    | .user => some (head + count)
    | .system => do
      let last ← sub messages.length 1
      some (min (head + count + 1) last)
    | .assistant | .tool => turnStart messages head count

/-- The segments of a conversation. -/
def segments (messages : List Message) : Option Segments := do
  let n := messages.length
  let head := (messages.takeWhile (·.role == .system)).length
  if head = n then some ⟨head, 0⟩
  else
    let body ← slice messages head n
    if body.any (·.role == .assistant) then
      let start ← turnStart messages head (n - head)
      let tail ← sub n start
      some ⟨head, tail⟩
    else some ⟨head, 1⟩

/-- The cost of a range of messages, by the sums. -/
def rangeCost (sums : List Nat) (range : Nat × Nat) : Option Nat := do
  let stop ← sums[range.2]?
  let start ← sums[range.1]?
  sub stop start

/-- The ranges of the middle that keep `k` messages, half of them at each end. -/
def windows (head tailStart k : Nat) : Option (List (Nat × Nat)) := do
  let right ← sub tailStart (k / 2)
  some [(head, head + (k + 1) / 2), (right, tailStart)]

/-- Whether the rest of the budget takes the messages of some ranges. -/
def fits (limit : Nat) (sums : List Nat) (remaining : Nat) (ranges : List (Nat × Nat)) :
    Option Bool := do
  let costs ← ranges.mapM (rangeCost sums)
  let cost ← costs.foldlM (add limit) 0
  some (cost ≤ remaining)

/-- The ranges of the middle that a strategy keeps. -/
def ranges (limit : Nat) (strategy : Strategy) (sums : List Nat)
    (head tailStart remaining : Nat) : Option (List (Nat × Nat)) :=
  match strategy with
  | .headOut => do
    let m ← firstTrue head tailStart fun m => do
      let cost ← rangeCost sums (m, tailStart)
      some (cost ≤ remaining)
    some [(m, tailStart), (tailStart, tailStart)]
  | .tailOut => do
    let m ← firstTrue head tailStart fun m =>
      if m = tailStart then some true
      else do
        let cost ← rangeCost sums (head, m + 1)
        some (remaining < cost)
    some [(head, m), (m, m)]
  | .middleOut => do
    let length ← sub tailStart head
    let k ← firstTrue 0 length fun k =>
      if k = length then some true
      else do
        let kept ← windows head tailStart (k + 1)
        let fit ← fits limit sums remaining kept
        some !fit
    windows head tailStart k

/-- The messages without the tool results that follow the first `head` ones. -/
def dropOrphans (head : Nat) (messages : List Message) : Option (List Message) :=
  let orphans := ((messages.drop head).takeWhile Message.isToolResult).length
  drain messages head (head + orphans)

/-- The ranges of the middle that are kept for a budget, of which `preserved` tokens are taken. -/
def middle (limit : Nat) (strategy : Strategy) (sums : List Nat)
    (head tailStart preserved budget : Nat) : Option (List (Nat × Nat)) :=
  if budget < preserved then some [(head, head), (tailStart, tailStart)]
  else do
    let remaining ← sub budget preserved
    ranges limit strategy sums head tailStart remaining

/-- The messages that are kept for a budget. -/
def tailor (limit : Nat) (t : Tailor) (messages : List Message) (budget : Nat) :
    Option (List Message) :=
  if messages.isEmpty then some []
  else do
    let n := messages.length
    let sums ← prefixSums limit t.cost 0 messages
    let segments ← segments messages
    let tailStart ← sub n segments.tail
    let front ← sums[segments.head]?
    let back ← rangeCost sums (tailStart, n)
    let preserved ← add limit front back
    let middle ← middle limit t.strategy sums segments.head tailStart preserved budget
    let first ← slice messages 0 segments.head
    let kept ← middle.mapM fun range => slice messages range.1 range.2
    let last ← slice messages tailStart n
    dropOrphans segments.head (first ++ (kept.flatten ++ last))

/-! ## No bound is broken -/

section Bounds

variable {α : Type} {xs : List α} {a b start stop limit : Nat}

/-- There is a difference if the first number is no less. -/
theorem sub_eq (h : b ≤ a) : sub a b = some (a - b) := if_pos h

/-- There is a sum if it stays within the limit. -/
theorem add_eq (h : a + b ≤ limit) : add limit a b = some (a + b) := if_pos h

/-- A range within the bounds can be taken. -/
theorem slice_eq (hle : start ≤ stop) (hstop : stop ≤ xs.length) :
    slice xs start stop = some ((xs.take stop).drop start) := if_pos ⟨hle, hstop⟩

/-- A range within the bounds can be left out. -/
theorem drain_eq (hle : start ≤ stop) (hstop : stop ≤ xs.length) :
    drain xs start stop = some (xs.take start ++ xs.drop stop) := if_pos ⟨hle, hstop⟩

end Bounds

/-- The half in which bisection goes on. -/
theorem first_true_step {lo hi : Nat} {p : Nat → Option Bool} {b : Bool} (hlt : lo < hi)
    (hp : p (lo + (hi - lo) / 2) = some b) :
    firstTrue lo hi p =
      if b then firstTrue lo (lo + (hi - lo) / 2) p
      else firstTrue (lo + (hi - lo) / 2 + 1) hi p := by
  conv_lhs => unfold firstTrue
  rw [if_pos hlt]
  split
  · rename_i hsub
    rw [sub_eq (Nat.le_of_lt hlt)] at hsub
    exact absurd hsub (by simp)
  · rename_i gap hsub
    obtain rfl := sub_eq_some hsub
    simp only [hp]
    cases b <;> rfl

/-- Bisection asks about positions in its interval only. -/
theorem first_true_eq {lo hi : Nat} {p : Nat → Option Bool} {q : Nat → Bool}
    (h : ∀ i, lo ≤ i → i < hi → p i = some (q i)) :
    firstTrue lo hi p = some (Transcript.firstTrue lo hi q) := by
  fun_induction Transcript.firstTrue lo hi q with
  | case1 lo hi hlt mid hmid ih =>
      rw [first_true_step hlt (h mid (by omega) (by omega)), if_pos hmid]
      exact ih fun i hi hlt => h i hi (by omega)
  | case2 lo hi hlt mid hmid ih =>
      rw [first_true_step hlt (h mid (by omega) (by omega)), if_neg hmid]
      exact ih fun i hi hlt => h i (by omega) hlt
  | case3 lo hi hge =>
      unfold firstTrue
      rw [if_neg hge]

/-- The sums stay below the limit if the cost of all messages does. -/
theorem prefix_sums_eq {limit : Nat} {cost : TokenCounter} {messages : List Message} {before : Nat}
    (h : before + cost.total messages ≤ limit) :
    prefixSums limit cost before messages =
      some (TokenCounter.prefixSums.go cost before messages) := by
  induction messages generalizing before with
  | nil => rfl
  | cons m ms ih =>
      have hsum : before + (cost m + cost.total ms) ≤ limit := h
      simp only [prefixSums, add_eq (show before + cost m ≤ limit by omega),
        ih (show before + cost m + cost.total ms ≤ limit by omega), Option.bind_eq_bind,
        Option.bind_some, TokenCounter.prefixSums.go]

/-! ### Segments -/

/-- What is still to be passed by of the last turn adds to what has been passed by. -/
theorem turn_start_eq {messages : List Message} {head : Nat} (hhead : head < messages.length)
    {count : Nat} (hcount : head + count ≤ messages.length) :
    ∃ start, turnStart messages head count = some start ∧ start ≤ messages.length ∧
      messages.length - start = max 1 (messages.length - head - count +
        Segments.turnLength ((messages.drop head).take count).reverse) := by
  induction count with
  | zero =>
      refine ⟨head, rfl, Nat.le_of_lt hhead, ?_⟩
      simp only [List.take_zero, List.reverse_nil, Segments.turnLength]
      omega
  | succ count ih =>
      have hlt : head + count < messages.length := by omega
      have hget : messages[head + count]? = some messages[head + count] :=
        List.getElem?_eq_getElem hlt
      have hrev : ((messages.drop head).take (count + 1)).reverse =
          messages[head + count] :: ((messages.drop head).take count).reverse := by
        rw [List.take_succ_eq_append_getElem (by rw [List.length_drop]; omega),
          List.reverse_append, List.getElem_drop]
        rfl
      rw [hrev]
      simp only [turnStart, hget, Option.bind_eq_bind, Option.bind_some]
      -- The walk goes on exactly past the messages that the turn is made of.
      cases hrole : messages[head + count].role with
      | user =>
          refine ⟨head + count, rfl, by omega, ?_⟩
          simp only [Segments.turnLength, hrole]
          omega
      | system =>
          refine ⟨min (head + count + 1) (messages.length - 1), ?_, by omega, ?_⟩
          · simp only [sub_eq (show 1 ≤ messages.length by omega), Option.bind_some]
          · simp only [Segments.turnLength, hrole]
            omega
      | assistant =>
          obtain ⟨start, hstart, hle, hlen⟩ := ih (by omega)
          refine ⟨start, hstart, hle, ?_⟩
          simp only [Segments.turnLength, hrole]
          omega
      | tool =>
          obtain ⟨start, hstart, hle, hlen⟩ := ih (by omega)
          refine ⟨start, hstart, hle, ?_⟩
          simp only [Segments.turnLength, hrole]
          omega

/-- The walk back over the last turn finds the segments. -/
theorem segments_eq (messages : List Message) :
    segments messages = some (Segments.of messages) := by
  have hhead := Segments.head_le_length messages
  have hbody := Segments.drop_head_eq_drop_while messages
  have htail : (Segments.of messages).tail =
      Segments.tailLength (messages.drop (Segments.of messages).head) := by
    rw [hbody]
    rfl
  generalize hsegments : Segments.of messages = found at hhead hbody htail
  obtain ⟨head, tail⟩ := found
  simp only at hhead hbody htail
  have hcount : (messages.takeWhile (·.role == .system)).length = head :=
    congrArg Segments.head hsegments
  unfold segments
  simp only [hcount]
  split
  · rename_i heq
    rw [htail, heq, List.drop_length]
    rfl
  · rename_i hne
    have hlt : head < messages.length := by omega
    have hnonempty : (messages.drop head).isEmpty = false := by
      rw [Bool.eq_false_iff, Ne, List.isEmpty_iff_length_eq_zero, List.length_drop]
      omega
    obtain ⟨start, hstart, hle, hlen⟩ :=
      turn_start_eq hlt (show head + (messages.length - head) ≤ messages.length by omega)
    rw [Nat.sub_self, Nat.zero_add, List.take_of_length_le (by rw [List.length_drop])] at hlen
    simp only [slice_eq hhead (Nat.le_refl _), List.take_length, Option.bind_eq_bind,
      Option.bind_some, hstart, sub_eq hle, hlen]
    rw [htail, Segments.tailLength, hnonempty]
    cases (messages.drop head).any (·.role == .assistant) <;> rfl

/-! ### The middle -/

section Middle

variable {cost : TokenCounter} {messages : List Message} {limit head tailStart remaining : Nat}

/-- The sums never fall. -/
theorem range_cost_eq {start stop : Nat} (hle : start ≤ stop) (hstop : stop ≤ messages.length) :
    rangeCost (cost.prefixSums messages) (start, stop) =
      some (Strategy.costBetween (cost.prefixSums messages) start stop) := by
  have hsplit := TokenCounter.total_between cost messages hle
  rw [Strategy.cost_between_eq cost hle hstop]
  simp only [rangeCost, TokenCounter.prefix_sums_get cost hstop,
    TokenCounter.prefix_sums_get cost (Nat.le_trans hle hstop), Option.bind_eq_bind,
    Option.bind_some, hsplit, sub_eq (Nat.le_add_right _ _), Nat.add_sub_cancel_left]

/-- No part of the messages costs more than all of them. -/
theorem total_slice_le (cost : TokenCounter) (messages : List Message) (start stop : Nat) :
    cost.total ((messages.take stop).drop start) ≤ cost.total messages :=
  Nat.le_trans (TokenCounter.total_le_of_suffix cost (List.drop_suffix _ _))
    (TokenCounter.total_le_of_prefix cost (List.take_prefix _ _))

/-- The windows of a cut within the middle are there. -/
theorem windows_eq {k : Nat} (hk : head + k ≤ tailStart) :
    windows head tailStart k =
      some [(head, head + (k + 1) / 2), (tailStart - k / 2, tailStart)] := by
  simp only [windows, sub_eq (show k / 2 ≤ tailStart by omega), Option.bind_eq_bind,
    Option.bind_some]

/-- The cost of two windows that do not overlap stays below the limit. -/
theorem fits_eq (htail : tailStart ≤ messages.length) (hlimit : cost.total messages ≤ limit)
    {k : Nat} (hk : head + k ≤ tailStart) :
    fits limit (cost.prefixSums messages) remaining
        [(head, head + (k + 1) / 2), (tailStart - k / 2, tailStart)] =
      some (decide (Strategy.keptCost (cost.prefixSums messages) head tailStart
        (Strategy.centreCut head tailStart k) ≤ remaining)) := by
  -- Together the windows hold the messages that are kept, none of them twice.
  have hkept : Strategy.costBetween (cost.prefixSums messages) head (head + (k + 1) / 2) +
      Strategy.costBetween (cost.prefixSums messages) (tailStart - k / 2) tailStart ≤ limit := by
    have hlen : k ≤ ((messages.take tailStart).drop head).length := by
      rw [Strategy.length_between head htail]
      omega
    have hcost : Strategy.keptCost (cost.prefixSums messages) head tailStart
        (Strategy.centreCut head tailStart k) = _ := Strategy.kept_cost_eq htail hk
    rw [Strategy.keptCost, Strategy.centreCut] at hcost
    rw [hcost]
    exact Nat.le_trans (Strategy.total_keep_le_total .middleOut hlen)
      (Nat.le_trans (total_slice_le cost messages head tailStart) hlimit)
  have hfront : rangeCost (cost.prefixSums messages) (head, head + (k + 1) / 2) = _ :=
    range_cost_eq (Nat.le_add_right _ _) (by omega)
  have hback : rangeCost (cost.prefixSums messages) (tailStart - k / 2, tailStart) = _ :=
    range_cost_eq (Nat.sub_le _ _) htail
  simp only [fits, List.mapM_cons, List.mapM_nil, List.foldlM_cons, List.foldlM_nil, hfront,
    hback, Option.bind_eq_bind, Option.pure_def, Option.bind_some]
  rw [add_eq (by omega), Option.bind_some, Nat.zero_add, add_eq hkept]
  rfl

/-- The ranges in which a strategy keeps `k` messages of the middle. -/
def keptRanges (strategy : Strategy) (head tailStart k : Nat) : List (Nat × Nat) :=
  match strategy with
  | .headOut => [(tailStart - k, tailStart), (tailStart, tailStart)]
  | .tailOut => [(head, head + k), (head + k, head + k)]
  | .middleOut => [(head, head + (k + 1) / 2), (tailStart - k / 2, tailStart)]

/-- Every strategy finds the ranges that an exhaustive search would find. -/
theorem ranges_eq (strategy : Strategy) (hhead : head ≤ tailStart)
    (htail : tailStart ≤ messages.length) (hlimit : cost.total messages ≤ limit) :
    ranges limit strategy (cost.prefixSums messages) head tailStart remaining =
      some (keptRanges strategy head tailStart
        (strategy.room cost ((messages.take tailStart).drop head) remaining)) := by
  cases strategy with
  | headOut =>
      have hprobe : ∀ m, head ≤ m → m < tailStart →
          (rangeCost (cost.prefixSums messages) (m, tailStart)).bind
              (fun cost => some (decide (cost ≤ remaining))) =
            some (decide
              (Strategy.costBetween (cost.prefixSums messages) m tailStart ≤ remaining)) := by
        intro m _ hlt
        rw [range_cost_eq (Nat.le_of_lt hlt) htail, Option.bind_some]
      simp only [ranges, Option.bind_eq_bind]
      rw [first_true_eq hprobe, Strategy.head_search_eq hhead htail, Option.bind_some, keptRanges]
  | tailOut =>
      have hprobe : ∀ m, head ≤ m → m < tailStart →
          (if m = tailStart then some true
            else (rangeCost (cost.prefixSums messages) (head, m + 1)).bind
              (fun cost => some (decide (remaining < cost)))) =
            some (m == tailStart || decide (remaining <
              Strategy.costBetween (cost.prefixSums messages) head (m + 1))) := by
        intro m hge hlt
        rw [if_neg (Nat.ne_of_lt hlt), range_cost_eq (by omega) (by omega), Option.bind_some,
          beq_eq_false_iff_ne.2 (Nat.ne_of_lt hlt), Bool.false_or]
      simp only [ranges, Option.bind_eq_bind]
      rw [first_true_eq hprobe, Strategy.tail_search_eq hhead htail, Option.bind_some, keptRanges]
  | middleOut =>
      have hlen := Strategy.length_between head htail
      have hroom : Strategy.room .middleOut cost ((messages.take tailStart).drop head) remaining ≤
          tailStart - head := hlen ▸ Strategy.room_le .middleOut
      have hprobe : ∀ k, 0 ≤ k → k < tailStart - head →
          (if k = tailStart - head then some true
            else (windows head tailStart (k + 1)).bind fun kept =>
              (fits limit (cost.prefixSums messages) remaining kept).bind
                fun fit => some !fit) =
            some (k == tailStart - head || decide (remaining <
              Strategy.keptCost (cost.prefixSums messages) head tailStart
                (Strategy.centreCut head tailStart (k + 1)))) := by
        intro k _ hlt
        rw [if_neg (Nat.ne_of_lt hlt), windows_eq (by omega), Option.bind_some,
          fits_eq htail hlimit (by omega), Option.bind_some,
          beq_eq_false_iff_ne.2 (Nat.ne_of_lt hlt), Bool.false_or, ← decide_not]
        simp only [Nat.not_le]
      simp only [ranges, sub_eq hhead, Option.bind_eq_bind, Option.bind_some]
      rw [first_true_eq hprobe, Strategy.middle_search_eq hhead htail, Option.bind_some,
        windows_eq (by omega), keptRanges]

/-- Two ranges within the bounds can be taken. -/
theorem slices_pair {a b c d : Nat} (hab : a ≤ b) (hb : b ≤ messages.length) (hcd : c ≤ d)
    (hd : d ≤ messages.length) :
    ([(a, b), (c, d)].mapM fun range => slice messages range.1 range.2) =
      some [(messages.take b).drop a, (messages.take d).drop c] := by
  simp only [List.mapM_cons, List.mapM_nil, slice_eq hab hb, slice_eq hcd hd]
  rfl

/-- The kept ranges are ranges of the messages, and hold what is kept of the middle. -/
theorem slices_eq (strategy : Strategy) (htail : tailStart ≤ messages.length) {k : Nat}
    (hk : head + k ≤ tailStart) :
    ∃ rows, ((keptRanges strategy head tailStart k).mapM fun range =>
        slice messages range.1 range.2) = some rows ∧
      rows.flatten = strategy.keep ((messages.take tailStart).drop head) k := by
  have hlen := Strategy.length_between head htail
  -- Rows of the middle, from the front and from the back, as rows of all messages.
  have hfront : ∀ i, head + i ≤ tailStart → (messages.take (head + i)).drop head =
      ((messages.take tailStart).drop head).take i := by
    intro i hi
    rw [List.take_drop, List.take_take, Nat.min_eq_left hi]
  have hback : ∀ i, head + i ≤ tailStart → (messages.take tailStart).drop (tailStart - i) =
      ((messages.take tailStart).drop head).drop (tailStart - head - i) := by
    intro i hi
    rw [List.drop_drop, show head + (tailStart - head - i) = tailStart - i by omega]
  have hnone : ∀ i, (messages.take i).drop i = [] := fun i =>
    List.drop_eq_nil_of_le (by rw [List.length_take]; omega)
  cases strategy with
  | headOut =>
      refine ⟨_, slices_pair (Nat.sub_le _ _) htail (Nat.le_refl _) htail, ?_⟩
      rw [hback k hk, hnone, Strategy.keep, hlen]
      simp
  | tailOut =>
      refine ⟨_, slices_pair (Nat.le_add_right _ _) (by omega) (Nat.le_refl _) (by omega), ?_⟩
      rw [hfront k hk, hnone, Strategy.keep]
      simp
  | middleOut =>
      refine ⟨_, slices_pair (Nat.le_add_right _ _) (by omega) (Nat.sub_le _ _) htail, ?_⟩
      rw [hfront _ (by omega), hback _ (by omega), Strategy.keep, hlen]
      simp

end Middle

/-! ### All of it -/

/-- The tool results that follow the head are there to be removed. -/
theorem drop_orphans_eq (first rest : List Message) :
    dropOrphans first.length (first ++ rest) =
      some (first ++ rest.dropWhile Message.isToolResult) := by
  have hle := (List.takeWhile_prefix (l := rest) Message.isToolResult).length_le
  have hdrop : (first ++ rest).drop (first.length +
      (rest.takeWhile Message.isToolResult).length) = rest.dropWhile Message.isToolResult := by
    rw [List.drop_append, List.drop_of_length_le (Nat.le_add_right _ _), Nat.add_sub_cancel_left,
      List.nil_append]
    nth_rewrite 2 [← List.takeWhile_append_dropWhile (p := Message.isToolResult) (l := rest)]
    exact List.drop_left
  unfold dropOrphans
  simp only [List.drop_left]
  rw [drain_eq (Nat.le_add_right _ _) (by rw [List.length_append]; omega), List.take_left, hdrop]

/-- The middle is kept as an exhaustive search would keep it. -/
theorem middle_eq {limit : Nat} (t : Tailor) (messages : List Message) (budget : Nat)
    (hlimit : t.cost.total messages ≤ limit) :
    ∃ found rows,
      middle limit t.strategy (t.cost.prefixSums messages) (Segments.of messages).head
        (Segments.tailStart messages) (t.preserved messages) budget = some found ∧
      (found.mapM fun range => slice messages range.1 range.2) = some rows ∧
      rows.flatten = t.kept messages budget := by
  have hhead := Segments.head_le_tail_start messages
  have htail := Segments.tail_start_le_length messages
  unfold middle Tailor.kept
  split
  · refine ⟨_, _, rfl, slices_pair (Nat.le_refl _) (Nat.le_trans hhead htail) (Nat.le_refl _)
      htail, ?_⟩
    simp
  · rename_i hfits
    have hroom : t.strategy.room t.cost (Segments.middle messages)
        (budget - t.preserved messages) ≤ (Segments.middle messages).length :=
      Strategy.room_le t.strategy
    rw [Segments.middle_length] at hroom
    have hk : (Segments.of messages).head + t.strategy.room t.cost (Segments.middle messages)
        (budget - t.preserved messages) ≤ Segments.tailStart messages := by omega
    obtain ⟨rows, hrows, hflat⟩ := slices_eq t.strategy htail hk
    refine ⟨_, rows, ?_, hrows, hflat⟩
    rw [sub_eq (Nat.not_lt.1 hfits)]
    exact ranges_eq t.strategy hhead htail hlimit

/-- The sums tell what the last turn costs. -/
theorem back_cost_eq (cost : TokenCounter) (messages : List Message) :
    rangeCost (cost.prefixSums messages) (Segments.tailStart messages, messages.length) =
      some (cost.total (Segments.back messages)) := by
  have htail := Segments.tail_start_le_length messages
  rw [range_cost_eq htail (Nat.le_refl _), Strategy.cost_between_eq cost htail (Nat.le_refl _),
    List.take_length]
  rfl

/-- No bound is broken on the way. -/
theorem tailor_eq {limit : Nat} {t : Tailor} {messages : List Message} {budget : Nat}
    (hlimit : t.cost.total messages ≤ limit) :
    tailor limit t messages budget = some (Segments.front messages ++
      (t.kept messages budget ++ Segments.back messages).dropWhile Message.isToolResult) := by
  have hhead := Segments.head_le_length messages
  have htail := Segments.tail_start_le_length messages
  have hsums : prefixSums limit t.cost 0 messages = some (t.cost.prefixSums messages) :=
    prefix_sums_eq (by omega)
  have hstart : sub messages.length (Segments.of messages).tail =
      some (Segments.tailStart messages) := by
    have hparts := Segments.head_add_tail_le messages
    exact sub_eq (by omega)
  have hfront : (t.cost.prefixSums messages)[(Segments.of messages).head]? =
      some (t.cost.total (Segments.front messages)) :=
    TokenCounter.prefix_sums_get t.cost hhead
  have hpreserved : add limit (t.cost.total (Segments.front messages))
      (t.cost.total (Segments.back messages)) = some (t.preserved messages) :=
    add_eq (Nat.le_trans (Nat.le_add_right _ _) (Tailor.total_parts t messages ▸ hlimit))
  obtain ⟨found, rows, hfound, hrows, hflat⟩ :=
    middle_eq t messages budget hlimit
  have hfirst : slice messages 0 (Segments.of messages).head =
      some (Segments.front messages) := slice_eq (Nat.zero_le _) hhead
  have hlast : slice messages (Segments.tailStart messages) messages.length =
      some (Segments.back messages) := by
    rw [slice_eq htail (Nat.le_refl _), List.take_length]
    rfl
  have horphans := drop_orphans_eq (Segments.front messages)
    (t.kept messages budget ++ Segments.back messages)
  rw [Segments.front_length] at horphans
  unfold tailor
  split
  · -- Without messages nothing is computed, and nothing is kept either.
    rename_i hempty
    obtain rfl := List.isEmpty_iff.1 hempty
    have hkept : t.kept [] budget = [] := by
      have hmiddle : Segments.middle [] = [] := rfl
      unfold Tailor.kept
      rw [hmiddle]
      split
      · rfl
      · cases t.strategy <;> simp [Strategy.keep]
    simp [Segments.front, Segments.back, hkept]
  · simp only [hsums, segments_eq, hstart, hfront, back_cost_eq, hpreserved, Option.bind_eq_bind,
      Option.bind_some, hfound, hfirst, hrows, hlast, hflat, horphans]

end Checked

/-- Tailoring never leaves the bounds of its numbers and positions. It keeps the head, as many
messages of the middle as the strategy can keep within the rest of the budget, and the tail, and
gives up the tool results that follow the head. -/
theorem Tailor.tailor_eq_reference (limit : Nat) (t : Tailor) (messages : List Message)
    (budget : Nat) (hlimit : t.cost.total messages ≤ limit) :
    Checked.tailor limit t messages budget = some (t.tailor messages budget) ∧
      t.tailor messages budget = Segments.front messages ++
        (t.kept messages budget ++ Segments.back messages).dropWhile Message.isToolResult := by
  have htailor := Tailor.tailor_eq_drop_while t messages budget
  rw [htailor]
  exact ⟨Checked.tailor_eq hlimit, rfl⟩

/-- Where the cut falls between a tool and the call of it, what the tool has answered goes as
well. -/
theorem Tailor.tailor_eq_reference_orphan :
    let t : Tailor := { strategy := .headOut, cost := fun _ => 10 }
    let messages : List Message :=
      [.system "s", .user "u1", .calling [⟨"c1", "read", "{}"⟩], .toolResult "c1" "t1",
        .assistant "a1", .user "u2", .assistant "a2"]
    t.cost.total messages ≤ 70 ∧ Checked.tailor 70 t messages 50 = some (t.tailor messages 50) ∧
      t.tailor messages 50 = [.system "s", .assistant "a1", .user "u2", .assistant "a2"] := by
  intro t messages
  have hlimit : t.cost.total messages ≤ 70 := by decide
  have h := Tailor.tailor_eq_reference 70 t messages 50 hlimit
  exact ⟨hlimit, h.1, h.2.trans (by decide)⟩

end Transcript
