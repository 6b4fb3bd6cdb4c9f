import Transcript.Proofs.Bisection.Loop

/-!
# What strategies search for

Every strategy finds its cut by bisection, with a question about the sums of the costs. Here the
questions are asked in machine numbers, about any sums that do not decrease. `Strategy.question_eq`
shows that they have an answer at every place of the search, so no index lies outside of the sums
and no number breaks its bounds, and `Strategy.stops_mono` that they turn from no to yes, since a
range that grows costs no less. With that bisection does find the cut
(`Bisection.finds_least_and_decides_cuts`).
-/

namespace Transcript

namespace Strategy

open Bisection (Rises)
open Checked (add sub rangeCost add_eq sub_eq)

/-- Sums of a machine: none is less than the one before, and they and their number keep the
limit. -/
structure AreSums (limit : Nat) (sums : List Nat) : Prop where
  sorted : sums.Pairwise (· ≤ ·)
  le_limit : ∀ sum ∈ sums, sum ≤ limit
  length_le : sums.length ≤ limit

/-- Where the search of a strategy begins: at a position, or with a number of messages. -/
def searchFrom (strategy : Strategy) (head : Nat) : Nat :=
  match strategy with
  | .headOut | .tailOut => head
  | .middleOut => 0

/-- Where the search of a strategy ends at the latest. -/
def searchTo (strategy : Strategy) (head tailStart : Nat) : Nat :=
  match strategy with
  | .headOut | .tailOut => tailStart
  | .middleOut => tailStart - head

/-- What a strategy asks about a place: whether the messages from there on fit, or whether one more
than up to there does not. -/
def stops (strategy : Strategy) (sums : List Nat) (head tailStart remaining place : Nat) : Bool :=
  match strategy with
  | .headOut => costBetween sums place tailStart ≤ remaining
  | .tailOut => place == tailStart || remaining < costBetween sums head (place + 1)
  | .middleOut => place == tailStart - head ||
      remaining < keptCost sums head tailStart (centreCut head tailStart (place + 1))

/-- The same in machine numbers and with positions that have to be there. -/
def question (limit : Nat) (strategy : Strategy) (sums : List Nat)
    (head tailStart remaining place : Nat) : Option Bool :=
  match strategy with
  | .headOut => do
    let cost ← rangeCost sums (place, tailStart)
    some (cost ≤ remaining)
  | .tailOut =>
    if place = tailStart then some true
    else do
      let next ← add limit place 1
      let cost ← rangeCost sums (head, next)
      some (remaining < cost)
  | .middleOut => do
    let length ← sub tailStart head
    if place = length then some true
    else
      let k ← add limit place 1
      let left ← add limit head ((k + 1) / 2)
      let right ← sub tailStart (k / 2)
      let front ← rangeCost sums (head, left)
      let back ← rangeCost sums (right, tailStart)
      let cost ← add limit front back
      some (remaining < cost)

/-- The cut that belongs to a place. -/
def cutAt (strategy : Strategy) (head tailStart place : Nat) : Cut :=
  match strategy with
  | .headOut => ⟨head, place⟩
  | .tailOut => ⟨place, tailStart⟩
  | .middleOut => centreCut head tailStart place

/-- A strategy cuts at the place that bisection finds. -/
theorem cut_eq_cut_at (strategy : Strategy) (sums : List Nat) (head tailStart remaining : Nat) :
    strategy.cut sums head tailStart remaining =
      strategy.cutAt head tailStart
        (firstTrue (strategy.searchFrom head) (strategy.searchTo head tailStart)
          (strategy.stops sums head tailStart remaining)) := by
  cases strategy <;> rfl

variable {limit : Nat} {sums : List Nat} {head tailStart : Nat}

/-- The bounds of a search are in their order, and none goes beyond the middle. -/
theorem search_bounds (strategy : Strategy) (hhead : head ≤ tailStart) :
    strategy.searchFrom head ≤ strategy.searchTo head tailStart ∧
      strategy.searchTo head tailStart ≤ tailStart := by
  cases strategy with
  | headOut | tailOut => exact ⟨hhead, Nat.le_refl _⟩
  | middleOut => exact ⟨Nat.zero_le _, Nat.sub_le _ _⟩

/-! ## Ranges that grow -/

/-- A later sum is no less. -/
theorem AreSums.get_le_get (h : AreSums limit sums) {i j : Nat} (hle : i ≤ j)
    (hj : j < sums.length) : sums.getD i 0 ≤ sums.getD j 0 := by
  have hi : i < sums.length := Nat.lt_of_le_of_lt hle hj
  rw [← List.getElem_eq_getD (h := hi), ← List.getElem_eq_getD (h := hj)]
  rcases Nat.lt_or_eq_of_le hle with hlt | rfl
  · exact List.pairwise_iff_getElem.1 h.sorted i j hi hj hlt
  · exact Nat.le_refl _

/-- Each of the sums is within the limit. -/
theorem AreSums.get_le_limit (h : AreSums limit sums) {i : Nat} (hi : i < sums.length) :
    sums.getD i 0 ≤ limit := by
  rw [← List.getElem_eq_getD (h := hi)]
  exact h.le_limit _ (List.getElem_mem hi)

/-- A range between positions of the sums has a cost. -/
theorem AreSums.range_cost_eq (h : AreSums limit sums) {start stop : Nat} (hle : start ≤ stop)
    (hstop : stop < sums.length) :
    rangeCost sums (start, stop) = some (costBetween sums start stop) := by
  have hget : ∀ i, i < sums.length → sums[i]? = some (sums.getD i 0) := by
    intro i hi
    rw [List.getD_eq_getElem?_getD, List.getElem?_eq_getElem hi, Option.getD_some]
  simp only [rangeCost, hget start (Nat.lt_of_le_of_lt hle hstop), hget stop hstop,
    Option.bind_eq_bind, Option.bind_some, sub_eq (h.get_le_get hle hstop), costBetween]

/-- A range that reaches further on both sides costs no less. -/
theorem AreSums.cost_between_mono (h : AreSums limit sums) {start start' stop stop' : Nat}
    (hstart : start' ≤ start) (hle : start ≤ stop') (hstop : stop ≤ stop')
    (hlast : stop' < sums.length) :
    costBetween sums start stop ≤ costBetween sums start' stop' := by
  have hfirst := h.get_le_get hstart (Nat.lt_of_le_of_lt hle hlast)
  have hsecond := h.get_le_get hstop hlast
  unfold costBetween
  omega

/-- Two windows that grow by turns cost no less. -/
theorem AreSums.kept_cost_mono (h : AreSums limit sums) (htail : tailStart < sums.length)
    {i j : Nat} (hle : i ≤ j) (hj : head + j ≤ tailStart) :
    keptCost sums head tailStart (centreCut head tailStart i) ≤
      keptCost sums head tailStart (centreCut head tailStart j) := by
  have hleft : costBetween sums head (head + (i + 1) / 2) ≤
      costBetween sums head (head + (j + 1) / 2) :=
    h.cost_between_mono (Nat.le_refl head) (Nat.le_add_right _ _) (by omega) (by omega)
  have hright : costBetween sums (tailStart - i / 2) tailStart ≤
      costBetween sums (tailStart - j / 2) tailStart :=
    h.cost_between_mono (by omega) (Nat.sub_le _ _) (Nat.le_refl _) htail
  exact Nat.add_le_add hleft hright

/-- Two windows that do not overlap cost no more than the last sum. -/
theorem AreSums.kept_cost_le (h : AreSums limit sums) (htail : tailStart < sums.length) {k : Nat}
    (hk : head + k ≤ tailStart) :
    keptCost sums head tailStart (centreCut head tailStart k) ≤ limit := by
  have hapart : sums.getD (head + (k + 1) / 2) 0 ≤ sums.getD (tailStart - k / 2) 0 :=
    h.get_le_get (by omega) (by omega)
  have hback : sums.getD (tailStart - k / 2) 0 ≤ sums.getD tailStart 0 :=
    h.get_le_get (Nat.sub_le _ _) htail
  have hlast := h.get_le_limit htail
  simp only [keptCost, centreCut, costBetween]
  omega

/-! ## Questions -/

section Questions

variable (strategy : Strategy) (remaining : Nat) (h : AreSums limit sums) (hhead : head ≤ tailStart)
  (htail : tailStart < sums.length)

include h hhead htail

/-- A question that is answered with yes is answered so at all places that follow. -/
theorem stops_mono {i j : Nat} (hi : strategy.searchFrom head ≤ i) (hle : i ≤ j)
    (hj : j < strategy.searchTo head tailStart)
    (hstops : strategy.stops sums head tailStart remaining i = true) :
    strategy.stops sums head tailStart remaining j = true := by
  cases strategy with
  | headOut =>
      -- The range from the place on shrinks.
      have hj : j < tailStart := hj
      have hcost : costBetween sums j tailStart ≤ costBetween sums i tailStart :=
        h.cost_between_mono hle (Nat.le_of_lt hj) (Nat.le_refl _) htail
      exact decide_eq_true (Nat.le_trans hcost (of_decide_eq_true hstops))
  | tailOut =>
      -- The range up to the place grows.
      have hi : head ≤ i := hi
      have hj : j < tailStart := hj
      have hcost : costBetween sums head (i + 1) ≤ costBetween sums head (j + 1) :=
        h.cost_between_mono (Nat.le_refl _) (by omega) (Nat.succ_le_succ hle) (by omega)
      simp only [stops, Bool.or_eq_true, beq_iff_eq, decide_eq_true_iff] at hstops ⊢
      omega
  | middleOut =>
      -- Both windows grow.
      have hj : j < tailStart - head := hj
      have hcost : keptCost sums head tailStart (centreCut head tailStart (i + 1)) ≤
          keptCost sums head tailStart (centreCut head tailStart (j + 1)) :=
        h.kept_cost_mono htail (Nat.succ_le_succ hle) (by omega)
      simp only [stops, Bool.or_eq_true, beq_iff_eq, decide_eq_true_iff] at hstops ⊢
      omega

/-- In the search there is an answer at every place, so the question is asked within the sums and in
machine numbers. -/
theorem question_eq {place : Nat} (hge : strategy.searchFrom head ≤ place)
    (hlt : place < strategy.searchTo head tailStart) :
    strategy.question limit sums head tailStart remaining place =
      some (strategy.stops sums head tailStart remaining place) := by
  have hlength := h.length_le
  cases strategy with
  | headOut =>
      have hlt : place < tailStart := hlt
      have hcost := h.range_cost_eq (Nat.le_of_lt hlt) htail
      simp only [question, hcost, Option.bind_eq_bind, Option.bind_some, stops]
  | tailOut =>
      have hge : head ≤ place := hge
      have hlt : place < tailStart := hlt
      have hnext : add limit place 1 = some (place + 1) := add_eq (by omega)
      have hcost : rangeCost sums (head, place + 1) = _ :=
        h.range_cost_eq (Nat.le_succ_of_le hge) (by omega)
      simp only [question, if_neg (Nat.ne_of_lt hlt), hnext, hcost, Option.bind_eq_bind,
        Option.bind_some, stops, beq_eq_false_iff_ne.2 (Nat.ne_of_lt hlt), Bool.false_or]
  | middleOut =>
      have hlt : place < tailStart - head := hlt
      have hmore : head + (place + 1) ≤ tailStart := by omega
      have hk : add limit place 1 = some (place + 1) := add_eq (by omega)
      have hleft : add limit head ((place + 1 + 1) / 2) = some (head + (place + 1 + 1) / 2) :=
        add_eq (by omega)
      have hright : sub tailStart ((place + 1) / 2) = some (tailStart - (place + 1) / 2) :=
        sub_eq (by omega)
      have hfront : rangeCost sums (head, head + (place + 1 + 1) / 2) = _ :=
        h.range_cost_eq (Nat.le_add_right _ _) (by omega)
      have hback : rangeCost sums (tailStart - (place + 1) / 2, tailStart) = _ :=
        h.range_cost_eq (Nat.sub_le _ _) htail
      have hcost : add limit (costBetween sums head (head + (place + 1 + 1) / 2))
          (costBetween sums (tailStart - (place + 1) / 2) tailStart) =
          some (keptCost sums head tailStart (centreCut head tailStart (place + 1))) :=
        add_eq (h.kept_cost_le htail hmore)
      simp only [question, sub_eq hhead, if_neg (Nat.ne_of_lt hlt), hk, hleft, hright, hfront,
        hback, hcost, Option.bind_eq_bind, Option.bind_some, stops,
        beq_eq_false_iff_ne.2 (Nat.ne_of_lt hlt), Bool.false_or]

/-- At the end of the search the answer is yes: nothing is left to fit, or to be added. -/
theorem question_search_to :
    strategy.question limit sums head tailStart remaining (strategy.searchTo head tailStart) =
      some true := by
  cases strategy with
  | headOut =>
      have hcost : rangeCost sums (tailStart, tailStart) = _ :=
        h.range_cost_eq (Nat.le_refl _) htail
      have hnothing : costBetween sums tailStart tailStart = 0 := Nat.sub_self _
      simp only [question, searchTo, hcost, hnothing, Option.bind_eq_bind, Option.bind_some,
        Nat.zero_le, decide_true]
  | tailOut => exact if_pos rfl
  | middleOut =>
      simp only [question, searchTo, sub_eq hhead, Option.bind_eq_bind, Option.bind_some, if_true]

/-- So bisection can search with it. -/
theorem question_rises :
    Rises (strategy.question limit sums head tailStart remaining) (strategy.searchFrom head)
      (strategy.searchTo head tailStart) where
  answered _ hge hlt := ⟨_, question_eq strategy remaining h hhead htail hge hlt⟩
  monotone i j hge hle hlt hyes := by
    have hi := question_eq strategy remaining h hhead htail hge
      (Nat.lt_of_le_of_lt hle hlt)
    have hj := question_eq strategy remaining h hhead htail (Nat.le_trans hge hle) hlt
    rw [hi, Option.some.injEq] at hyes
    rw [hj, stops_mono strategy remaining h hhead htail hge hle hlt hyes]
  at_end := question_search_to strategy remaining h hhead htail

end Questions

end Strategy

namespace Bisection

open Strategy (AreSums)

/-- A question that turns from no to yes is put to places between the bounds only, in machine
numbers. The loop ends, after no more rounds than the gap between the bounds has binary digits, at
the least place with yes, which is the one that bisection finds. Every strategy asks such a
question, for any sums that do not decrease and any middle that ends before the last of them, and
cuts where the loop ends. -/
theorem finds_least_and_decides_cuts (limit : Nat) :
    (∀ (ask : Nat → Option Bool) (lo hi : Nat), lo ≤ hi → hi ≤ limit → Rises ask lo hi →
      ∃ e, loop limit ask (hi - lo).size (start lo hi) = some e ∧
        (∀ i ∈ e.asked, lo ≤ i ∧ i < hi) ∧
        IsLeast {i | lo ≤ i ∧ i ≤ hi ∧ ask i = some true} e.lo ∧
        ∀ p : Nat → Bool, (∀ i, lo ≤ i → i < hi → ask i = some (p i)) → firstTrue lo hi p = e.lo) ∧
    ∀ (strategy : Strategy) (sums : List Nat) (head tailStart remaining : Nat),
      AreSums limit sums → head ≤ tailStart → tailStart < sums.length →
      let ask := strategy.question limit sums head tailStart remaining
      let lo := strategy.searchFrom head
      let hi := strategy.searchTo head tailStart
      lo ≤ hi ∧ hi ≤ limit ∧ Rises ask lo hi ∧
        ∃ e, loop limit ask (hi - lo).size (start lo hi) = some e ∧
          strategy.cut sums head tailStart remaining = strategy.cutAt head tailStart e.lo := by
  constructor
  · intro ask lo hi hle hlimit h
    obtain ⟨e, he, hnarrow, hmet⟩ := loop_start hle hlimit h
    exact ⟨e, he, hnarrow.asked, hnarrow.is_least hmet, fun _ hp => hnarrow.first_true_eq h hmet hp⟩
  · intro strategy sums head tailStart remaining h hhead htail ask lo hi
    obtain ⟨hle, hto⟩ := Strategy.search_bounds strategy hhead
    have hlimit : hi ≤ limit := Nat.le_trans hto (Nat.le_trans (Nat.le_of_lt htail) h.length_le)
    have hrises : Rises ask lo hi := Strategy.question_rises strategy remaining h hhead htail
    obtain ⟨e, he, hnarrow, hmet⟩ := loop_start hle hlimit hrises
    refine ⟨hle, hlimit, hrises, e, he, ?_⟩
    have hplace := hnarrow.first_true_eq hrises hmet fun _ =>
      Strategy.question_eq strategy remaining h hhead htail
    rw [Strategy.cut_eq_cut_at, hplace]

/-- In numbers up to 15 the middle of 9 and 15 is found although their sum is none of them. And of a
middle of three messages a budget of 5 takes the first and the last. -/
theorem finds_least_and_decides_cuts_four_bits :
    let ask : Nat → Option Bool := fun i => if 9 ≤ i ∧ i ≤ 15 then some (decide (13 ≤ i)) else none
    let sums := [0, 3, 3, 7, 12, 13]
    Rises ask 9 15 ∧ loop 15 ask (Nat.size (15 - 9)) (start 9 15) = some ⟨13, 13, [13, 14, 12]⟩ ∧
      firstTrue 9 15 (fun i => 13 ≤ i) = 13 ∧
      AreSums 15 sums ∧ Rises (Strategy.middleOut.question 15 sums 1 4 5) 0 3 ∧
      Strategy.middleOut.cut sums 1 4 5 = ⟨2, 3⟩ := by
  intro ask sums
  have hask : ∀ i, 9 ≤ i → i < 15 → ask i = some (decide (13 ≤ i)) := fun i hge hlt =>
    if_pos ⟨hge, Nat.le_of_lt hlt⟩
  have hrises : Rises ask 9 15 := by
    refine ⟨fun i hge hlt => ⟨_, hask i hge hlt⟩, fun i j hge hle hlt hyes => ?_, rfl⟩
    rw [hask i hge (Nat.lt_of_le_of_lt hle hlt), Option.some.injEq, decide_eq_true_iff] at hyes
    rw [hask j (Nat.le_trans hge hle) hlt, decide_eq_true (Nat.le_trans hyes hle)]
  have hsums : AreSums 15 sums := ⟨by decide, by decide, by decide⟩
  obtain ⟨hfound, hcut⟩ := finds_least_and_decides_cuts 15
  obtain ⟨e, he, -, -, hfirst⟩ := hfound ask 9 15 (by decide) (by decide) hrises
  obtain ⟨-, -, hquestion, e', he', hplace⟩ :=
    hcut .middleOut sums 1 4 5 hsums (by decide) (by decide)
  have hloop : loop 15 ask (Nat.size (15 - 9)) (start 9 15) = some ⟨13, 13, [13, 14, 12]⟩ := by
    decide
  have hloop' : loop 15 (Strategy.middleOut.question 15 sums 1 4 5) (Nat.size 3) (start 0 3) =
      some ⟨2, 2, [2, 1]⟩ := by decide
  obtain rfl := Option.some.inj (he.symm.trans hloop)
  obtain rfl := Option.some.inj (he'.symm.trans hloop')
  exact ⟨hrises, hloop, hfirst _ hask, hsums, hquestion, hplace⟩

end Bisection

end Transcript
