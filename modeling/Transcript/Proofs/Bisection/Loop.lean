import Mathlib.Algebra.Group.Nat.Defs
import Mathlib.Data.Nat.Size
import Mathlib.Order.Bounds.Basic
import Transcript.Proofs.Tailoring.Checked

/-!
# Bisection as a loop

Bisection once more, as a loop over the bounds of what is left to search. Its numbers are machine
numbers, the question that it asks need not have an answer everywhere, and the places that it asks
about are kept. `Bisection.round_spec` is what one round does: the bounds close in on the place that
is looked for, and what is left is halved. `Bisection.loop_spec` follows from it by induction: the
loop ends, after no more rounds than the gap between its bounds has binary digits, and has found the
least place.
-/

namespace Transcript

/-- The loop between two rounds: the bounds of what is left, and the places asked about, the last
one first. -/
structure Bisection where
  /-- The least place that may be the one. -/
  lo : Nat
  /-- The greatest place that may be the one. -/
  hi : Nat
  /-- The places asked about. -/
  asked : List Nat
deriving DecidableEq, Repr

namespace Bisection

open Checked (add sub add_eq sub_eq)

/-- The loop before its first round. -/
def start (lo hi : Nat) : Bisection := ⟨lo, hi, []⟩

/-- One round. There is none if a number leaves its bounds or the question has no answer. -/
def round (limit : Nat) (ask : Nat → Option Bool) (b : Bisection) : Option Bisection := do
  let gap ← sub b.hi b.lo
  let mid ← add limit b.lo (gap / 2)
  let answer ← ask mid
  if answer then some ⟨b.lo, mid, mid :: b.asked⟩
  else
    let next ← add limit mid 1
    some ⟨next, b.hi, mid :: b.asked⟩

/-- The state in which the loop ends, if it does so within a number of rounds. It goes on as long as
the lower bound is below the upper one. -/
def loop (limit : Nat) (ask : Nat → Option Bool) : (rounds : Nat) → Bisection → Option Bisection
  | 0, b => if b.lo < b.hi then none else some b
  | rounds + 1, b =>
      if b.lo < b.hi then (round limit ask b).bind (loop limit ask rounds) else some b

/-- A question whose answers turn from no to yes, with yes at the upper bound. Below that bound it
has an answer everywhere. -/
structure Rises (ask : Nat → Option Bool) (lo hi : Nat) : Prop where
  /-- There is an answer. -/
  answered : ∀ i, lo ≤ i → i < hi → ∃ answer, ask i = some answer
  /-- Yes is not followed by no. -/
  monotone : ∀ i j, lo ≤ i → i ≤ j → j < hi → ask i = some true → ask j = some true
  /-- The answer at the upper bound is yes. -/
  at_end : ask hi = some true

/-- What holds between the rounds of a loop from `lo` to `hi`: the bounds stay where they were or
have closed in, below the lower one all answers are no, and at the upper one the answer is yes. -/
structure Narrows (ask : Nat → Option Bool) (lo hi : Nat) (b : Bisection) : Prop where
  lo_le : lo ≤ b.lo
  bounds : b.lo ≤ b.hi
  le_hi : b.hi ≤ hi
  below : ∀ i, lo ≤ i → i < b.lo → ask i = some false
  above : ask b.hi = some true
  asked : ∀ i ∈ b.asked, lo ≤ i ∧ i < hi

variable {ask : Nat → Option Bool} {limit lo hi : Nat} {b : Bisection}

/-- Where the answer is no, it has been no before. -/
theorem Rises.no_of_le (h : Rises ask lo hi) {i j : Nat} (hge : lo ≤ i) (hle : i ≤ j) (hlt : j < hi)
    (hno : ask j = some false) : ask i = some false := by
  obtain ⟨answer, hanswer⟩ := h.answered i hge (Nat.lt_of_le_of_lt hle hlt)
  cases answer with
  | false => exact hanswer
  | true =>
      have hyes := h.monotone i j hge hle hlt hanswer
      rw [hno] at hyes
      exact absurd hyes (by simp)

/-! ## One round -/

/-- The place that a round asks about. -/
def mid (b : Bisection) : Nat := b.lo + (b.hi - b.lo) / 2

/-- The middle is no lower than the lower bound. -/
theorem lo_le_mid (b : Bisection) : b.lo ≤ b.mid := Nat.le_add_right _ _

/-- While the bounds have not met, the middle is below the upper bound. -/
theorem mid_lt_hi (hlt : b.lo < b.hi) : b.mid < b.hi := by
  unfold mid
  omega

/-- A round keeps half of what is left, without the middle if the answer there is no. -/
theorem half_left (b : Bisection) :
    2 * (b.mid - b.lo) ≤ b.hi - b.lo ∧ 2 * (b.hi - (b.mid + 1)) ≤ b.hi - b.lo := by
  unfold mid
  omega

/-- The numbers of a round are machine numbers, so it only takes an answer. -/
theorem round_eq (hlimit : b.hi ≤ limit) (hlt : b.lo < b.hi) :
    round limit ask b = (ask b.mid).bind fun answer =>
      some (if answer then ⟨b.lo, b.mid, b.mid :: b.asked⟩
        else ⟨b.mid + 1, b.hi, b.mid :: b.asked⟩) := by
  have hinside := mid_lt_hi hlt
  have hgap : sub b.hi b.lo = some (b.hi - b.lo) := sub_eq (Nat.le_of_lt hlt)
  have hmid : add limit b.lo ((b.hi - b.lo) / 2) = some b.mid :=
    add_eq (Nat.le_trans (Nat.le_of_lt hinside) hlimit)
  have hnext : add limit b.mid 1 = some (b.mid + 1) := add_eq (Nat.le_trans hinside hlimit)
  simp only [round, hgap, hmid, hnext, Option.bind_eq_bind, Option.bind_some]
  refine congrArg (Option.bind (ask b.mid)) (funext fun answer => ?_)
  cases answer <;> rfl

/-- A round lets the bounds close in and halves what is left at least. It asks about a place where
there is an answer. -/
theorem round_spec (hlimit : hi ≤ limit) (h : Rises ask lo hi) (hb : Narrows ask lo hi b)
    (hlt : b.lo < b.hi) :
    ∃ b', round limit ask b = some b' ∧ Narrows ask lo hi b' ∧
      2 * (b'.hi - b'.lo) ≤ b.hi - b.lo := by
  have hge : lo ≤ b.mid := Nat.le_trans hb.lo_le b.lo_le_mid
  have hinside : b.mid < hi := Nat.lt_of_lt_of_le (mid_lt_hi hlt) hb.le_hi
  have hasked : ∀ i ∈ b.mid :: b.asked, lo ≤ i ∧ i < hi :=
    List.forall_mem_cons.2 ⟨⟨hge, hinside⟩, hb.asked⟩
  obtain ⟨answer, hanswer⟩ := h.answered b.mid hge hinside
  rw [round_eq (Nat.le_trans hb.le_hi hlimit) hlt, hanswer]
  cases answer with
  | true =>
      refine ⟨⟨b.lo, b.mid, b.mid :: b.asked⟩, rfl, ?_, b.half_left.1⟩
      exact ⟨hb.lo_le, b.lo_le_mid, Nat.le_of_lt hinside, hb.below, hanswer, hasked⟩
  | false =>
      have hbelow : ∀ i, lo ≤ i → i < b.mid + 1 → ask i = some false := fun i hi hle =>
        h.no_of_le hi (Nat.le_of_lt_succ hle) hinside hanswer
      refine ⟨⟨b.mid + 1, b.hi, b.mid :: b.asked⟩, rfl, ?_, b.half_left.2⟩
      exact ⟨Nat.le_succ_of_le hge, mid_lt_hi hlt, hb.le_hi, hbelow, hb.above, hasked⟩

/-! ## The whole loop -/

/-- The bounds that the loop starts with are those of the range that is searched. -/
theorem narrows_start (h : Rises ask lo hi) (hle : lo ≤ hi) :
    Narrows ask lo hi (start lo hi) where
  lo_le := Nat.le_refl lo
  bounds := hle
  le_hi := Nat.le_refl hi
  below _ hge hlt := absurd hge (Nat.not_le.2 hlt)
  above := h.at_end
  asked _ hmem := absurd hmem List.not_mem_nil

/-- The loop ends with bounds that have met. -/
theorem loop_spec (hlimit : hi ≤ limit) (h : Rises ask lo hi) {rounds : Nat}
    (hb : Narrows ask lo hi b) (hrounds : b.hi - b.lo < 2 ^ rounds) :
    ∃ e, loop limit ask rounds b = some e ∧ Narrows ask lo hi e ∧ e.lo = e.hi := by
  induction rounds generalizing b with
  | zero =>
      rw [Nat.pow_zero] at hrounds
      have hbounds := hb.bounds
      exact ⟨b, if_neg (by omega), hb, by omega⟩
  | succ rounds ih =>
      by_cases hlt : b.lo < b.hi
      · obtain ⟨b', hround, hb', hhalf⟩ := round_spec hlimit h hb hlt
        rw [Nat.pow_succ] at hrounds
        obtain ⟨e, he, hend⟩ := ih hb' (by omega)
        refine ⟨e, ?_, hend⟩
        rw [loop, if_pos hlt, hround, Option.bind_some, he]
      · exact ⟨b, if_neg hlt, hb, Nat.le_antisymm hb.bounds (Nat.not_lt.1 hlt)⟩

/-- Where the bounds have met is the least place with yes. -/
theorem Narrows.is_least (hb : Narrows ask lo hi b) (hmet : b.lo = b.hi) :
    IsLeast {i | lo ≤ i ∧ i ≤ hi ∧ ask i = some true} b.lo := by
  refine ⟨⟨hb.lo_le, hmet ▸ hb.le_hi, hmet ▸ hb.above⟩, ?_⟩
  intro i ⟨hge, _, hyes⟩
  by_contra hlt
  rw [hb.below i hge (Nat.not_le.1 hlt)] at hyes
  exact absurd hyes (by simp)

/-- And it is what bisection finds for a property that says the same between the bounds. -/
theorem Narrows.first_true_eq (h : Rises ask lo hi) (hb : Narrows ask lo hi b) (hmet : b.lo = b.hi)
    {p : Nat → Bool} (hp : ∀ i, lo ≤ i → i < hi → ask i = some (p i)) :
    firstTrue lo hi p = b.lo := by
  have hend : b.lo ≤ hi := hmet ▸ hb.le_hi
  have hyes : ask b.lo = some true := hmet ▸ hb.above
  refine Transcript.first_true_eq hb.lo_le hend ?_ ?_
  · intro i hge hlt
    have hno := hb.below i hge hlt
    rwa [hp i hge (Nat.lt_of_lt_of_le hlt hend), Option.some.injEq] at hno
  · intro i hge hlt
    have hstays := h.monotone b.lo i hb.lo_le hge hlt hyes
    rwa [hp i (Nat.le_trans hb.lo_le hge) hlt, Option.some.injEq] at hstays

/-- Bisection ends after no more rounds than the gap between its bounds has binary digits. -/
theorem loop_start (hle : lo ≤ hi) (hlimit : hi ≤ limit) (h : Rises ask lo hi) :
    ∃ e, loop limit ask (hi - lo).size (start lo hi) = some e ∧ Narrows ask lo hi e ∧ e.lo = e.hi :=
  loop_spec hlimit h (narrows_start h hle) (Nat.lt_size_self _)

end Bisection

end Transcript
