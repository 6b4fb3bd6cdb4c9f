import Transcript.Arithmetic

/-!
# Strategies

A strategy says which messages of the middle go first. What goes is always one run of messages, a
`Cut`; the costs of such runs are read off the sums of the costs of ever longer rows of messages.
-/

namespace Transcript

/-- Which messages of the middle go first. -/
inductive Strategy where
  /-- Those at the centre. -/
  | middleOut
  /-- The oldest. -/
  | headOut
  /-- The newest. -/
  | tailOut
deriving DecidableEq, Repr

/-- The run of messages from `start` up to `stop`, which are given up. -/
structure Cut where
  /-- The first message that goes. -/
  start : Nat
  /-- The first message that stays again. -/
  stop : Nat
deriving DecidableEq, Repr

/-- The rest of a row of messages after a cut. -/
def Cut.apply {α : Type} (cut : Cut) (messages : List α) : List α :=
  messages.take cut.start ++ messages.drop cut.stop

namespace Strategy

/-- The name of a strategy, for people. -/
def name : Strategy → String
  | .middleOut => "middle-out"
  | .headOut => "head-out"
  | .tailOut => "tail-out"

/-- All strategies. -/
def all : List Strategy := [middleOut, headOut, tailOut]

/-- The spelling that two ways to write a name have in common: small letters, and `-` for `_`. -/
def spelling (s : String) : String :=
  String.ofList (s.toList.map fun c => if c = '_' then '-' else c.toLower)

/-- The strategy with the name, or the report that there is none. -/
def ofName (s : String) : Except String Strategy :=
  match all.find? (fun t => t.name == spelling s) with
  | some t => .ok t
  | none =>
    .error ("unknown tailoring strategy '" ++ spelling s ++
      "' (expected middle-out, head-out or tail-out)")

/-- The cost of the messages from `start` up to `stop`, by the sums. -/
def costBetween (sums : List Nat) (start stop : Nat) : Nat := sums.getD stop 0 - sums.getD start 0

/-- The cut that leaves the last messages of the middle, as many as the rest of the budget takes. -/
def headCut (sums : List Nat) (head tailStart remaining : Nat) : Cut :=
  ⟨head, firstTrue head tailStart fun m => costBetween sums m tailStart ≤ remaining⟩

/-- The cut that leaves the first messages of the middle, as many as the rest of the budget
takes. -/
def tailCut (sums : List Nat) (head tailStart remaining : Nat) : Cut :=
  ⟨firstTrue head tailStart fun m =>
    m == tailStart || remaining < costBetween sums head (m + 1), tailStart⟩

/-- The cut that leaves `k` messages of the middle, half of them at each end, the odd one in
front. -/
def centreCut (head tailStart k : Nat) : Cut := ⟨head + (k + 1) / 2, tailStart - k / 2⟩

/-- The cost of the messages of the middle that a cut leaves. -/
def keptCost (sums : List Nat) (head tailStart : Nat) (cut : Cut) : Nat :=
  costBetween sums head cut.start + costBetween sums cut.stop tailStart

/-- The cut that leaves the outermost messages of the middle, as many as the budget takes. -/
def middleCut (sums : List Nat) (head tailStart remaining : Nat) : Cut :=
  let length := tailStart - head
  centreCut head tailStart <| firstTrue 0 length fun k =>
    k == length || remaining < keptCost sums head tailStart (centreCut head tailStart (k + 1))

/-- The cut of a strategy in the middle, which reaches from `head` up to `tailStart`. -/
def cut (strategy : Strategy) (sums : List Nat) (head tailStart remaining : Nat) : Cut :=
  match strategy with
  | .headOut => headCut sums head tailStart remaining
  | .tailOut => tailCut sums head tailStart remaining
  | .middleOut => middleCut sums head tailStart remaining

end Strategy

end Transcript
